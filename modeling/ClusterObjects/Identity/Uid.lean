import ClusterObjects.Text.Cut
import ClusterObjects.Text.Integer

/-! # Unique identifiers

The text of a random identifier: 32 hexadecimal digits in five groups. One digit
states that the identifier is a random one and two bits the layout; the other 122
bits are free.
-/

namespace ClusterObjects.Uid

/-- The number of bits of a random identifier that are free. -/
def freeBits : Nat := 122

/-- The random identifier with the given free bits. -/
def ofBits (bits : Nat) : String :=
  let group := fun (width below : Nat) =>
    Text.paddedHexadecimal width (bits >>> below % Nat.pow 16 width)
  let layout := 0x8000 + bits >>> 48 % 0x4000
  String.ofList (Text.join ['-'] [group 8 90, group 4 74, '4' :: group 3 62,
    Text.paddedHexadecimal 4 layout, group 12 0])

end ClusterObjects.Uid
