import ClusterObjects.Text.Integer

/-! # Base64 texts

Whether a text is the canonical base64 form of some bytes: letters of the
standard alphabet, padded to a multiple of four, with no bits left over. What
is wrong with any other text is reported at the byte where it shows.
-/

namespace ClusterObjects.Text

/-- Why a text is not the base64 form of any bytes. -/
inductive Base64Fault where
  | invalidByte (offset : Nat) (byte : Nat)
  | invalidLength
  | invalidLastSymbol (offset : Nat) (byte : Nat)
  | invalidPadding
deriving DecidableEq

def Base64Fault.message : Base64Fault → String
  | .invalidByte offset byte =>
    "Invalid byte " ++ toString byte ++ ", offset " ++ toString offset ++ "."
  | .invalidLength => "Encoded text cannot have a 6-bit remainder."
  | .invalidLastSymbol offset byte =>
    "Invalid last symbol " ++ toString byte ++ ", offset " ++ toString offset ++ "."
  | .invalidPadding => "Invalid padding"

/-- The six bits that a byte of the standard alphabet stands for. -/
def sextet? (byte : Nat) : Option Nat :=
  if 65 ≤ byte ∧ byte ≤ 90 then some (byte - 65)
  else if 97 ≤ byte ∧ byte ≤ 122 then some (byte - 71)
  else if 48 ≤ byte ∧ byte ≤ 57 then some (byte + 4)
  else if byte = 43 then some 62
  else if byte = 47 then some 63
  else none

/-- What a scan over the bytes has seen: how many symbols, the last of them, and
where the padding began and how long it is. -/
structure Base64Scan where
  symbols : Nat
  last : Nat
  paddingAt : Nat
  padding : Nat

def scanBase64 (offset : Nat) (seen : Base64Scan) : List Nat → Except Base64Fault Base64Scan
  | [] => .ok seen
  | byte :: rest =>
    if byte = 61 then
      if offset % 4 < 2 then
        .error (.invalidByte (if 0 < seen.padding then seen.paddingAt else offset) byte)
      else
        let start := if seen.padding = 0 then offset else seen.paddingAt
        scanBase64 (offset + 1) { seen with paddingAt := start, padding := seen.padding + 1 } rest
    else if 0 < seen.padding then .error (.invalidByte seen.paddingAt 61)
    else
      match sextet? byte with
      | none => .error (.invalidByte offset byte)
      | some _ =>
        scanBase64 (offset + 1) { seen with symbols := seen.symbols + 1, last := byte } rest

def utf8Bytes (text : List Char) : List Nat :=
  text.flatMap fun c => (String.utf8EncodeChar c).map UInt8.toNat

/-- What keeps a text from being canonical base64, if anything does. -/
def base64Fault? (text : List Char) : Option Base64Fault :=
  let bytes := utf8Bytes text
  if bytes.length % 4 = 1 then
    match bytes.getLast? with
    | some byte =>
      if byte ≠ 61 ∧ (sextet? byte).isNone then some (.invalidByte (bytes.length - 1) byte)
      else some .invalidLength
    | none => none
  else
    match scanBase64 0 ⟨0, 0, 0, 0⟩ bytes with
    | .error fault => some fault
    | .ok seen =>
      let spare := match seen.symbols % 4 with
        | 2 => 16
        | 3 => 4
        | _ => 1
      if (seen.symbols + seen.padding) % 4 ≠ 0 then some .invalidPadding
      else if (sextet? seen.last).getD 0 % spare ≠ 0 then
        some (.invalidLastSymbol (seen.symbols - 1) seen.last)
      else none

end ClusterObjects.Text
