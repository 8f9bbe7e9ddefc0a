import ClusterObjects.Text.Base64
import ClusterObjects.Text.Cut
import ClusterObjects.Text.Utf8

/-! # Form-encoded pairs

The key and value pairs of a query string: pairs stand between ampersands and
are cut at their first equals sign, a plus sign is a space, and a percent sign
with two hexadecimal digits is a byte. A percent sign without them stands for
itself.
-/

namespace ClusterObjects.Text

/-- The byte that two hexadecimal digits at the start of a text stand for. -/
def escapedByte? : List Nat → Option Nat
  | high :: low :: _ =>
    match hexDigit? (Char.ofNat high), hexDigit? (Char.ofNat low) with
    | some high, some low => some (high * 16 + low)
    | _, _ => none
  | _ => none

/-- The bytes that a form-encoded text stands for, after skipping the digits of an
escape that has been read. -/
def unescapeForm : Nat → List Nat → List Nat
  | _, [] => []
  | skip + 1, _ :: rest => unescapeForm skip rest
  | 0, byte :: rest =>
    if byte = 0x2B then 0x20 :: unescapeForm 0 rest
    else if byte = 0x25 then
      match escapedByte? rest with
      | some escaped => escaped :: unescapeForm 2 rest
      | none => byte :: unescapeForm 0 rest
    else byte :: unescapeForm 0 rest

/-- The text that a form-encoded text stands for. -/
def decodeForm (text : List Char) : String :=
  String.ofList (decodeUtf8 (unescapeForm 0 (utf8Bytes text)))

/-- The pairs of a query string; empty pieces are skipped. -/
def formPairs (text : List Char) : List (String × String) :=
  ((pieces '&' text).filter fun piece => !piece.isEmpty).map fun piece =>
    match cut ['='] piece with
    | some (key, value) => (decodeForm key, decodeForm value)
    | none => (decodeForm piece, "")

end ClusterObjects.Text
