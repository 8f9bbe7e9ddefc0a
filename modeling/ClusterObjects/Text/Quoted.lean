import ClusterObjects.Text.Glyph
import ClusterObjects.Text.Integer

/-! # Quoted texts in messages

A message that names a text writes it between double quotes. The quote, the
backslash and the common control characters have two-character escapes, every
other character that is not shown as itself is written as its code point in
braces, and the rest stands as it is.
-/

namespace ClusterObjects.Text

/-- The code point of a character in lower-case hexadecimal between braces. -/
def codePointEscape (c : Char) : List Char :=
  ['\\', 'u', '\x7b'] ++ hexadecimal c.toNat ++ ['\x7d']

/-- How one character is written inside a quoted text. -/
def quoteChar (c : Char) : List Char :=
  if c = '"' then ['\\', '"']
  else if c = '\\' then ['\\', '\\']
  else if c = '\n' then ['\\', 'n']
  else if c = '\r' then ['\\', 'r']
  else if c = '\t' then ['\\', 't']
  else if c.toNat = 0 then ['\\', '0']
  else if isInvisible c || isExtending c then codePointEscape c
  else [c]

/-- A text between double quotes, escaped. -/
def quote (text : List Char) : List Char := '"' :: text.flatMap quoteChar ++ ['"']

/-- A text between double quotes, escaped. -/
def quoted (text : String) : String := String.ofList (quote text.toList)

end ClusterObjects.Text
