/-! # Reading bytes as UTF-8

The characters that bytes encode. Bytes that encode none are replaced: each
longest run that starts like the encoding of a character but does not complete
it, and each other stray byte, becomes one replacement character.
-/

namespace ClusterObjects.Text

/-- The character that stands for bytes that encode none. -/
def replacement : Char := '\ufffd'

/-- Whether a byte continues an encoded character. -/
def isContinuation (byte : Nat) : Bool := 0x80 ≤ byte && byte < 0xC0

/-- Whether a byte may follow the first byte of a character of three or four bytes. -/
def mayFollow (first second : Nat) : Bool :=
  if first = 0xE0 then 0xA0 ≤ second && second < 0xC0
  else if first = 0xED then 0x80 ≤ second && second < 0xA0
  else if first = 0xF0 then 0x90 ≤ second && second < 0xC0
  else if first = 0xF4 then 0x80 ≤ second && second < 0x90
  else isContinuation second

/-- The characters that bytes encode, with replacements. -/
def decodeUtf8 : List Nat → List Char
  | [] => []
  | a :: rest =>
    if a < 0x80 then Char.ofNat a :: decodeUtf8 rest
    else if 0xC2 ≤ a ∧ a < 0xE0 then
      match rest with
      | [] => [replacement]
      | b :: rest =>
        if isContinuation b then
          Char.ofNat ((a - 0xC0) * 0x40 + (b - 0x80)) :: decodeUtf8 rest
        else replacement :: decodeUtf8 (b :: rest)
    else if 0xE0 ≤ a ∧ a < 0xF0 then
      match rest with
      | [] => [replacement]
      | b :: rest =>
        if mayFollow a b then
          match rest with
          | [] => [replacement]
          | c :: rest =>
            if isContinuation c then
              Char.ofNat ((a - 0xE0) * 0x1000 + (b - 0x80) * 0x40 + (c - 0x80)) ::
                decodeUtf8 rest
            else replacement :: decodeUtf8 (c :: rest)
        else replacement :: decodeUtf8 (b :: rest)
    else if 0xF0 ≤ a ∧ a < 0xF5 then
      match rest with
      | [] => [replacement]
      | b :: rest =>
        if mayFollow a b then
          match rest with
          | [] => [replacement]
          | c :: rest =>
            if isContinuation c then
              match rest with
              | [] => [replacement]
              | d :: rest =>
                if isContinuation d then
                  Char.ofNat ((a - 0xF0) * 0x40000 + (b - 0x80) * 0x1000 + (c - 0x80) * 0x40 +
                    (d - 0x80)) :: decodeUtf8 rest
                else replacement :: decodeUtf8 (d :: rest)
            else replacement :: decodeUtf8 (c :: rest)
        else replacement :: decodeUtf8 (b :: rest)
    else replacement :: decodeUtf8 rest

end ClusterObjects.Text
