/-! # Decimal integers

Reading decimal digits, with and without a sign, within the ranges of 64-bit
words, and writing them. A sign alone, an empty text and any other character
are refused.
-/

namespace ClusterObjects.Text

/-- The value of a decimal digit. -/
def digit? (c : Char) : Option Nat :=
  if c.isDigit then some (c.toNat - '0'.toNat) else none

/-- The number that a nonempty run of decimal digits writes, continued from the
number already read. -/
def digitsFrom (read : Nat) : List Char → Option Nat
  | [] => some read
  | c :: rest =>
    match digit? c with
    | some d => digitsFrom (read * 10 + d) rest
    | none => none

/-- The number that a nonempty text of decimal digits writes. -/
def digits? : List Char → Option Nat
  | [] => none
  | text => digitsFrom 0 text

/-- The least number that a 64-bit word cannot hold. -/
def wordBound : Nat := 0x10000000000000000

/-- The least number that a signed 64-bit word cannot hold; its negative can be held. -/
def signedBound : Nat := 0x8000000000000000

/-- An unsigned 64-bit number: digits, perhaps after one plus sign. -/
def word? (text : List Char) : Option Nat :=
  let digits := match text with
    | '+' :: rest => rest
    | _ => text
  match digits? digits with
  | some n => if n < wordBound then some n else none
  | none => none

/-- A signed 64-bit number: digits, perhaps after one sign. -/
def integer? (text : List Char) : Option Int :=
  match text with
  | '-' :: rest =>
    match digits? rest with
    | some n => if n ≤ signedBound then some (-(n : Int)) else none
    | none => none
  | '+' :: rest =>
    match digits? rest with
    | some n => if n < signedBound then some (n : Int) else none
    | none => none
  | _ =>
    match digits? text with
    | some n => if n < signedBound then some (n : Int) else none
    | none => none

/-- The decimal digits of a number, most significant first. -/
def decimal (n : Nat) : List Char := Nat.toDigits 10 n

/-- The decimal digits of a number after a minus sign if it is negative. -/
def signedDecimal : Int → List Char
  | .ofNat n => decimal n
  | .negSucc n => '-' :: decimal (n + 1)

/-- Digits padded with zeros on the left to at least a given width. -/
def zeroPadded (width : Nat) (digits : List Char) : List Char :=
  List.replicate (width - digits.length) '0' ++ digits

/-- Decimal digits padded with zeros on the left to at least a given width. -/
def padded (width n : Nat) : List Char := zeroPadded width (decimal n)

/-- A digit of the lower-case hexadecimal notation. -/
def hexDigit (n : Nat) : Char := Nat.digitChar (n % 16)

/-- Lower-case hexadecimal digits, most significant first. -/
def hexadecimal (n : Nat) : List Char := Nat.toDigits 16 n

/-- Lower-case hexadecimal digits padded with zeros on the left to at least a given width. -/
def paddedHexadecimal (width n : Nat) : List Char := zeroPadded width (hexadecimal n)

/-- The value of a hexadecimal digit in either case. -/
def hexDigit? (c : Char) : Option Nat :=
  if c.isDigit then some (c.toNat - '0'.toNat)
  else if 'a' ≤ c ∧ c ≤ 'f' then some (c.toNat - 'a'.toNat + 10)
  else if 'A' ≤ c ∧ c ≤ 'F' then some (c.toNat - 'A'.toNat + 10)
  else none

/-- A digit is read as its value. -/
theorem digit?_digitChar {n : Nat} (h : n < 10) : digit? (Nat.digitChar n) = some n := by
  have hall : ∀ n : Fin 10, digit? (Nat.digitChar n) = some n.val := by decide
  exact hall ⟨n, h⟩

/-- Digits are read one run after another. -/
theorem digitsFrom_append (front back : List Char) (read : Nat) :
    digitsFrom read (front ++ back) = (digitsFrom read front).bind (digitsFrom · back) := by
  induction front generalizing read with
  | nil => rfl
  | cons c rest ih =>
    simp only [List.cons_append, digitsFrom]
    cases digit? c with
    | none => rfl
    | some d => exact ih _

/-- The digits of a number are read as that number. -/
theorem digits?_decimal (n : Nat) : digits? (decimal n) = some n := by
  have hread : ∀ n, digitsFrom 0 (decimal n) = some n := by
    intro n
    induction n using Nat.strongRecOn with
    | _ n ih =>
      unfold decimal at ih ⊢
      by_cases h : n < 10
      · rw [Nat.toDigits_of_lt_base h]
        simp [digitsFrom, digit?_digitChar h]
      · rw [Nat.toDigits_of_base_le (by decide) (by omega), digitsFrom_append,
          ih (n / 10) (by omega)]
        simp [digitsFrom, digit?_digitChar (Nat.mod_lt n (by decide : 0 < 10))]
        omega
  have hne : decimal n ≠ [] := Nat.toDigits_ne_nil
  cases hd : decimal n with
  | nil => exact absurd hd hne
  | cons c rest =>
    rw [← hread n, hd]
    rfl

/-- Different numbers have different digits. -/
theorem decimal_injective {m n : Nat} (h : decimal m = decimal n) : m = n := by
  have hm := digits?_decimal m
  rw [h, digits?_decimal n] at hm
  exact (Option.some.inj hm).symm

/-- The digits of a number are digits. -/
theorem isDigit_of_mem_decimal {n : Nat} {c : Char} (h : c ∈ decimal n) : c.isDigit = true :=
  Nat.isDigit_of_mem_toDigits (by decide) (by decide) h

/-- No number is written with anything but a digit in front. -/
theorem decimal_ne_cons {n : Nat} {c : Char} (hc : c.isDigit = false) (rest : List Char) :
    decimal n ≠ c :: rest := by
  intro h
  have hdigit := isDigit_of_mem_decimal (n := n) (c := c) (by rw [h]; exact List.mem_cons_self)
  rw [hc] at hdigit
  contradiction

/-- The text of an integer has digits and a minus sign at most. -/
theorem isDigit_of_mem_signedDecimal {n : Int} {c : Char} (h : c ∈ signedDecimal n) :
    c.isDigit = true ∨ c = '-' := by
  cases n with
  | ofNat n => exact Or.inl (isDigit_of_mem_decimal h)
  | negSucc n =>
    rcases List.mem_cons.mp h with rfl | h
    · exact Or.inr rfl
    · exact Or.inl (isDigit_of_mem_decimal h)

/-- The digits of a number that a word can hold are read as that word. -/
theorem word?_decimal {n : Nat} (h : n < wordBound) : word? (decimal n) = some n := by
  unfold word?
  split
  next digits heq => exact absurd heq (decimal_ne_cons (by decide) _)
  next => simp [digits?_decimal, h]

/-- The text of an integer that a signed word can hold is read as that integer. -/
theorem integer?_signedDecimal {n : Int} (hlow : -signedBound ≤ n) (hhigh : n < signedBound) :
    integer? (signedDecimal n) = some n := by
  cases n with
  | ofNat n =>
    unfold signedDecimal integer?
    split
    next heq => exact absurd heq (decimal_ne_cons (by decide) _)
    next heq => exact absurd heq (decimal_ne_cons (by decide) _)
    next =>
      have hbound : n < signedBound := Int.ofNat_lt.mp hhigh
      simp [digits?_decimal, hbound]
  | negSucc n =>
    unfold signedDecimal integer?
    simp only [digits?_decimal]
    rw [if_pos (by omega)]
    rfl

end ClusterObjects.Text
