import ClusterObjects.Text.Integer
import Mathlib.Data.List.Induction

/-! # Texts that are read as numbers

A text is read as a number if it is the digits of the number after any zeros, and as a word if
moreover a word holds the number; one plus sign may stand in front.
-/

namespace ClusterObjects.Text

variable {c : Char} {n d : Nat} {text : List Char}

/-- The text writes a number: its decimal digits after any number of zeros, and after a plus sign
or none. -/
inductive Writes (n : Nat) : List Char → Prop
  | plain (zeros : Nat) : Writes n (List.replicate zeros '0' ++ decimal n)
  | signed (zeros : Nat) : Writes n ('+' :: (List.replicate zeros '0' ++ decimal n))

/-- A character with a value is the digit of that value. -/
theorem digit?_eq_some (h : digit? c = some d) : d < 10 ∧ c = Nat.digitChar d := by
  unfold digit? at h
  split at h
  next hdigit =>
    simp only [Char.isDigit, Bool.and_eq_true, decide_eq_true_eq, ge_iff_le,
      UInt32.le_iff_toNat_le] at hdigit
    have hlow : 48 ≤ c.toNat := hdigit.1
    have hhigh : c.toNat ≤ 57 := hdigit.2
    have hvalue : c.toNat - 48 = d := Option.some.inj h
    have hdigits : ∀ d : Fin 10, Char.ofNat (d + 48) = Nat.digitChar d := by decide
    have hcode : c.toNat = d + 48 := by omega
    refine ⟨by omega, ?_⟩
    rw [← Char.ofNat_toNat c, hcode]
    exact hdigits ⟨d, by omega⟩
  next => contradiction

theorem digitsFrom_replicate (zeros : Nat) : digitsFrom 0 (List.replicate zeros '0') = some 0 := by
  induction zeros with
  | zero => rfl
  | succ zeros ih => exact ih

/-- One more digit in front of the unit makes the number ten times as large. -/
theorem decimal_append {m : Nat} (hm : m ≠ 0) (hd : d < 10) :
    decimal (m * 10 + d) = decimal m ++ [Nat.digitChar d] := by
  have hquotient : (m * 10 + d) / 10 = m := by omega
  have hremainder : (m * 10 + d) % 10 = d := by omega
  unfold decimal
  rw [Nat.toDigits_of_base_le (by decide) (by omega), hquotient, hremainder]

/-- A run of digits that is read as a number is the digits of the number after zeros. -/
theorem exists_zeros_of_digitsFrom {front : List Char}
    (h : digitsFrom 0 (front ++ [c]) = some n) :
    ∃ zeros, front ++ [c] = List.replicate zeros '0' ++ decimal n := by
  induction front using List.reverseRecOn generalizing c n with
  | nil =>
    simp only [List.nil_append, digitsFrom] at h
    split at h
    next d hdigit =>
      obtain ⟨hd, rfl⟩ := digit?_eq_some hdigit
      obtain rfl : d = n := by simpa using h
      exact ⟨0, by rw [decimal, Nat.toDigits_of_lt_base hd]; rfl⟩
    next => contradiction
  | append_singleton front last ih =>
    rw [digitsFrom_append] at h
    obtain ⟨m, hm, hunit⟩ := Option.bind_eq_some_iff.mp h
    simp only [digitsFrom] at hunit
    split at hunit
    next d hdigit =>
      obtain ⟨hd, rfl⟩ := digit?_eq_some hdigit
      obtain rfl := Option.some.inj hunit
      obtain ⟨zeros, hzeros⟩ := ih hm
      rw [hzeros]
      -- The digits read so far go on to be those of the number, unless they are zeros only.
      by_cases hzero : m = 0
      · subst hzero
        refine ⟨zeros + 1, ?_⟩
        rw [Nat.zero_mul, Nat.zero_add, List.replicate_succ', decimal, decimal,
          Nat.toDigits_of_lt_base hd]
        rfl
      · exact ⟨zeros, by rw [decimal_append hzero hd, List.append_assoc]⟩
    next => contradiction

theorem digits?_eq_some_iff :
    digits? text = some n ↔ ∃ zeros, text = List.replicate zeros '0' ++ decimal n := by
  constructor
  · intro h
    induction text using List.reverseRecOn with
    | nil => contradiction
    | append_singleton front last _ =>
      refine exists_zeros_of_digitsFrom ?_
      rw [← h]
      cases front <;> rfl
  · rintro ⟨zeros, rfl⟩
    have hdigits := digits?_decimal n
    have hread : digitsFrom 0 (List.replicate zeros '0' ++ decimal n) = some n := by
      rw [digitsFrom_append, digitsFrom_replicate, Option.bind_some, ← hdigits]
      cases hdecimal : decimal n with
      | nil => exact absurd hdecimal Nat.toDigits_ne_nil
      | cons => rfl
    rw [← hread]
    cases hall : List.replicate zeros '0' ++ decimal n with
    | nil => exact absurd (List.append_eq_nil_iff.mp hall).2 Nat.toDigits_ne_nil
    | cons => rfl

/-! ## Words -/

theorem word?_plus (rest : List Char) :
    word? ('+' :: rest) = (digits? rest).filter fun n => n < wordBound := by
  cases hdigits : digits? rest <;> simp [word?, hdigits, Option.filter_some]

theorem word?_of_ne (h : ∀ rest, text ≠ '+' :: rest) :
    word? text = (digits? text).filter fun n => n < wordBound := by
  unfold word?
  split
  next rest => exact absurd rfl (h rest)
  next => cases hdigits : digits? text <;> simp [hdigits, Option.filter_some]

/-- Zeros and digits do not start with the sign. -/
theorem zeros_append_decimal_ne (zeros : Nat) (rest : List Char) :
    List.replicate zeros '0' ++ decimal n ≠ '+' :: rest := by
  intro h
  cases zeros with
  | zero => exact decimal_ne_cons (by decide) rest h
  | succ zeros => exact absurd (List.cons.inj h).1 (by decide)

theorem writes_plus_iff {rest : List Char} :
    Writes n ('+' :: rest) ↔ ∃ zeros, rest = List.replicate zeros '0' ++ decimal n := by
  constructor
  · intro h
    generalize htext : '+' :: rest = text at h
    cases h with
    | plain zeros => exact absurd htext.symm (zeros_append_decimal_ne zeros rest)
    | signed zeros => exact ⟨zeros, (List.cons.inj htext).2⟩
  · rintro ⟨zeros, rfl⟩
    exact .signed zeros

theorem writes_iff_of_ne (h : ∀ rest, text ≠ '+' :: rest) :
    Writes n text ↔ ∃ zeros, text = List.replicate zeros '0' ++ decimal n := by
  constructor
  · intro hwrites
    cases hwrites with
    | plain zeros => exact ⟨zeros, rfl⟩
    | signed zeros => exact absurd rfl (h _)
  · rintro ⟨zeros, rfl⟩
    exact .plain zeros

/-- A text is read as a word exactly if it writes a number that a word holds. -/
theorem word?_eq_some_iff : word? text = some n ↔ n < wordBound ∧ Writes n text := by
  by_cases hsign : ∃ rest, text = '+' :: rest
  · obtain ⟨rest, rfl⟩ := hsign
    rw [word?_plus, Option.filter_eq_some_iff, digits?_eq_some_iff, decide_eq_true_iff,
      writes_plus_iff, and_comm]
  · have hplain : ∀ rest, text ≠ '+' :: rest := fun rest heq => hsign ⟨rest, heq⟩
    rw [word?_of_ne hplain, Option.filter_eq_some_iff, digits?_eq_some_iff, decide_eq_true_iff,
      writes_iff_of_ne hplain, and_comm]

end ClusterObjects.Text
