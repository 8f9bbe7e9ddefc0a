import ClusterObjects.Proofs.Results
import ClusterObjects.Time.Rfc3339
import Mathlib.Algebra.Group.Nat.Defs

/-! # Written timestamps read back

A timestamp that is read is an instant of the calendar, and an instant of the
calendar, once written, is read as the same instant with its fraction of a
second cut off. Writing what has been read is therefore a canonical form.
-/

namespace ClusterObjects

/-! ## Instants of the calendar -/

/-- The date exists and the clock time is one of that day, a leap second included. -/
structure Instant.Valid (t : Instant) : Prop where
  date : t.date.isValid = true
  hour : t.hour < 24
  minute : t.minute < 60
  second : t.second < 60
  leap : 1000000000 ≤ t.nanos → t.second = 59

/-! ## Digits -/

namespace Text

theorem digitsFrom_zeros (count : Nat) (digits : List Char) :
    digitsFrom 0 (List.replicate count '0' ++ digits) = digitsFrom 0 digits := by
  induction count with
  | zero => rfl
  | succ count ih => exact ih

theorem digitsFrom_padded (width n : Nat) : digitsFrom 0 (padded width n) = some n := by
  unfold padded zeroPadded
  rw [digitsFrom_zeros]
  have hread := digits?_decimal n
  unfold digits? at hread
  split at hread
  · contradiction
  · exact hread

theorem isDigit_of_mem_padded {width n : Nat} {c : Char} (h : c ∈ padded width n) :
    c.isDigit = true := by
  rcases List.mem_append.mp h with h | h
  · rw [(List.mem_replicate.mp h).2]
    rfl
  · exact isDigit_of_mem_decimal h

theorem length_padded {width n : Nat} (hwidth : 0 < width) (h : n < 10 ^ width) :
    (padded width n).length = width := by
  have hle : (decimal n).length ≤ width :=
    (Nat.length_toDigits_le_iff (by decide) hwidth).mpr h
  unfold padded zeroPadded
  rw [List.length_append, List.length_replicate]
  omega

theorem padded_ne_nil (width n : Nat) : padded width n ≠ [] := by
  intro h
  exact Nat.toDigits_ne_nil (List.append_eq_nil_iff.mp h).2

theorem trimStart_digits {digits : List Char} (hne : digits ≠ [])
    (h : ∀ c ∈ digits, c.isDigit = true) (rest : List Char) :
    trimStart (digits ++ rest) = digits ++ rest := by
  cases digits with
  | nil => contradiction
  | cons c digits => exact trimStart_cons (isBlank_of_isDigit (h c List.mem_cons_self)) _

end Text

namespace Rfc3339

open Text

/-! ## Reading the parts -/

theorem takeWhile_take_digits {width : Nat} {digits rest : List Char}
    (hdigits : ∀ c ∈ digits, c.isDigit = true) (hwidth : digits.length ≤ width)
    (hstop : ∀ c ∈ (rest.take (width - digits.length)).head?, c.isDigit = false) :
    ((digits ++ rest).take width).takeWhile Char.isDigit = digits := by
  rw [List.take_append, List.take_of_length_le hwidth,
    List.takeWhile_append_of_pos hdigits]
  cases hrest : rest.take (width - digits.length) with
  | nil => simp
  | cons c more =>
    rw [hrest] at hstop
    simp [hstop c rfl]

theorem readNumber_digits {width n : Nat} {digits rest : List Char} (hne : digits ≠ [])
    (hdigits : ∀ c ∈ digits, c.isDigit = true) (hread : digitsFrom 0 digits = some n)
    (hn : n < signedBound) (hwidth : digits.length ≤ width)
    (hstop : ∀ c ∈ (rest.take (width - digits.length)).head?, c.isDigit = false) :
    readNumber width (digits ++ rest) = .ok (n, rest) := by
  unfold readNumber
  rw [takeWhile_take_digits hdigits hwidth hstop]
  cases digits with
  | nil => contradiction
  | cons c more => simp [hread, hn]

theorem readField_padded {low high n : Nat} (hlow : low ≤ n) (hhigh : n ≤ high) (hn : n < 100)
    (rest : List Char) : readField low high (padded 2 n ++ rest) = .ok (n, rest) := by
  have hdigits : ∀ c ∈ padded 2 n, c.isDigit = true := fun c hc => isDigit_of_mem_padded hc
  have hlength : (padded 2 n).length = 2 := length_padded (by decide) hn
  unfold readField
  rw [trimStart_digits (padded_ne_nil 2 n) hdigits,
    readNumber_digits (padded_ne_nil 2 n) hdigits (digitsFrom_padded 2 n)
      (by unfold signedBound; omega) (by omega) (by simp [hlength])]
  simp [hlow, hhigh]

theorem readMark_self {mark : Char} (h : isBlank mark = false) (rest : List Char) :
    readMark mark (mark :: rest) = .ok rest := by
  unfold readMark
  rw [trimStart_cons h]
  simp

theorem readSigned_of_isDigit {c : Char} (h : c.isDigit = true) (rest : List Char) :
    readSigned (c :: rest) =
      (readNumber 4 (c :: rest)).map fun (n, rest) => ((n : Int), rest) := by
  unfold readSigned
  split
  next heq => rw [(List.cons.inj heq).1] at h; contradiction
  next heq => rw [(List.cons.inj heq).1] at h; contradiction
  next => rfl

theorem readNumber_padded {width n : Nat} (hn : n < signedBound) {rest : List Char}
    (hwidth : (padded 4 n).length ≤ width)
    (hstop : ∀ c ∈ (rest.take (width - (padded 4 n).length)).head?, c.isDigit = false) :
    readNumber width (padded 4 n ++ rest) = .ok (n, rest) :=
  readNumber_digits (padded_ne_nil 4 n) (fun _ hc => isDigit_of_mem_padded hc)
    (digitsFrom_padded 4 n) hn hwidth hstop

theorem readYear_text {year : Int} (hlow : Date.minYear ≤ year) (hhigh : year ≤ Date.maxYear)
    (rest : List Char) : readYear (yearText year ++ '-' :: rest) = .ok (year, '-' :: rest) := by
  unfold Date.minYear at hlow
  unfold Date.maxYear at hhigh
  have hdigits : ∀ n, ∀ c ∈ padded 4 n, c.isDigit = true := fun n c hc => isDigit_of_mem_padded hc
  -- After a sign every digit belongs to the year, up to the mark that follows.
  have hsigned : ∀ n < signedBound, readNumber (padded 4 n ++ '-' :: rest).length
      (padded 4 n ++ '-' :: rest) = .ok (n, '-' :: rest) := by
    intro n hn
    refine readNumber_padded hn (by simp) ?_
    intro c hc
    have hmark : c = '-' := by simpa using hc.symm
    rw [hmark]
    rfl
  have hread : readSigned (yearText year ++ '-' :: rest) = .ok (year, '-' :: rest) := by
    unfold yearText
    split
    next hrange =>
      obtain ⟨n, rfl⟩ := Int.eq_ofNat_of_zero_le hrange.1
      have hn : n < 10 ^ 4 := by omega
      have hlength : (padded 4 n).length = 4 := length_padded (by decide) hn
      have hnumber : readNumber 4 (padded 4 n ++ '-' :: rest) = .ok (n, '-' :: rest) :=
        readNumber_padded (by unfold signedBound; omega) (by omega) (by simp [hlength])
      rw [Int.toNat_natCast]
      cases hpadded : padded 4 n with
      | nil => exact absurd hpadded (padded_ne_nil 4 n)
      | cons c more =>
        rw [hpadded] at hnumber
        rw [List.cons_append, readSigned_of_isDigit (hdigits n c (by simp [hpadded])),
          ← List.cons_append, hnumber]
        rfl
    next hrange =>
      have hyear : year.natAbs < signedBound := by unfold signedBound; omega
      split
      next hneg =>
        have hvalue : -(year.natAbs : Int) = year := by omega
        change (readNumber (padded 4 year.natAbs ++ '-' :: rest).length
          (padded 4 year.natAbs ++ '-' :: rest)).map _ = _
        rw [hsigned year.natAbs hyear]
        exact congrArg (fun year => Except.ok (year, '-' :: rest)) hvalue
      next hneg =>
        have hvalue : (year.natAbs : Int) = year := by omega
        change (readNumber (padded 4 year.natAbs ++ '-' :: rest).length
          (padded 4 year.natAbs ++ '-' :: rest)).map _ = _
        rw [hsigned year.natAbs hyear]
        exact congrArg (fun year => Except.ok (year, '-' :: rest)) hvalue
  have hstart : trimStart (yearText year ++ '-' :: rest) = yearText year ++ '-' :: rest := by
    unfold yearText
    split
    · exact trimStart_digits (padded_ne_nil 4 _) (hdigits _) _
    · split <;> exact trimStart_cons (by decide) _
  unfold readYear
  rw [hstart, hread]
  exact if_pos (by omega)

theorem readZone_utc : readZone ['Z'] = .ok (0, []) := rfl

theorem shift_zero {hour minute : Nat} (hhour : hour < 24) (hminute : minute < 60) (date : Date) :
    shift date ((hour * 60 + minute : Nat) - 0) = (date, hour, minute) := by
  unfold shift
  rw [if_neg (by omega), if_neg (by omega)]
  congr 2 <;> omega

/-! ## The whole timestamp -/

theorem month_le_of_isValid {date : Date} (h : date.isValid = true) :
    1 ≤ date.month ∧ date.month ≤ 12 ∧ 1 ≤ date.day ∧ date.day ≤ 31 := by
  simp only [Date.isValid, Bool.and_eq_true, decide_eq_true_eq] at h
  obtain ⟨⟨⟨_, _⟩, hday⟩, hdays⟩ := h
  unfold Date.daysInMonth at hdays
  split at hdays <;> first | omega | (split at hdays <;> omega)

theorem year_le_of_isValid {date : Date} (h : date.isValid = true) :
    Date.minYear ≤ date.year ∧ date.year ≤ Date.maxYear := by
  simp only [Date.isValid, Bool.and_eq_true, decide_eq_true_eq] at h
  exact ⟨h.1.1.1, h.1.1.2⟩

/-- An instant of the calendar, once written, is read without its fraction. -/
theorem read_write {t : Instant} (h : t.Valid) : read (write t) = .ok t.truncate := by
  obtain ⟨hmonth, hmonth', hday, hday'⟩ := month_le_of_isValid h.date
  obtain ⟨hyear, hyear'⟩ := year_le_of_isValid h.date
  have hhour := h.hour
  have hminute := h.minute
  have hsecond := h.second
  have hhour' : t.hour ≤ 23 := by omega
  have hminute' : t.minute ≤ 59 := by omega
  have hwritten : (if t.nanos < 1000000000 then t.second else t.second + 1) ≤ 60 := by
    split <;> omega
  have hfraction : readFraction ['Z'] = .ok (0, ['Z']) := rfl
  have hempty : (trimStart []).isEmpty = true := rfl
  unfold read write
  rw [String.toList_ofList, writeText]
  simp only [List.append_assoc, List.cons_append]
  unfold readText
  have hmark : isBlank '-' = false := by decide
  have hcolon : isBlank ':' = false := by decide
  simp only [bind, Except.bind, readYear_text hyear hyear', readMark_self hmark,
    readField_padded hmonth hmonth' (by omega), readField_padded hday hday' (by omega),
    true_or, ↓reduceIte, readField_padded (Nat.zero_le _) hhour' (by omega),
    readMark_self hcolon, readField_padded (Nat.zero_le _) hminute' (by omega),
    readField_padded (Nat.zero_le _) hwritten (by omega), hfraction, readZone_utc, hempty,
    shift_zero hhour hminute, h.date]
  by_cases hleap : t.nanos < 1000000000
  · simp [hleap, Instant.truncate]
    omega
  · have hlast := h.leap (by omega)
    simp [hleap, hlast, Instant.truncate]

/-- Writing does not look at the fraction of a second. -/
theorem write_truncate (t : Instant) : write t.truncate = write t := by
  unfold write writeText Instant.truncate
  by_cases h : t.nanos < 1000000000
  · simp [h]
  · simp [h]

/-! ## What is read is an instant of the calendar -/

theorem le_of_readField {low high n : Nat} {text rest : List Char}
    (h : readField low high text = .ok (n, rest)) : low ≤ n ∧ n ≤ high := by
  unfold readField at h
  split at h
  · contradiction
  · split at h
    next hrange =>
      obtain ⟨rfl, _⟩ := Prod.mk.inj (Except.ok.inj h)
      exact hrange
    next => contradiction

theorem lt_of_digitsFrom {digits : List Char} {read n : Nat}
    (h : digitsFrom read digits = some n) : n < (read + 1) * 10 ^ digits.length := by
  induction digits generalizing read with
  | nil =>
    obtain rfl := Option.some.inj h
    simp
  | cons c rest ih =>
    simp only [digitsFrom] at h
    split at h
    next d hd =>
      have hdigit : d < 10 := by
        unfold digit? at hd
        split at hd
        next hc =>
          have hvalue := Option.some.inj hd
          simp only [Char.isDigit, Bool.and_eq_true, decide_eq_true_eq, ge_iff_le,
            UInt32.le_iff_toNat_le] at hc
          have hhigh : c.toNat ≤ 57 := hc.2
          have hzero : '0'.toNat = 48 := rfl
          omega
        next => contradiction
      -- Each further digit makes room for ten times as much.
      calc n < (read * 10 + d + 1) * 10 ^ rest.length := ih h
        _ ≤ ((read + 1) * 10) * 10 ^ rest.length := Nat.mul_le_mul_right _ (by omega)
        _ = (read + 1) * 10 ^ (c :: rest).length := by
          rw [List.length_cons, Nat.pow_succ, Nat.mul_assoc, Nat.mul_comm 10]
    next => contradiction

theorem lt_of_readNumber {width n : Nat} {text rest : List Char}
    (h : readNumber width text = .ok (n, rest)) :
    text.length - rest.length ≤ width ∧ n < 10 ^ (text.length - rest.length) := by
  unfold readNumber at h
  generalize hdigits : (text.take width).takeWhile Char.isDigit = digits at h
  have hlength : digits.length ≤ (text.take width).length :=
    hdigits ▸ (List.takeWhile_sublist _).length_le
  rw [List.length_take] at hlength
  dsimp only at h
  split at h
  · contradiction
  · contradiction
  next =>
    split at h
    next hbound =>
      obtain ⟨rfl, rfl⟩ := Prod.mk.inj (Except.ok.inj h)
      rw [List.length_drop, Nat.sub_sub_self (by omega)]
      refine ⟨by omega, ?_⟩
      cases hread : digitsFrom 0 digits with
      | none => exact Nat.pow_pos (by decide)
      | some n => simpa using lt_of_digitsFrom hread
    next => contradiction

theorem lt_of_readFraction {n : Nat} {text rest : List Char}
    (h : readFraction text = .ok (n, rest)) : n < 1000000000 := by
  unfold readFraction at h
  split at h
  next digits =>
    split at h
    · contradiction
    next m after hnumber =>
      obtain ⟨hplaces, hm⟩ := lt_of_readNumber hnumber
      obtain ⟨rfl, _⟩ := Prod.mk.inj (Except.ok.inj h)
      calc m * 10 ^ (9 - (digits.length - after.length))
          < 10 ^ (digits.length - after.length) * 10 ^ (9 - (digits.length - after.length)) :=
            Nat.mul_lt_mul_of_pos_right hm (Nat.pow_pos (by decide))
        _ = 10 ^ 9 := by rw [← Nat.pow_add, Nat.add_sub_cancel' hplaces]
  next =>
    obtain ⟨rfl, _⟩ := Prod.mk.inj (Except.ok.inj h)
    decide

/-- The clock time that an offset leads to is one of a day. -/
theorem shift_lt {date : Date} {clock offset : Int} (hclock : 0 ≤ clock) (hclock' : clock < 1440)
    (hoffset : offset.natAbs < 1440) :
    (shift date (clock - offset)).2.1 < 24 ∧ (shift date (clock - offset)).2.2 < 60 := by
  unfold shift
  split
  · constructor <;> dsimp only <;> omega
  · split
    · constructor <;> dsimp only <;> omega
    · constructor <;> dsimp only <;> omega

/-- What is read is an instant of the calendar. -/
theorem valid_of_read {s : String} {t : Instant} (h : read s = .ok t) : t.Valid := by
  unfold read readText at h
  obtain ⟨⟨year, rest⟩, _, h⟩ := bind_eq_ok h
  obtain ⟨rest, _, h⟩ := bind_eq_ok h
  obtain ⟨⟨month, rest⟩, _, h⟩ := bind_eq_ok h
  obtain ⟨rest, _, h⟩ := bind_eq_ok h
  obtain ⟨⟨day, rest⟩, _, h⟩ := bind_eq_ok h
  dsimp only at h
  split at h
  · contradiction
  split at h
  case isFalse => contradiction
  obtain ⟨rest, _, h⟩ := bind_eq_ok h
  obtain ⟨⟨hour, rest⟩, hhour, h⟩ := bind_eq_ok h
  obtain ⟨rest, _, h⟩ := bind_eq_ok h
  obtain ⟨⟨minute, rest⟩, hminute, h⟩ := bind_eq_ok h
  obtain ⟨rest, _, h⟩ := bind_eq_ok h
  obtain ⟨⟨second, rest⟩, hsecond, h⟩ := bind_eq_ok h
  obtain ⟨⟨nanos, rest⟩, hnanos, h⟩ := bind_eq_ok h
  obtain ⟨⟨offset, rest⟩, _, h⟩ := bind_eq_ok h
  have hhour := (le_of_readField hhour).2
  have hminute := (le_of_readField hminute).2
  have hsecond := (le_of_readField hsecond).2
  have hnanos := lt_of_readFraction hnanos
  dsimp only at h
  split at h
  · contradiction
  split at h
  · contradiction
  next hrange =>
    have hoffset : offset.natAbs < 1440 := by
      simp only [Bool.or_eq_true, decide_eq_true_eq, not_or] at hrange
      omega
    obtain ⟨hlater, hlater'⟩ :=
      @shift_lt ⟨year, month, day⟩ _ _ (Int.natCast_nonneg _)
        (by omega : ((hour * 60 + minute : Nat) : Int) < 1440) hoffset
    split at h
    · contradiction
    next hvalid =>
      have hdate :
          (shift ⟨year, month, day⟩ ((hour * 60 + minute : Nat) - offset)).1.isValid = true := by
        simpa using hvalid
      split at h
      next hleap =>
        obtain rfl := Except.ok.inj h
        exact ⟨hdate, hlater, hlater', Nat.lt_succ_self 59, fun _ => rfl⟩
      next hleap =>
        obtain rfl := Except.ok.inj h
        exact ⟨hdate, hlater, hlater', by dsimp only; omega, by dsimp only; omega⟩

end Rfc3339

end ClusterObjects
