/-! # White space

The characters that Unicode counts as white space, and the removal of such
characters from the two ends of a text.
-/

namespace ClusterObjects.Text

/-- Unicode white space: the ASCII blanks and line ends, the next-line mark, the
no-break space and the wider and narrower spaces of the general punctuation. -/
def isBlank (c : Char) : Bool :=
  let n := c.toNat
  (9 ≤ n && n ≤ 13) || n == 0x20 || n == 0x85 || n == 0xA0 || n == 0x1680 ||
    (0x2000 ≤ n && n ≤ 0x200A) || n == 0x2028 || n == 0x2029 || n == 0x202F ||
    n == 0x205F || n == 0x3000

/-- A text without the white space at its start. -/
def trimStart (text : List Char) : List Char := text.dropWhile isBlank

/-- A text without the white space at its end. -/
def trimEnd (text : List Char) : List Char := (text.reverse.dropWhile isBlank).reverse

/-- A text without the white space at either end. -/
def trim (text : List Char) : List Char := trimEnd (trimStart text)

theorem isBlank_space : isBlank ' ' = true := by decide

/-- No digit is white space. -/
theorem isBlank_of_isDigit {c : Char} (h : c.isDigit = true) : isBlank c = false := by
  simp only [Char.isDigit, Bool.and_eq_true, decide_eq_true_eq, ge_iff_le,
    UInt32.le_iff_toNat_le] at h
  have hlow : 48 ≤ c.toNat := h.1
  have hhigh : c.toNat ≤ 57 := h.2
  simp only [isBlank, Bool.or_eq_false_iff, Bool.and_eq_false_iff, decide_eq_false_iff_not,
    beq_eq_false_iff_ne]
  omega

theorem trimStart_cons {c : Char} (h : isBlank c = false) (rest : List Char) :
    trimStart (c :: rest) = c :: rest := by
  rw [trimStart, List.dropWhile_cons, if_neg (by simp [h])]

theorem trimStart_eq_self {text : List Char} (h : ∀ c ∈ text.head?, isBlank c = false) :
    trimStart text = text := by
  cases text with
  | nil => rfl
  | cons c rest => exact trimStart_cons (h c rfl) rest

theorem trimStart_append_cons {c : Char} (hc : isBlank c = false) (front rest : List Char) :
    trimStart (front ++ c :: rest) = trimStart front ++ c :: rest := by
  unfold trimStart
  rw [List.dropWhile_append]
  split
  next hfront =>
    rw [List.isEmpty_iff.mp hfront]
    exact trimStart_cons hc rest
  next => rfl

theorem trimEnd_reverse (text : List Char) : trimEnd text.reverse = (trimStart text).reverse := by
  rw [trimEnd, List.reverse_reverse, trimStart]

theorem trimEnd_append_cons {c : Char} (hc : isBlank c = false) (front rest : List Char) :
    trimEnd (front ++ c :: rest) = front ++ c :: trimEnd rest := by
  have hreverse : front ++ c :: rest = (rest.reverse ++ c :: front.reverse).reverse := by simp
  rw [hreverse, trimEnd_reverse, trimStart_append_cons hc, ← List.reverse_reverse rest,
    trimEnd_reverse]
  simp

/-- What stands on both sides of a character that is not white space is trimmed on its own. -/
theorem trim_append_cons {c : Char} (hc : isBlank c = false) (front rest : List Char) :
    trim (front ++ c :: rest) = trimStart front ++ c :: trimEnd rest := by
  rw [trim, trimStart_append_cons hc, trimEnd_append_cons hc]

theorem mem_of_mem_trim {c : Char} {text : List Char} (h : c ∈ trim text) : c ∈ text := by
  rw [trim, trimEnd, List.mem_reverse] at h
  have hstart := (List.dropWhile_sublist isBlank).subset h
  rw [List.mem_reverse] at hstart
  exact (List.dropWhile_sublist isBlank).subset hstart

/-- A text that neither starts nor ends with white space is left as it is. -/
theorem trim_eq_self {text : List Char} (hfirst : ∀ c ∈ text.head?, isBlank c = false)
    (hlast : ∀ c ∈ text.getLast?, isBlank c = false) : trim text = text := by
  have hend := trimEnd_reverse text.reverse
  rw [List.reverse_reverse, trimStart_eq_self (by rwa [List.head?_reverse]),
    List.reverse_reverse] at hend
  rw [trim, trimStart_eq_self hfirst, hend]

end ClusterObjects.Text
