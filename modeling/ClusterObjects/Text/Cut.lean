/-! # Cutting texts at separators

A text is cut at the first occurrence of a separator (`cut`), or at every
occurrence of one character (`pieces`). Joining the pieces with the character
gives the text back.
-/

namespace ClusterObjects.Text

/-- The part before the first occurrence of a separator and the part after it. -/
def cut (separator : List Char) (text : List Char) : Option (List Char × List Char) :=
  if separator.isPrefixOf text then some ([], text.drop separator.length)
  else
    match text with
    | [] => none
    | c :: rest => (cut separator rest).map fun (before, after) => (c :: before, after)

/-- The parts of a text between the occurrences of one character; a text without
the character is its only part. -/
def pieces (separator : Char) : List Char → List (List Char)
  | [] => [[]]
  | c :: rest =>
    if c = separator then [] :: pieces separator rest
    else
      match pieces separator rest with
      | [] => [[c]]
      | piece :: more => (c :: piece) :: more

/-- The given texts with a separator between neighbours. -/
def join (separator : List Char) : List (List Char) → List Char
  | [] => []
  | [piece] => piece
  | piece :: more => piece ++ separator ++ join separator more

/-- The text without an ending, when it has that ending. -/
def dropSuffix? (ending text : List Char) : Option (List Char) :=
  if ending.isSuffixOf text then some (text.take (text.length - ending.length)) else none

/-- Whether one text occurs within another. -/
def occursIn (part text : List Char) : Bool := (cut part text).isSome

theorem pieces_ne_nil (separator : Char) (text : List Char) : pieces separator text ≠ [] := by
  induction text with
  | nil => simp [pieces]
  | cons c rest ih =>
    simp only [pieces]
    split
    · simp
    · split <;> simp

/-- Nothing is lost: the pieces joined by their separator are the text. -/
theorem join_pieces (separator : Char) (text : List Char) :
    join [separator] (pieces separator text) = text := by
  induction text with
  | nil => rfl
  | cons c rest ih =>
    simp only [pieces]
    split
    next h =>
      subst h
      cases hp : pieces c rest with
      | nil => exact absurd hp (pieces_ne_nil c rest)
      | cons piece more =>
        rw [hp] at ih
        simp [join, ih]
    next =>
      cases hp : pieces separator rest with
      | nil => exact absurd hp (pieces_ne_nil separator rest)
      | cons piece more =>
        rw [hp] at ih
        cases more with
        | nil => simp only [join] at ih ⊢; rw [ih]
        | cons next more => simp only [join, List.cons_append] at ih ⊢; rw [ih]

/-- No piece holds the separator. -/
theorem not_mem_of_mem_pieces {separator : Char} {text piece : List Char}
    (h : piece ∈ pieces separator text) : separator ∉ piece := by
  induction text generalizing piece with
  | nil =>
    simp only [pieces, List.mem_singleton] at h
    simp [h]
  | cons c rest ih =>
    simp only [pieces] at h
    split at h
    next =>
      rcases List.mem_cons.mp h with rfl | h
      · simp
      · exact ih h
    next hc =>
      cases hp : pieces separator rest with
      | nil => exact absurd hp (pieces_ne_nil separator rest)
      | cons first more =>
        rw [hp] at h
        have hfirst : separator ∉ first := ih (by rw [hp]; exact List.mem_cons_self)
        rcases List.mem_cons.mp h with rfl | h
        · simp only [List.mem_cons, not_or]
          exact ⟨fun heq => hc heq.symm, hfirst⟩
        · exact ih (by rw [hp]; exact List.mem_cons_of_mem _ h)

/-- A text that is its only piece does not hold the separator. -/
theorem not_mem_of_pieces_eq_singleton {separator : Char} {text piece : List Char}
    (h : pieces separator text = [piece]) : separator ∉ text := by
  have hwhole := join_pieces separator text
  rw [h, join] at hwhole
  rw [← hwhole]
  exact not_mem_of_mem_pieces (h ▸ List.mem_singleton_self piece)

theorem pieces_of_not_mem {separator : Char} {text : List Char} (h : separator ∉ text) :
    pieces separator text = [text] := by
  induction text with
  | nil => rfl
  | cons c rest ih =>
    rw [List.mem_cons, not_or] at h
    rw [pieces, if_neg (Ne.symm h.1), ih h.2]

/-- Two texts with a separator between them are cut into the pieces of the one and then those of
the other. -/
theorem pieces_append (separator : Char) (front back : List Char) :
    pieces separator (front ++ separator :: back) =
      pieces separator front ++ pieces separator back := by
  induction front with
  | nil => simp [pieces]
  | cons c front ih =>
    rw [List.cons_append, pieces, pieces, ih]
    split
    · rfl
    · cases hp : pieces separator front with
      | nil => exact absurd hp (pieces_ne_nil separator front)
      | cons piece more => rfl

/-- The pieces of joined texts are those of the one text after those of the other. -/
theorem pieces_join_eq_flatMap {separator : Char} {parts : List (List Char)} (hne : parts ≠ []) :
    pieces separator (join [separator] parts) = parts.flatMap (pieces separator) := by
  induction parts with
  | nil => contradiction
  | cons part more ih =>
    cases more with
    | nil => rw [join, List.flatMap_singleton]
    | cons next more =>
      rw [join, List.append_assoc, List.singleton_append, pieces_append,
        ih (List.cons_ne_nil next more)]
      · rfl
      · exact List.cons_ne_nil next more

/-- Joined texts hold what one of them or the separator holds. -/
theorem mem_of_mem_join {c : Char} {separator : List Char} {parts : List (List Char)}
    (h : c ∈ join separator parts) : c ∈ separator ∨ ∃ part ∈ parts, c ∈ part := by
  induction parts with
  | nil => contradiction
  | cons part more ih =>
    cases more with
    | nil => exact Or.inr ⟨part, List.mem_cons_self, h⟩
    | cons next more =>
      rcases List.mem_append.mp h with h | h
      · rcases List.mem_append.mp h with h | h
        · exact Or.inr ⟨part, List.mem_cons_self, h⟩
        · exact Or.inl h
      · exact (ih h).imp_right fun ⟨found, hfound, hc⟩ =>
          ⟨found, List.mem_cons_of_mem _ hfound, hc⟩

/-- Texts without the separator are the pieces of what joins them. -/
theorem pieces_join {separator : Char} {parts : List (List Char)} (hne : parts ≠ [])
    (h : ∀ part ∈ parts, separator ∉ part) :
    pieces separator (join [separator] parts) = parts := by
  rw [pieces_join_eq_flatMap hne]
  clear hne
  induction parts with
  | nil => rfl
  | cons part more ih =>
    obtain ⟨hpart, hmore⟩ := List.forall_mem_cons.mp h
    rw [List.flatMap_cons, pieces_of_not_mem hpart, ih hmore]
    rfl

/-- The first piece is what stands in front of the first separator. -/
theorem exists_pieces_eq_cons (separator : Char) (text : List Char) :
    ∃ more, pieces separator text = text.takeWhile (· != separator) :: more := by
  induction text with
  | nil => exact ⟨[], rfl⟩
  | cons c rest ih =>
    obtain ⟨more, hmore⟩ := ih
    rw [pieces, hmore]
    by_cases hc : c = separator
    · exact ⟨List.takeWhile (· != separator) rest :: more, by simp [hc]⟩
    · exact ⟨more, by simp [hc]⟩

/-- The parts of a cut and the separator between them are the text. -/
theorem eq_append_of_cut {separator text before after : List Char}
    (h : cut separator text = some (before, after)) : text = before ++ separator ++ after := by
  induction text generalizing before with
  | nil =>
    unfold cut at h
    split at h
    next hprefix =>
      obtain ⟨rfl, rfl⟩ := Prod.mk.inj (Option.some.inj h)
      have hnil : separator = [] := List.prefix_nil.mp (List.isPrefixOf_iff_prefix.mp hprefix)
      simp [hnil]
    next => contradiction
  | cons c rest ih =>
    unfold cut at h
    split at h
    next hprefix =>
      obtain ⟨rfl, rfl⟩ := Prod.mk.inj (Option.some.inj h)
      obtain ⟨tail, htail⟩ := List.isPrefixOf_iff_prefix.mp hprefix
      simp [← htail]
    next =>
      obtain ⟨⟨front, back⟩, hcut, heq⟩ := Option.map_eq_some_iff.mp h
      obtain ⟨rfl, rfl⟩ := Prod.mk.inj heq
      rw [ih hcut]
      rfl

/-- A text is cut at a single character exactly at its first occurrence. -/
theorem cut_singleton_eq_some_iff {c : Char} {text before after : List Char} :
    cut [c] text = some (before, after) ↔ text = before ++ c :: after ∧ c ∉ before := by
  constructor
  · intro h
    refine ⟨by simpa using eq_append_of_cut h, ?_⟩
    induction text generalizing before with
    | nil => simp [cut] at h
    | cons d rest ih =>
      unfold cut at h
      split at h
      next hprefix =>
        obtain ⟨rfl, rfl⟩ := Prod.mk.inj (Option.some.inj h)
        simp
      next hprefix =>
        obtain ⟨⟨front, back⟩, hcut, heq⟩ := Option.map_eq_some_iff.mp h
        obtain ⟨rfl, rfl⟩ := Prod.mk.inj heq
        have hne : c ≠ d := by simpa using hprefix
        simp [hne, ih hcut]
  · rintro ⟨rfl, h⟩
    induction before with
    | nil => simp [cut]
    | cons d rest ih =>
      simp only [List.mem_cons, not_or] at h
      simp [cut, h.1, ih h.2]

/-- A text is not cut at a character that it does not hold. -/
theorem cut_singleton_eq_none_iff {c : Char} {text : List Char} :
    cut [c] text = none ↔ c ∉ text := by
  induction text with
  | nil => simp [cut]
  | cons d rest ih =>
    by_cases h : c = d
    · simp [cut, h]
    · simp [cut, h, ih]

/-- A text is not cut at a separator with a character that it does not hold. -/
theorem cut_eq_none_of_not_mem {c : Char} {separator text : List Char} (hc : c ∈ separator)
    (htext : c ∉ text) : cut separator text = none := by
  cases hcut : cut separator text with
  | none => rfl
  | some parts =>
    rw [eq_append_of_cut hcut] at htext
    simp [hc] at htext

/-- A text is cut where its separator stands if the separator cannot start before. -/
theorem cut_append_cons {c : Char} {front : List Char} (hfront : c ∉ front)
    (more back : List Char) :
    cut (c :: more) (front ++ c :: (more ++ back)) = some (front, back) := by
  induction front with
  | nil => simp [cut]
  | cons d front ih =>
    rw [List.mem_cons, not_or] at hfront
    rw [List.cons_append, cut, ih hfront.2]
    simp [hfront.1]

/-- A character that stands once in a text does not stand there doubled. -/
theorem cut_doubled_eq_none {c : Char} {front back : List Char} (hfront : c ∉ front)
    (hback : c ∉ back) : cut [c, c] (front ++ c :: back) = none := by
  cases hcut : cut [c, c] (front ++ c :: back) with
  | none => rfl
  | some parts =>
    have hcount := congrArg (List.count c) (eq_append_of_cut hcut)
    simp only [List.count_append, List.count_cons_self, List.count_eq_zero_of_not_mem hfront,
      List.count_eq_zero_of_not_mem hback, List.count_nil] at hcount
    omega

/-- An ending is dropped exactly from the texts that end in it. -/
theorem dropSuffix?_eq_some_iff {ending text stem : List Char} :
    dropSuffix? ending text = some stem ↔ text = stem ++ ending := by
  unfold dropSuffix?
  split
  next h =>
    obtain ⟨front, rfl⟩ := List.isSuffixOf_iff_suffix.mp h
    simp
  next h =>
    constructor
    · intro hnone
      contradiction
    · rintro rfl
      exact absurd (List.isSuffixOf_iff_suffix.mpr (List.suffix_append stem ending)) h

end ClusterObjects.Text
