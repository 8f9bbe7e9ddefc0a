import ClusterObjects.Store.Error

/-! # Writing label selectors

A requirement is written with an equals sign, with two of them, with an exclamation mark in
front of one, with the key alone or with an exclamation mark in front of it, and white space
may stand around each part. The parser looks for the operators one after another and not from
left to right. As keys and values hold no part of an operator, it finds the one that was
written. A term that names a set of values is cut at its own commas; the first piece holds the
opening bracket and no operator, and is refused for it.
-/

namespace ClusterObjects

namespace Text

/-! ## White space around a text -/

variable {c : Char} {text padded : List Char}

/-- There is no white space in the text. -/
def Solid (text : List Char) : Prop := ∀ c ∈ text, isBlank c = false

theorem trimStart_of_blank (h : ∀ c ∈ text, isBlank c = true) : trimStart text = [] := by
  rw [trimStart, ← List.append_nil text, List.dropWhile_append_of_pos h, List.dropWhile_nil]

theorem Solid.trimStart_eq (h : Solid text) : trimStart text = text :=
  trimStart_eq_self fun c hc => h c (List.mem_of_mem_head? hc)

theorem Solid.reverse (h : Solid text) : Solid text.reverse :=
  fun c hc => h c (List.mem_reverse.mp hc)

/-- The text with white space around it, or with none. -/
inductive Padded (text : List Char) : List Char → Prop
  | intro {before after : List Char} (hbefore : ∀ c ∈ before, isBlank c = true)
      (hafter : ∀ c ∈ after, isBlank c = true) : Padded text (before ++ (text ++ after))

namespace Padded

theorem reverse (h : Padded text padded) : Padded text.reverse padded.reverse := by
  obtain ⟨hbefore, hafter⟩ := h
  rw [List.reverse_append, List.reverse_append, List.append_assoc]
  exact .intro (fun c hc => hafter c (List.mem_reverse.mp hc))
    fun c hc => hbefore c (List.mem_reverse.mp hc)

theorem exists_trimStart_eq (h : Padded text padded) (hsolid : Solid text) :
    ∃ after, Text.trimStart padded = text ++ after ∧ ∀ c ∈ after, isBlank c = true := by
  obtain ⟨hbefore, hafter⟩ := h
  rw [Text.trimStart, List.dropWhile_append_of_pos hbefore]
  cases text with
  | nil => exact ⟨[], trimStart_of_blank hafter, List.forall_mem_nil _⟩
  | cons c rest =>
    exact ⟨_, trimStart_cons (hsolid c List.mem_cons_self) _, hafter⟩

theorem trimStart (h : Padded text padded) (hsolid : Solid text) :
    Padded text (trimStart padded) := by
  obtain ⟨after, hstart, hafter⟩ := h.exists_trimStart_eq hsolid
  rw [hstart]
  exact .intro (List.forall_mem_nil _) hafter

theorem trimEnd (h : Padded text padded) (hsolid : Solid text) : Padded text (trimEnd padded) := by
  have hreverse := (h.reverse.trimStart hsolid.reverse).reverse
  rwa [List.reverse_reverse] at hreverse

theorem trimStart_eq_nil (h : Padded [] padded) : Text.trimStart padded = [] := by
  obtain ⟨hbefore, hafter⟩ := h
  rw [Text.trimStart, List.dropWhile_append_of_pos hbefore]
  exact trimStart_of_blank hafter

/-- Trimming takes away all that stands around the text, and nothing of the text. -/
theorem trim_eq (h : Padded text padded) (hsolid : Solid text) : trim padded = text := by
  obtain ⟨after, hstart, hafter⟩ := h.exists_trimStart_eq hsolid
  rw [trim, hstart, Text.trimEnd, List.reverse_append, List.dropWhile_append_of_pos]
  · exact (congrArg List.reverse hsolid.reverse.trimStart_eq).trans (List.reverse_reverse text)
  · intro c hc
    exact hafter c (List.mem_reverse.mp hc)

/-- The white space around a text holds no other character. -/
theorem not_mem (h : Padded text padded) (hc : isBlank c = false) (htext : c ∉ text) :
    c ∉ padded := by
  obtain ⟨hbefore, hafter⟩ := h
  have hother : ∀ blank : List Char, (∀ c ∈ blank, isBlank c = true) → c ∉ blank := by
    intro blank hblank hmem
    rw [hblank c hmem] at hc
    contradiction
  simp only [List.mem_append, not_or]
  exact ⟨hother _ hbefore, htext, hother _ hafter⟩

end Padded

end Text

namespace LabelSelector

/-! ## The grammar -/

/-- The characters that separate terms and that operators are made of. -/
def signs : List Char := [',', '=', '!']

/-- A key that a term of a selector can name. -/
structure IsKey (key : String) : Prop where
  ne_empty : key ≠ ""
  free : ∀ c ∈ key.toList, Text.isBlank c = false ∧ c ∉ signs ∧ c ≠ '('

/-- A value that a term of a selector can name, the empty one included. -/
structure IsValue (value : String) : Prop where
  free : ∀ c ∈ value.toList, Text.isBlank c = false ∧ c ∉ signs

instance (key : String) : Decidable (IsKey key) :=
  decidable_of_iff (key ≠ "" ∧
      key.toList.all (fun c => decide (Text.isBlank c = false ∧ c ∉ signs ∧ c ≠ '(')) = true)
    ⟨fun h => ⟨h.1, by simpa using h.2⟩, fun h => ⟨h.ne_empty, by simpa using h.free⟩⟩

instance (value : String) : Decidable (IsValue value) :=
  decidable_of_iff
    (value.toList.all (fun c => decide (Text.isBlank c = false ∧ c ∉ signs)) = true)
    ⟨fun h => ⟨by simpa using h⟩, fun h => by simpa using h.free⟩

/-- What stands on the two sides of an operator writes a key and a value. -/
structure Sides (key value : String) (left right : List Char) : Prop where
  isKey : IsKey key
  isValue : IsValue value
  left : Text.Padded key.toList left
  right : Text.Padded value.toList right

/-- The ways of writing a requirement as a term of a selector. -/
inductive Writes : List Char → LabelRequirement → Prop
  | equals {key value : String} {left right : List Char} (h : Sides key value left right) :
      Writes (left ++ '=' :: right) (.equals key value)
  | doubled {key value : String} {left right : List Char} (h : Sides key value left right) :
      Writes (left ++ '=' :: '=' :: right) (.equals key value)
  | notEquals {key value : String} {left right : List Char} (h : Sides key value left right) :
      Writes (left ++ '!' :: '=' :: right) (.notEquals key value)
  | present {key : String} {text : List Char} (hkey : IsKey key)
      (htext : Text.Padded key.toList text) : Writes text (.present key)
  | absent {key : String} {before text : List Char} (hkey : IsKey key)
      (hbefore : Text.Padded [] before) (htext : Text.Padded key.toList text) :
      Writes (before ++ '!' :: text) (.absent key)

/-- The terms write the requirements in order, with empty terms in between. -/
inductive Spells : List (List Char) → List LabelRequirement → Prop
  | nil : Spells [] []
  | blank {term : List Char} {terms : List (List Char)} {requirements : List LabelRequirement}
      (hterm : Text.Padded [] term) (hrest : Spells terms requirements) :
      Spells (term :: terms) requirements
  | term {term : List Char} {terms : List (List Char)} {requirement : LabelRequirement}
      {requirements : List LabelRequirement} (hterm : Writes term requirement)
      (hrest : Spells terms requirements) : Spells (term :: terms) (requirement :: requirements)

/-- What stands in front of the values when a term says that the value of a label is, or is not,
one of them. -/
inductive SetHead : List Char → Prop
  | intro {key : String} {before gap word space : List Char} (hkey : IsKey key)
      (hword : word ∈ ["in".toList, "notin".toList]) (hbefore : Text.Padded [] before)
      (hgap : Text.Padded [] gap) (hne : gap ≠ []) (hspace : Text.Padded [] space) :
      SetHead (before ++ key.toList ++ gap ++ word ++ space)

/-- A term that names a set of values writes them in brackets, with commas in between. -/
inductive NamesSet : List Char → Prop
  | intro {head after : List Char} {values : List (List Char)} (hhead : SetHead head)
      (hvalues : ∀ text ∈ values, ∃ value, IsValue value ∧ Text.Padded value.toList text)
      (hafter : Text.Padded [] after) :
      NamesSet (head ++ '(' :: (Text.join [','] values ++ ')' :: after))

/-- A text between two others, as characters. -/
def between (before text after : String) : List Char :=
  before.toList ++ (text.toList ++ after.toList)

theorem padded_between {before after : String}
    (h : (before.toList ++ after.toList).all Text.isBlank = true) (text : String) :
    Text.Padded text.toList (between before text after) := by
  rw [List.all_append, Bool.and_eq_true, List.all_eq_true, List.all_eq_true] at h
  exact .intro h.1 h.2

/-- Terms with all spellings, unevenly spaced and with empty terms in between. -/
def uneven : List (List Char) :=
  [between "\t" "app" " " ++ '=' :: between "  " "web" "", between "" "" "",
    between "" "tier" "" ++ '!' :: '=' :: between " " "" "",
    between " " "canary" "\n", between " " "" " ",
    between " " "" "" ++ '!' :: between " " "legacy" "",
    between "" "env" "" ++ '=' :: '=' :: between "" "prod" ""]

theorem spells_uneven : Spells uneven [.equals "app" "web", .notEquals "tier" "",
    .present "canary", .absent "legacy", .equals "env" "prod"] := by
  have hblank := fun {before after : String} => @padded_between before after
  refine .term (.equals ⟨?_, ?_, hblank ?_ _, hblank ?_ _⟩) <| .blank (hblank ?_ "") <|
    .term (.notEquals ⟨?_, ?_, hblank ?_ _, hblank ?_ _⟩) <| .term (.present ?_ (hblank ?_ _)) <|
    .blank (hblank ?_ "") <| .term (.absent ?_ (hblank ?_ "") (hblank ?_ _)) <|
    .term (.doubled ⟨?_, ?_, hblank ?_ _, hblank ?_ _⟩) .nil
  all_goals decide

/-- A term that names a set of environments. -/
def environments : List Char :=
  (between "" "" "" ++ "env".toList ++ between "\t" "" "" ++ "notin".toList ++
      between " " "" "") ++
    '(' :: (Text.join [','] [between " " "prod" "", between " " "dev" " "] ++
      ')' :: between "" "" "")

theorem namesSet_environments : NamesSet environments := by
  have hblank := fun {before after : String} => @padded_between before after
  have hvalues : ∀ text ∈ [between " " "prod" "", between " " "dev" " "],
      ∃ value, IsValue value ∧ Text.Padded value.toList text :=
    List.forall_mem_cons.mpr ⟨⟨"prod", by decide, hblank (by decide) _⟩,
      List.forall_mem_cons.mpr ⟨⟨"dev", by decide, hblank (by decide) _⟩, List.forall_mem_nil _⟩⟩
  refine .intro (.intro ?_ ?_ (hblank ?_ "") (hblank ?_ "") ?_ (hblank ?_ "")) hvalues
    (hblank ?_ "")
  all_goals decide

/-! ## Terms that write a requirement -/

variable {key value : String} {left right text term : List Char}

theorem IsKey.solid (h : IsKey key) : Text.Solid key.toList := fun c hc => (h.free c hc).1

theorem IsValue.solid (h : IsValue value) : Text.Solid value.toList := fun c hc => (h.free c hc).1

theorem mem_signs_iff {c : Char} : c ∈ signs ↔ c = ',' ∨ c = '=' ∨ c = '!' := by
  simp [signs]

theorem isBlank_of_mem_signs {c : Char} (hc : c ∈ signs) : Text.isBlank c = false := by
  rcases mem_signs_iff.mp hc with rfl | rfl | rfl <;> decide

theorem IsKey.not_mem (h : IsKey key) (htext : Text.Padded key.toList text) {c : Char}
    (hc : c ∈ signs) : c ∉ text :=
  htext.not_mem (isBlank_of_mem_signs hc) fun hmem => (h.free c hmem).2.1 hc

theorem IsValue.not_mem (h : IsValue value) (htext : Text.Padded value.toList text) {c : Char}
    (hc : c ∈ signs) : c ∉ text :=
  htext.not_mem (isBlank_of_mem_signs hc) fun hmem => (h.free c hmem).2 hc

theorem Sides.trimmed (h : Sides key value left right) :
    Sides key value (Text.trimStart left) (Text.trimEnd right) :=
  ⟨h.isKey, h.isValue, h.left.trimStart h.isKey.solid, h.right.trimEnd h.isValue.solid⟩

/-- The text in front of an operator names the key. -/
theorem key_eq (hkey : IsKey key) (htext : Text.Padded key.toList text) (term : List Char) :
    LabelSelector.key text term = .ok key := by
  have hne : key.toList.isEmpty = false := by
    simpa [List.isEmpty_eq_false_iff] using hkey.ne_empty
  unfold LabelSelector.key
  rw [htext.trim_eq hkey.solid]
  dsimp only
  rw [hne, String.ofList_toList]
  rfl

theorem Sides.key_eq (h : Sides key value left right) (term : List Char) :
    LabelSelector.key left term = .ok key :=
  LabelSelector.key_eq h.isKey h.left term

theorem Sides.value_eq (h : Sides key value left right) :
    String.ofList (Text.trim right) = value := by
  rw [h.right.trim_eq h.isValue.solid, String.ofList_toList]

theorem Sides.not_mem (h : Sides key value left right) {c : Char} (hc : c ∈ signs) :
    c ∉ left ∧ c ∉ right :=
  ⟨h.isKey.not_mem h.left hc, h.isValue.not_mem h.right hc⟩

theorem Sides.requirement_equals (h : Sides key value left right) :
    requirement (left ++ '=' :: right) = .ok (.equals key value) := by
  obtain ⟨hleft, hright⟩ := h.not_mem (c := '=') (by decide)
  have hmark := h.not_mem (c := '!') (by decide)
  have hunequal : Text.cut ['!', '='] (left ++ '=' :: right) = none :=
    Text.cut_eq_none_of_not_mem List.mem_cons_self (by simp [hmark])
  have hsingle : Text.cut ['='] (left ++ '=' :: right) = some (left, right) :=
    Text.cut_append_cons hleft [] right
  unfold requirement
  rw [hunequal, Text.cut_doubled_eq_none hleft hright, hsingle]
  dsimp only [Option.none_or]
  rw [h.key_eq, h.value_eq]
  rfl

theorem Sides.requirement_doubled (h : Sides key value left right) :
    requirement (left ++ '=' :: '=' :: right) = .ok (.equals key value) := by
  have hmark := h.not_mem (c := '!') (by decide)
  have hunequal : Text.cut ['!', '='] (left ++ '=' :: '=' :: right) = none :=
    Text.cut_eq_none_of_not_mem List.mem_cons_self (by simp [hmark])
  have hdoubled : Text.cut ['=', '='] (left ++ '=' :: '=' :: right) = some (left, right) :=
    Text.cut_append_cons (h.not_mem (by decide)).1 ['='] right
  unfold requirement
  rw [hunequal, hdoubled]
  dsimp only [Option.some_or]
  rw [h.key_eq, h.value_eq]
  rfl

theorem Sides.requirement_notEquals (h : Sides key value left right) :
    requirement (left ++ '!' :: '=' :: right) = .ok (.notEquals key value) := by
  have hunequal : Text.cut ['!', '='] (left ++ '!' :: '=' :: right) = some (left, right) :=
    Text.cut_append_cons (h.not_mem (by decide)).1 ['='] right
  unfold requirement
  rw [hunequal]
  dsimp only
  rw [h.key_eq, h.value_eq]
  rfl

/-- No operator of two sides is found in a term without an equals sign. -/
theorem requirement_of_marked (h : '=' ∉ text) :
    requirement ('!' :: text) = (LabelSelector.key text ('!' :: text)).map .absent := by
  have hmarked : '=' ∉ '!' :: text := by simp [h]
  unfold requirement
  rw [Text.cut_eq_none_of_not_mem (List.mem_cons_of_mem _ List.mem_cons_self) hmarked,
    Text.cut_eq_none_of_not_mem List.mem_cons_self hmarked,
    Text.cut_eq_none_of_not_mem List.mem_cons_self hmarked]
  rfl

theorem requirement_of_bare (h : '=' ∉ term) (hmark : '!' ∉ term) :
    requirement term = if term.contains ' ' || term.contains '(' then
        .error (.unsupported (String.ofList term))
      else .ok (.present (String.ofList term)) := by
  unfold requirement
  rw [Text.cut_eq_none_of_not_mem List.mem_cons_self hmark,
    Text.cut_eq_none_of_not_mem List.mem_cons_self h,
    Text.cut_eq_none_of_not_mem List.mem_cons_self h]
  dsimp only [Option.none_or]
  split
  next raw => exact absurd List.mem_cons_self hmark
  next => rfl

theorem IsKey.requirement_present (hkey : IsKey key) :
    requirement key.toList = .ok (.present key) := by
  have hother : ∀ c ∈ signs, c ∉ key.toList := fun c hc hmem => (hkey.free c hmem).2.1 hc
  have hbracket : '(' ∉ key.toList := fun hmem => (hkey.free '(' hmem).2.2 rfl
  have hspace : ' ' ∉ key.toList := fun hmem => by
    have hblank := (hkey.free ' ' hmem).1
    rw [Text.isBlank_space] at hblank
    contradiction
  rw [requirement_of_bare (hother '=' (by decide)) (hother '!' (by decide)),
    if_neg (by simp [hspace, hbracket]), String.ofList_toList]

theorem IsKey.requirement_absent (hkey : IsKey key) (htext : Text.Padded key.toList text) :
    requirement ('!' :: text) = .ok (.absent key) := by
  rw [requirement_of_marked (hkey.not_mem htext (by decide)), key_eq hkey htext]
  rfl

/-- A term is read as the requirement that it writes. -/
theorem Writes.requirement_trim {requirement : LabelRequirement} (h : Writes term requirement) :
    LabelSelector.requirement (Text.trim term) = .ok requirement := by
  cases h with
  | equals h =>
    rw [Text.trim_append_cons (by decide)]
    exact h.trimmed.requirement_equals
  | @doubled key value left right h =>
    rw [Text.trim_append_cons (by decide), ← List.nil_append ('=' :: right),
      Text.trimEnd_append_cons (by decide)]
    exact h.trimmed.requirement_doubled
  | @notEquals key value left right h =>
    rw [Text.trim_append_cons (by decide), ← List.nil_append ('=' :: right),
      Text.trimEnd_append_cons (by decide)]
    exact h.trimmed.requirement_notEquals
  | present hkey htext =>
    rw [htext.trim_eq hkey.solid]
    exact hkey.requirement_present
  | absent hkey hbefore htext =>
    rw [Text.trim_append_cons (by decide), hbefore.trimStart_eq_nil]
    exact hkey.requirement_absent (htext.trimEnd hkey.solid)

theorem Writes.trim_ne_nil {requirement : LabelRequirement} (h : Writes term requirement) :
    Text.trim term ≠ [] := by
  cases h with
  | equals | doubled | notEquals | absent =>
    rw [Text.trim_append_cons (by decide)]
    exact List.append_ne_nil_of_right_ne_nil _ (List.cons_ne_nil _ _)
  | present hkey htext =>
    rw [htext.trim_eq hkey.solid]
    exact fun hnil => hkey.ne_empty (String.toList_eq_nil_iff.mp hnil)

theorem Writes.not_mem {requirement : LabelRequirement} (h : Writes term requirement) :
    ',' ∉ term := by
  cases h with
  | equals h | doubled h | notEquals h => simp [h.not_mem (c := ',') (by decide)]
  | present hkey htext => exact hkey.not_mem htext (by decide)
  | absent hkey hbefore htext =>
    simp [hkey.not_mem htext (c := ',') (by decide),
      hbefore.not_mem (c := ',') (by decide) List.not_mem_nil]

/-! ## Selectors -/

variable {terms : List (List Char)}

/-- The terms of a selector as the parser sees them, trimmed and without the empty ones. -/
def trimmed (terms : List (List Char)) : List (List Char) :=
  (terms.map Text.trim).filter fun term => !term.isEmpty

theorem mem_trimmed_iff {term : List Char} :
    term ∈ trimmed terms ↔ term ≠ [] ∧ ∃ text ∈ terms, Text.trim text = term := by
  rw [trimmed, List.mem_filter, List.mem_map, Bool.not_eq_true', List.isEmpty_eq_false_iff]
  exact And.comm

theorem Spells.not_mem {requirements : List LabelRequirement} (h : Spells terms requirements) :
    ∀ term ∈ terms, ',' ∉ term := by
  induction h with
  | nil => exact List.forall_mem_nil _
  | blank hterm _ ih =>
    exact List.forall_mem_cons.mpr ⟨hterm.not_mem (by decide) List.not_mem_nil, ih⟩
  | term hterm _ ih => exact List.forall_mem_cons.mpr ⟨hterm.not_mem, ih⟩

theorem Spells.requirements_trimmed {requirements : List LabelRequirement}
    (h : Spells terms requirements) :
    LabelSelector.requirements (trimmed terms) = .ok requirements := by
  induction h with
  | nil => rfl
  | @blank term terms requirements hterm _ ih =>
    have hempty : Text.trim term = [] := hterm.trim_eq (List.forall_mem_nil _)
    rwa [trimmed, List.map_cons, hempty]
  | @term term terms requirement requirements hterm _ ih =>
    have hkept : trimmed (term :: terms) = Text.trim term :: trimmed terms := by
      simp [trimmed, hterm.trim_ne_nil]
    rw [hkept, LabelSelector.requirements, hterm.requirement_trim, ih]

/-- A selector is read as the requirements that its terms write. -/
theorem Spells.parse_eq {requirements : List LabelRequirement} (h : Spells terms requirements) :
    parse (String.ofList (Text.join [','] terms)) = .ok requirements := by
  by_cases hne : terms = []
  · subst hne
    cases h
    rfl
  · rw [parse, String.toList_ofList, Text.pieces_join hne h.not_mem]
    exact h.requirements_trimmed

/-! ## Terms that name a set of values -/

theorem exists_requirements_eq_error {term : List Char} {e : LabelSelectorError}
    (hterm : term ∈ terms) (h : requirement term = .error e) :
    ∃ e, requirements terms = .error e := by
  induction terms with
  | nil => contradiction
  | cons first rest ih =>
    rw [requirements]
    cases hfirst : requirement first with
    | error e => exact ⟨e, rfl⟩
    | ok found =>
      rcases List.mem_cons.mp hterm with rfl | hrest
      · rw [h] at hfirst
        contradiction
      · obtain ⟨e, he⟩ := ih hrest
        exact ⟨e, by rw [he]⟩

theorem SetHead.not_mem {head : List Char} (h : SetHead head) {c : Char} (hc : c ∈ signs) :
    c ∉ head := by
  obtain @⟨key, before, gap, word, space, hkey, hword, hbefore, hgap, -, hspace⟩ := h
  have hblank : Text.isBlank c = false := isBlank_of_mem_signs hc
  have hkeyed : c ∉ key.toList := fun hmem => (hkey.free c hmem).2.1 hc
  have hfree : c ∉ word := by
    simp only [List.mem_cons, List.not_mem_nil, or_false] at hword
    rcases hword with rfl | rfl <;> rcases mem_signs_iff.mp hc with rfl | rfl | rfl <;> decide
  simp only [List.mem_append, not_or]
  exact ⟨⟨⟨⟨hbefore.not_mem hblank List.not_mem_nil, hkeyed⟩,
    hgap.not_mem hblank List.not_mem_nil⟩, hfree⟩, hspace.not_mem hblank List.not_mem_nil⟩

/-- A term that names a set is bare: no operator is found in it. -/
theorem NamesSet.not_mem (h : NamesSet term) {c : Char} (hc : c ∈ signs) (hcomma : c ≠ ',') :
    c ∉ term := by
  obtain ⟨hhead, hvalues, hafter⟩ := h
  have hbracket : c ≠ '(' ∧ c ≠ ')' := by
    rcases mem_signs_iff.mp hc with rfl | rfl | rfl <;> decide
  simp only [List.mem_append, List.mem_cons, not_or]
  refine ⟨hhead.not_mem hc, hbracket.1, fun hmem => ?_, hbracket.2,
    hafter.not_mem (isBlank_of_mem_signs hc) List.not_mem_nil⟩
  rcases Text.mem_of_mem_join hmem with hseparator | ⟨text, htext, hin⟩
  · exact hcomma (List.mem_singleton.mp hseparator)
  · obtain ⟨value, hvalue, hpadded⟩ := hvalues text htext
    exact hvalue.not_mem hpadded hc hin

/-- The first piece of a term that names a set holds the opening bracket, and is refused. -/
theorem NamesSet.exists_piece (h : NamesSet term) :
    ∃ piece ∈ Text.pieces ',' term, Text.trim piece ≠ [] ∧
      ∃ e, requirement (Text.trim piece) = .error e := by
  obtain ⟨more, hmore⟩ := Text.exists_pieces_eq_cons ',' term
  have hopens : '(' ∈ Text.trim (term.takeWhile (· != ',')) := by
    obtain ⟨hhead, -, -⟩ := h
    rw [List.takeWhile_append_of_pos, List.takeWhile_cons, if_pos (by decide),
      Text.trim_append_cons (by decide)]
    · simp
    · intro c hc
      exact bne_iff_ne.mpr fun hcomma => hhead.not_mem (c := ',') (by decide) (hcomma ▸ hc)
  have hbare : ∀ c ∈ signs, c ≠ ',' → c ∉ Text.trim (term.takeWhile (· != ',')) :=
    fun c hc hcomma hmem =>
      h.not_mem hc hcomma ((List.takeWhile_sublist _).subset (Text.mem_of_mem_trim hmem))
  have herror := requirement_of_bare (hbare '=' (by decide) (by decide))
    (hbare '!' (by decide) (by decide))
  rw [if_pos (by simp [hopens])] at herror
  exact ⟨_, hmore ▸ List.mem_cons_self, List.ne_nil_of_mem hopens, _, herror⟩

/-- A selector is refused for any term in it that names a set. -/
theorem NamesSet.exists_parse_eq_error (h : NamesSet term) (hterm : term ∈ terms) :
    ∃ e, parse (String.ofList (Text.join [','] terms)) = .error e := by
  obtain ⟨piece, hpiece, hne, e, he⟩ := h.exists_piece
  rw [parse, String.toList_ofList, Text.pieces_join_eq_flatMap (List.ne_nil_of_mem hterm)]
  exact exists_requirements_eq_error (mem_trimmed_iff.mpr
    ⟨hne, piece, List.mem_flatMap.mpr ⟨term, hterm, hpiece⟩, rfl⟩) he

end LabelSelector

/-! ## What a requirement asks for -/

/-- Labels hold a requirement: which pairs of a key and a value must be among them, or must not. -/
def LabelRequirement.Holds (labels : Entries String String) : LabelRequirement → Prop
  | .equals key value => (key, value) ∈ labels
  | .notEquals key value => (key, value) ∉ labels
  | .present key => ∃ value, (key, value) ∈ labels
  | .absent key => ∀ value, (key, value) ∉ labels

theorem LabelRequirement.isMetBy_iff {labels : Entries String String} (h : labels.Ascending)
    (requirement : LabelRequirement) :
    requirement.isMetBy labels = true ↔ requirement.Holds labels := by
  have hmem : ∀ key value, labels.get? key = some value ↔ (key, value) ∈ labels :=
    fun _ _ => Entries.get?_eq_some_iff h
  cases requirement with
  | equals key value => simp [isMetBy, Holds, hmem]
  | notEquals key value => simp [isMetBy, Holds, hmem]
  | present key => simp [isMetBy, Holds, Entries.contains, Option.isSome_iff_exists, hmem]
  | absent key => simp [isMetBy, Holds, Entries.contains, Option.eq_none_iff_forall_ne_some, hmem]

namespace LabelSelector

/-- Labels are selected exactly if they hold each requirement. -/
theorem selects_iff {labels : Entries String String} (h : labels.Ascending)
    (requirements : List LabelRequirement) :
    selects requirements labels = true ↔
      ∀ requirement ∈ requirements, requirement.Holds labels := by
  rw [selects, List.all_eq_true]
  exact forall₂_congr fun requirement _ => requirement.isMetBy_iff h

/-- A list is restricted to what the terms of its label selector spell out, however they are
written, and is refused for a term that names a set. -/
theorem requirements_spelled {options : ListOptions} {terms : List (List Char)}
    (hlabels : options.labels = some (String.ofList (Text.join [','] terms))) :
    (∀ requirements, Spells terms requirements →
      options.requirements = .ok requirements ∧
        ∀ labels : Entries String String, labels.Ascending →
          (selects requirements labels = true ↔
            ∀ requirement ∈ requirements, requirement.Holds labels)) ∧
      ((∃ term ∈ terms, NamesSet term) →
        ∃ reason, options.requirements = .error (.invalid reason)) := by
  rw [ListOptions.requirements, hlabels]
  dsimp only
  constructor
  · intro requirements hspells
    rw [hspells.parse_eq]
    exact ⟨rfl, fun labels hlabels => selects_iff hlabels requirements⟩
  · rintro ⟨term, hterm, hset⟩
    obtain ⟨e, he⟩ := hset.exists_parse_eq_error hterm
    exact ⟨e.message, by rw [he]⟩

theorem requirements_spelled_uneven :
    String.ofList (Text.join [','] uneven) =
        "\tapp =  web,,tier!= , canary\n,  , ! legacy,env==prod" ∧
      (ListOptions.mk "" (some "\tapp =  web,,tier!= , canary\n,  , ! legacy,env==prod")
        none).requirements = .ok [.equals "app" "web", .notEquals "tier" "", .present "canary",
          .absent "legacy", .equals "env" "prod"] ∧
      String.ofList (Text.join [','] (environments :: uneven.take 1)) =
        "env\tnotin ( prod, dev ),\tapp =  web" ∧
      ∃ reason, (ListOptions.mk "" (some "env\tnotin ( prod, dev ),\tapp =  web")
        none).requirements = .error (.invalid reason) := by
  have huneven : String.ofList (Text.join [','] uneven) =
      "\tapp =  web,,tier!= , canary\n,  , ! legacy,env==prod" := by decide
  have hset : String.ofList (Text.join [','] (environments :: uneven.take 1)) =
      "env\tnotin ( prod, dev ),\tapp =  web" := by decide
  refine ⟨huneven, ?_, hset, ?_⟩
  · exact ((requirements_spelled (congrArg some huneven.symm)).1 _ spells_uneven).1
  · exact (requirements_spelled (congrArg some hset.symm)).2
      ⟨environments, List.mem_cons_self, namesSet_environments⟩

end LabelSelector

end ClusterObjects
