import ClusterObjects.Proofs.Query.SelectorScan
import Mathlib.Data.List.ReduceOption

/-! # Reading and writing field selectors

A clause whose path has no character with a meaning of its own is read as it was meant, whatever
its value, since the value is escaped. A path is written as it is, however. Where trimming has
left an open escape or a bare exclamation mark at its end, the operator written behind it is
taken for a part of it or read as another one; every other selector is read back from its text.
-/

namespace ClusterObjects

namespace FieldSelector

/-! ## Texts of clauses -/

/-- A clause as it is written. -/
structure Spelling where
  path : String
  sign : Sign
  value : String

namespace Spelling

/-- The clause that is meant. -/
def requirement (spelling : Spelling) : Requirement :=
  ⟨spelling.path, spelling.sign.comparison, spelling.value⟩

def text (spelling : Spelling) : List Char :=
  spelling.path.toList ++ (spelling.sign.text ++ escape spelling.value.toList)

end Spelling

/-- What is written behind a path is part of no other term. -/
theorem avoids_sign (sign : Sign) (value : List Char) :
    ∃ c rest, c ≠ '\\' ∧ c ≠ ',' ∧ Avoids ',' rest ∧ sign.text ++ escape value = c :: rest := by
  have hvalue := @avoids_escape ',' rfl value
  cases sign with
  | single => exact ⟨'=', escape value, by decide, by decide, hvalue, rfl⟩
  | double =>
    exact ⟨'=', '=' :: escape value, by decide, by decide, hvalue.plain (by decide) (by decide),
      rfl⟩
  | unequal =>
    exact ⟨'!', '=' :: escape value, by decide, by decide, hvalue.plain (by decide) (by decide),
      rfl⟩

/-- A written clause is one term, whether or not its path takes the operator for a part of it. -/
theorem Spelling.avoids_text {spelling : Spelling}
    (h : Avoids ',' spelling.path.toList ∨ Opens ',' spelling.path.toList) :
    Avoids ',' spelling.text := by
  obtain ⟨c, rest, hc, hcomma, hrest, heq⟩ := avoids_sign spelling.sign spelling.value.toList
  unfold text
  rw [heq]
  rcases h with hclosed | ⟨front, hfront, hpath⟩
  · exact hclosed.append (hrest.plain hc hcomma)
  · rw [hpath, List.append_assoc]
    exact hfront.append hrest.pair

/-- The operator written behind a path is read as it is spelled. -/
theorem Spelling.requirement_text {spelling : Spelling}
    (hpath : Avoids '=' spelling.path.toList) (htrim : Text.trim spelling.path.toList =
      spelling.path.toList) (hne : spelling.path.toList ≠ [])
    (hbare : spelling.sign.comparison = .equals → endsBare spelling.path.toList = false) :
    FieldSelector.requirement spelling.text = .ok spelling.requirement := by
  have hcut : cutAtOperator spelling.text = some
      (spelling.path.toList, spelling.sign.comparison, escape spelling.value.toList) := by
    unfold text
    rw [cutAtOperator_append hpath, cutBehind, cutAtOperator_sign, Option.map_some,
      List.append_nil]
    intro hhead
    apply hbare
    cases hsign : spelling.sign with
    | single => rfl
    | double => rfl
    | unequal =>
      rw [hsign] at hhead
      exact absurd (Option.some.inj hhead) (by decide)
  have hpath' : Text.trim spelling.path.toList ≠ [] := by rwa [htrim]
  rw [requirement_of_cut hcut hpath' (unescape?_escape _), htrim, String.ofList_toList,
    String.ofList_toList]
  rfl

/-- The terms that are read between commas are those written, empty ones aside. -/
theorem filter_terms_join {written : List (List Char)} (h : ∀ term ∈ written, Avoids ',' term) :
    (terms (Text.join [','] written)).filter (fun term => !term.isEmpty) =
      written.filter fun term => !term.isEmpty := by
  by_cases hne : written = []
  · subst hne
    rfl
  · rw [terms_join hne h]

/-! ## What a written selector means -/

/-- The path of a clause has no character with a meaning of its own and no white space at its
ends. -/
structure Spelling.IsPlain (spelling : Spelling) : Prop where
  ne_empty : spelling.path ≠ ""
  first : ∀ c ∈ spelling.path.toList.head?, Text.isBlank c = false
  last : ∀ c ∈ spelling.path.toList.getLast?, Text.isBlank c = false ∧ c ≠ '!'
  free : ∀ c ∈ spelling.path.toList, c ≠ ',' ∧ c ≠ '\\' ∧ c ≠ '='

/-- The conditions on a path, computed. -/
def Spelling.isPlain (spelling : Spelling) : Bool :=
  let path := spelling.path.toList
  !path.isEmpty && (path.head?.all fun c => !Text.isBlank c) &&
    (path.getLast?.all fun c => !Text.isBlank c && c != '!') &&
    path.all fun c => c != ',' && c != '\\' && c != '='

theorem Spelling.isPlain_iff (spelling : Spelling) :
    spelling.isPlain = true ↔ spelling.IsPlain := by
  simp only [isPlain, Bool.and_eq_true, Bool.not_eq_true', List.isEmpty_eq_false_iff,
    Option.all_eq_true, List.all_eq_true, bne_iff_ne, and_assoc, ne_eq, String.toList_eq_nil_iff]
  exact ⟨fun ⟨hne, hfirst, hlast, hfree⟩ => ⟨hne, hfirst, hlast, hfree⟩,
    fun h => ⟨h.ne_empty, h.first, h.last, h.free⟩⟩

instance (spelling : Spelling) : Decidable spelling.IsPlain :=
  decidable_of_iff _ spelling.isPlain_iff

/-- The text of clauses and empty terms, with commas in between. -/
def written (terms : List (Option Spelling)) : String :=
  String.ofList (Text.join [','] (terms.map fun term => (term.map Spelling.text).getD []))

/-- A path leads somewhere in a value. -/
def Resolves (path : String) (tree : Json) : Prop :=
  ∃ found, tree.lookup ("$." ++ path) = .ok found

/-- The path of a clause leads to a value, and its text compares as the clause requires. -/
def Spelling.Holds (spelling : Spelling) (tree : Json) : Prop :=
  ∃ found, tree.lookup ("$." ++ spelling.path) = .ok found ∧
    match spelling.sign with
    | .single | .double => found.plainText = spelling.value
    | .unequal => found.plainText ≠ spelling.value

/-- The clause with the other comparison. -/
def opposite (r : Requirement) : Requirement :=
  match r.comparison with
  | .equals => { r with comparison := .notEquals }
  | .notEquals => { r with comparison := .equals }

/-- What clauses mean: a selector with just these clauses, which selects a value if all of them
hold there. Where a path leads somewhere, a clause holds or the one with the other comparison;
elsewhere neither does. -/
structure Means (clauses : List Spelling) (selector : FieldSelector) : Prop where
  requirements_eq : selector.requirements = clauses.map Spelling.requirement
  selects_iff : ∀ tree, selector.selects tree = true ↔ ∀ clause ∈ clauses, clause.Holds tree
  opposed : ∀ r ∈ selector.requirements, ∀ tree, Resolves r.path tree →
    (opposite r).isMetBy tree = !r.isMetBy tree
  unmet : ∀ r ∈ selector.requirements, ∀ tree, ¬ Resolves r.path tree →
    r.isMetBy tree = false ∧ (opposite r).isMetBy tree = false

theorem lookup_path (path : String) (tree : Json) :
    tree.lookup ("$." ++ path) = tree.lookupAt ('$' :: '.' :: path.toList) := by
  rw [Json.lookup, String.toList_append]
  rfl

theorem Spelling.isMetBy_iff (spelling : Spelling) (tree : Json) :
    spelling.requirement.isMetBy tree = true ↔ spelling.Holds tree := by
  have hpath : spelling.requirement.path = spelling.path := rfl
  unfold Holds Requirement.isMetBy
  rw [lookup_path, hpath]
  cases tree.lookupAt ('$' :: '.' :: spelling.path.toList) with
  | error e => simp
  | ok found =>
    obtain ⟨path, sign, value⟩ := spelling
    cases sign <;> simp [Spelling.requirement, Sign.comparison]

theorem isMetBy_opposite (r : Requirement) (tree : Json) :
    (Resolves r.path tree → (opposite r).isMetBy tree = !r.isMetBy tree) ∧
      (¬ Resolves r.path tree → r.isMetBy tree = false ∧ (opposite r).isMetBy tree = false) := by
  obtain ⟨path, comparison, value⟩ := r
  unfold Resolves
  rw [lookup_path]
  cases hfound : tree.lookupAt ('$' :: '.' :: path.toList) with
  | error e => cases comparison <;> simp [opposite, Requirement.isMetBy, hfound]
  | ok found => cases comparison <;> simp [opposite, Requirement.isMetBy, hfound, bne]

theorem Spelling.text_ne_nil {spelling : Spelling} (h : spelling.IsPlain) :
    spelling.text ≠ [] := by
  unfold text
  intro hnil
  exact h.ne_empty (String.toList_eq_nil_iff.mp (List.append_eq_nil_iff.mp hnil).1)

theorem filter_written {terms : List (Option Spelling)}
    (h : ∀ spelling ∈ terms.reduceOption, spelling.IsPlain) :
    (terms.map fun term => (term.map Spelling.text).getD []).filter (fun term => !term.isEmpty) =
      terms.reduceOption.map Spelling.text := by
  induction terms with
  | nil => rfl
  | cons term rest ih =>
    cases term with
    | none => exact ih h
    | some spelling =>
      rw [List.reduceOption_cons_of_some] at h ⊢
      obtain ⟨hplain, hrest⟩ := List.forall_mem_cons.mp h
      have hne : (!spelling.text.isEmpty) = true := by simpa using Spelling.text_ne_nil hplain
      rw [List.map_cons, Option.map_some, Option.getD_some, List.filter_cons, if_pos hne,
        ih hrest, List.map_cons]

theorem Spelling.requirement_of_isPlain {spelling : Spelling} (h : spelling.IsPlain) :
    FieldSelector.requirement spelling.text = .ok spelling.requirement := by
  refine requirement_text ?_ ?_ ?_ ?_
  · exact .of_forall fun c hc => (h.free c hc).2
  · exact Text.trim_eq_self h.first fun c hc => (h.last c hc).1
  · exact fun hnil => h.ne_empty (String.toList_eq_nil_iff.mp hnil)
  · intro _
    rw [← Bool.not_eq_true, endsBare_iff]
    rintro ⟨front, _, _, hpath⟩
    exact (h.last '!' (by rw [hpath]; exact List.getLast?_concat)).2 rfl

/-- Clauses with plain paths are read as they are meant, whatever their values and however many
empty terms stand between them. -/
theorem exists_parse_written {terms : List (Option Spelling)}
    (h : ∀ spelling ∈ terms.reduceOption, spelling.IsPlain) :
    ∃ selector, parse (written terms) = .ok selector ∧ Means terms.reduceOption selector := by
  have havoids : ∀ term ∈ terms.map fun term => (term.map Spelling.text).getD [],
      Avoids ',' term := by
    intro term hterm
    obtain ⟨spelling, hspelling, rfl⟩ := List.mem_map.mp hterm
    cases spelling with
    | none => exact .nil
    | some spelling =>
      have hplain := h spelling (List.reduceOption_mem_iff.mpr hspelling)
      exact Spelling.avoids_text (Or.inl (.of_forall fun c hc =>
        ⟨(hplain.free c hc).2.1, (hplain.free c hc).1⟩))
  refine ⟨⟨terms.reduceOption.map Spelling.requirement⟩, ?_, rfl, ?_, ?_, ?_⟩
  · rw [parse_eq_ok_iff, written, String.toList_ofList, filter_terms_join havoids,
      filter_written h, List.map_map, List.map_map]
    exact List.map_congr_left fun spelling hspelling =>
      Spelling.requirement_of_isPlain (h spelling hspelling)
  · intro tree
    rw [selects, List.all_map, List.all_eq_true]
    exact forall₂_congr fun spelling _ => spelling.isMetBy_iff tree
  · exact fun r _ tree => (isMetBy_opposite r tree).1
  · exact fun r _ tree => (isMetBy_opposite r tree).2

/-- Clauses whose values hold all that has a meaning of its own, with empty terms around them. -/
def intricate : List (Option Spelling) :=
  [none, some ⟨"metadata.name", .double, "=a,b\\"⟩, none, none, some ⟨"a!.b[0]", .unequal, ""⟩,
    some ⟨"status.phase", .single, " !=é "⟩]

theorem exists_parse_intricate :
    written intricate =
        ",metadata.name==\\=a\\,b\\\\,,,a!.b[0]!=,status.phase= !\\=é " ∧
      (∀ spelling ∈ intricate.reduceOption, spelling.IsPlain) ∧
      ∃ selector, parse (written intricate) = .ok selector ∧
        Means intricate.reduceOption selector := by
  have hplain : ∀ spelling ∈ intricate.reduceOption, spelling.IsPlain := by decide
  exact ⟨by decide, hplain, exists_parse_written hplain⟩

/-! ## Reading a selector back from its text -/

/-- A clause whose operator cannot be taken for a part of its path: no escape of the path is
open, and an equals sign comes behind no bare exclamation mark. -/
def isClear (r : Requirement) : Bool :=
  (unescape? r.path.toList).isSome &&
    (r.comparison == .notEquals || !endsBare r.path.toList)

/-- The clause as the text of a selector spells it. -/
def spelled (r : Requirement) : Spelling :=
  ⟨r.path, match r.comparison with
    | .equals => .single
    | .notEquals => .unequal, r.value⟩

theorem requirement_spelled (r : Requirement) : (spelled r).requirement = r := by
  obtain ⟨path, comparison, value⟩ := r
  cases comparison <;> rfl

theorem text_spelled (r : Requirement) : requirementText r = (spelled r).text := by
  obtain ⟨path, comparison, value⟩ := r
  unfold requirementText Spelling.text
  rw [List.append_assoc]
  cases comparison <;> rfl

/-- The path of a clause that has been read: it is trimmed, and holds commas and equals signs
only escaped. -/
structure IsRead (r : Requirement) : Prop where
  ne_nil : r.path.toList ≠ []
  trimmed : Text.trim r.path.toList = r.path.toList
  comma : Avoids ',' r.path.toList ∨ Opens ',' r.path.toList
  equals : Avoids '=' r.path.toList ∨ Opens '=' r.path.toList

theorem Avoids.trim {mark : Char} {text : List Char} (h : Avoids mark text) :
    Avoids mark (Text.trim text) ∨ Opens mark (Text.trim text) := by
  obtain ⟨before, after, htext, hblank⟩ := Text.exists_trim_append text
  rw [htext] at h
  exact (Avoids.of_blank_append hblank h).of_append

theorem isRead_of_requirement {text term : List Char} {r : Requirement}
    (hterm : term ∈ terms text) (h : requirement term = .ok r) : IsRead r := by
  obtain ⟨path, raw, value, hcut, hne, hvalue, hr⟩ := exists_of_requirement h
  obtain ⟨hequals, sign, rfl⟩ := exists_of_cutAtOperator hcut
  have hpath : r.path.toList = Text.trim path := by rw [hr, String.toList_ofList]
  -- The value has no open escape, so the term has none and is free of commas.
  have hcomma : Avoids ',' path := by
    obtain ⟨found, hfound⟩ := hequals.exists_unescape?
    have hsign : unescape? sign.text = some sign.text := by cases sign <;> rfl
    have hwhole : unescape? (path ++ (sign.text ++ raw)) =
        some (found ++ (sign.text ++ value)) := by
      rw [unescape?_append hfound, unescape?_append hsign, hvalue]
      rfl
    exact avoids_of_unescape? (avoids_of_mem_terms hterm hwhole).of_append hfound
  constructor
  · rwa [hpath]
  · rw [hpath, Text.trim_trim]
  · rw [hpath]
    exact hcomma.trim
  · rw [hpath]
    exact hequals.trim

/-- An open escape takes the first character of the operator: an equals sign is lost as an
operator, and of the unequal sign only the equals sign is left. -/
theorem comparison_ne_of_opens {r : Requirement} (h : Opens '=' r.path.toList)
    {path raw : List Char} {comparison : Comparison}
    (hcut : cutAtOperator (requirementText r) = some (path, comparison, raw)) :
    comparison ≠ r.comparison := by
  obtain ⟨front, hfront, hpath⟩ := h
  unfold requirementText at hcut
  rw [hpath, List.append_assoc, List.append_assoc, cutAtOperator_append hfront (by simp),
    cutBehind] at hcut
  cases hcomparison : r.comparison with
  | equals =>
    have hnone := cutAtOperator_of_avoids (@avoids_escape '=' rfl r.value.toList)
    rw [hcomparison] at hcut
    change (cutAtOperator ('\\' :: '=' :: escape r.value.toList)).map _ = _ at hcut
    rw [cutAtOperator_pair, cutBehind, hnone] at hcut
    contradiction
  | notEquals =>
    rw [hcomparison] at hcut
    change (cutAtOperator ('\\' :: '!' :: (Sign.single.text ++ escape r.value.toList))).map _ = _
      at hcut
    rw [cutAtOperator_pair, cutBehind, cutAtOperator_sign] at hcut
    obtain ⟨_, rfl, _⟩ := by simpa using hcut
    decide

/-- A bare exclamation mark and an equals sign are read as the unequal sign. -/
theorem comparison_of_endsBare {r : Requirement} (h : Avoids '=' r.path.toList)
    (hbare : endsBare r.path.toList = true) (hequals : r.comparison = .equals)
    {path raw : List Char} {comparison : Comparison}
    (hcut : cutAtOperator (requirementText r) = some (path, comparison, raw)) :
    comparison = .notEquals := by
  obtain ⟨front, value, hvalue, hpath⟩ := endsBare_iff.mp hbare
  rw [hpath] at h
  have hfront := avoids_of_unescape? h.of_append hvalue
  unfold requirementText at hcut
  rw [hpath, hequals, List.append_assoc, List.append_assoc] at hcut
  change cutAtOperator (front ++ (Sign.unequal.text ++ escape r.value.toList)) = _ at hcut
  have hhead : (Sign.unequal.text ++ escape r.value.toList).head? = some '=' →
      endsBare front = false := by
    intro hhead
    exact absurd (Option.some.inj hhead) (by decide)
  rw [cutAtOperator_append hfront hhead, cutBehind, cutAtOperator_sign] at hcut
  obtain ⟨_, rfl, _⟩ := by simpa using hcut
  rfl

/-- A clause that has been read is read back from what is written for it exactly if it is
clear. -/
theorem requirement_text_iff {r : Requirement} (h : IsRead r) :
    requirement (requirementText r) = .ok r ↔ isClear r = true := by
  constructor
  · intro hback
    obtain ⟨path, raw, value, hcut, _⟩ := exists_of_requirement hback
    have hclosed : Avoids '=' r.path.toList :=
      h.equals.resolve_right fun hopens => comparison_ne_of_opens hopens hcut rfl
    rw [isClear, Bool.and_eq_true, Option.isSome_iff_exists, Bool.or_eq_true, beq_iff_eq,
      Bool.not_eq_true', ← Bool.not_eq_true]
    refine ⟨hclosed.exists_unescape?, ?_⟩
    cases hcomparison : r.comparison with
    | notEquals => exact Or.inl rfl
    | equals =>
      refine Or.inr fun hbare => ?_
      have hunequal := comparison_of_endsBare hclosed hbare hcomparison hcut
      rw [hcomparison] at hunequal
      contradiction
  · intro hclear
    rw [isClear, Bool.and_eq_true, Option.isSome_iff_exists, Bool.or_eq_true, beq_iff_eq,
      Bool.not_eq_true'] at hclear
    obtain ⟨⟨value, hvalue⟩, hbare⟩ := hclear
    have hcomparison : (spelled r).sign.comparison = r.comparison :=
      congrArg Requirement.comparison (requirement_spelled r)
    have hread := @Spelling.requirement_text (spelled r)
      (avoids_of_unescape? h.equals hvalue) h.trimmed h.ne_nil
    rw [requirement_spelled, ← text_spelled, hcomparison] at hread
    exact hread fun hequals => hbare.resolve_left (by rw [hequals]; exact nofun)

/-- A selector that has been read from a text is read back from its own text exactly if all of
its clauses are clear. -/
theorem parse_text_iff {text : String} {selector : FieldSelector} (h : parse text = .ok selector) :
    parse selector.text = .ok selector ↔ ∀ r ∈ selector.requirements, isClear r = true := by
  have hread : ∀ r ∈ selector.requirements, IsRead r := by
    intro r hr
    have hmem := List.mem_map_of_mem (f := @Except.ok SelectorError Requirement) hr
    rw [← parse_eq_ok_iff.mp h] at hmem
    obtain ⟨term, hterm, hok⟩ := List.mem_map.mp hmem
    exact isRead_of_requirement (List.mem_filter.mp hterm).1 hok
  have havoids : ∀ term ∈ selector.requirements.map requirementText, Avoids ',' term := by
    intro term hterm
    obtain ⟨r, hr, rfl⟩ := List.mem_map.mp hterm
    rw [text_spelled]
    exact Spelling.avoids_text (hread r hr).comma
  have hne : (selector.requirements.map requirementText).filter (fun term => !term.isEmpty) =
      selector.requirements.map requirementText := by
    refine List.filter_eq_self.mpr fun term hterm => ?_
    obtain ⟨r, hr, rfl⟩ := List.mem_map.mp hterm
    have hpath := (hread r hr).ne_nil
    simp [requirementText, hpath]
  rw [parse_eq_ok_iff, FieldSelector.text, String.toList_ofList, filter_terms_join havoids, hne,
    List.map_map, List.map_inj_left]
  exact forall₂_congr fun r hr => requirement_text_iff (hread r hr)

/-- Clauses with an escape and a bare exclamation mark at the ends of their paths, both in front
of an unequal sign or closed. -/
def closing : FieldSelector :=
  ⟨[⟨"a!", .notEquals, "b,c"⟩, ⟨"d\\\\", .equals, " =e"⟩]⟩

theorem parse_text_closing :
    parse "a! !=b\\,c,,d\\\\ == =e" = .ok closing ∧
      (parse closing.text = .ok closing ↔ ∀ r ∈ closing.requirements, isClear r = true) ∧
      parse closing.text = .ok closing := by
  have hread : parse "a! !=b\\,c,,d\\\\ == =e" = .ok closing := by decide
  have hiff := parse_text_iff hread
  exact ⟨hread, hiff, hiff.mpr (by decide)⟩

/-- Not every selector is read back from its text: trimming leaves the exclamation mark of a path
in front of the equals sign. -/
theorem not_parse_text_bare :
    ¬ ∀ (text : String) (selector : FieldSelector), parse text = .ok selector →
      parse selector.text = .ok selector := by
  intro h
  have hback := h "a! =b" ⟨[⟨"a!", .equals, "b"⟩]⟩ (by decide)
  exact absurd hback (by decide)

end FieldSelector

end ClusterObjects
