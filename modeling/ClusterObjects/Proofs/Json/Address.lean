import ClusterObjects.Proofs.Json.Path

/-! # Addresses

Every node of a value is reached by steps, each to the member under a key or to the item at a
position, which may be counted from the end. Steps to plain keys and to positions that fit a word
can be written behind the root one after another, and what is written leads to the node that the
steps lead to, and nowhere else. A position that its array does not have is named by the error.
-/

namespace ClusterObjects

namespace Text

theorem trim_signedDecimal (n : Int) : trim (signedDecimal n) = signedDecimal n := by
  have hnone : ∀ c ∈ signedDecimal n, isBlank c = false := by
    intro c hc
    rcases isDigit_of_mem_signedDecimal hc with hdigit | rfl
    · exact isBlank_of_isDigit hdigit
    · decide
  exact trim_eq_self (fun c hc => hnone c (List.mem_of_head? hc))
    fun c hc => hnone c (List.mem_of_getLast? hc)

theorem not_mem_signedDecimal {c : Char} (hdigit : c.isDigit = false) (hsign : c ≠ '-') (n : Int) :
    c ∉ signedDecimal n := by
  intro hmem
  rcases isDigit_of_mem_signedDecimal hmem with h | h
  · simp [hdigit] at h
  · exact hsign h

end Text

namespace Json

/-! ## Steps -/

/-- A step from a value to one inside it. -/
inductive Step where
  | key (name : String)
  | position (index : Int)
deriving DecidableEq

namespace Step

/-- How a step is written. -/
def text : Step → List Char
  | .key name => '.' :: name.toList
  | .position index => '[' :: (Text.signedDecimal index ++ [']'])

/-- The path that writes steps one after another. -/
def path (steps : List Step) : String := String.ofList ('$' :: steps.flatMap text)

/-- A step that can be written as it is: to a plain key, or to a position that is a signed 64-bit
number, as every position of an array in memory is. -/
def IsWritable : Step → Prop
  | .key name => IsPlainKey name
  | .position index => -(Text.signedBound : Int) ≤ index ∧ index < Text.signedBound

instance : (step : Step) → Decidable step.IsWritable
  | .key name => inferInstanceAs (Decidable (IsPlainKey name))
  | .position index =>
    inferInstanceAs (Decidable (-(Text.signedBound : Int) ≤ index ∧ index < Text.signedBound))

end Step

/-- Steps lead from a value to a node inside it. The positions of an array of `n` items are
`0` to `n - 1` from its start and `-n` to `-1` from its end. -/
inductive Leads : Json → List Step → Json → Prop
  | here (node : Json) : Leads node [] node
  | member {value found node : Json} {name : String} {steps : List Step}
      (hmember : value.get? name = some found) (hrest : Leads found steps node) :
      Leads value (.key name :: steps) node
  | item {items : List Json} {index : Nat} {found node : Json} {steps : List Step}
      (hitem : items[index]? = some found) (hrest : Leads found steps node) :
      Leads (.arr items) (.position index :: steps) node
  | itemFromEnd {items : List Json} {index : Nat} {found node : Json} {steps : List Step}
      (hitem : items[index]? = some found) (hrest : Leads found steps node) :
      Leads (.arr items) (.position (index - items.length) :: steps) node

/-! ## Following steps -/

/-- What a step leads to, or why it leads nowhere; the segment that it is part of is left open. -/
def follow (value : Json) : Step → Except PathError Json
  | .key name => value.member name
  | .position index => value.item "" index

theorem item_eq_ok_iff {value found : Json} {segment : String} {position : Int} :
    value.item segment position = .ok found ↔
      ∃ items, value = .arr items ∧ ∃ index : Nat, items[index]? = some found ∧
        (position = index ∨ position = index - items.length) := by
  cases value with
  | arr items =>
    unfold item
    dsimp only
    generalize hindex : (if position < 0 then position + items.length else position) = index
    constructor
    · intro h
      split at h
      · contradiction
      next hfront =>
        split at h
        next item hitem =>
          refine ⟨items, rfl, index.toNat, hitem.trans (congrArg some (Except.ok.inj h)), ?_⟩
          split at hindex <;> omega
        next => contradiction
    · rintro ⟨_, ⟨⟩, front, hitem, hposition⟩
      have hlength := (List.getElem?_eq_some_iff.mp hitem).1
      have hsame : index = front := by
        split at hindex <;> omega
      rw [hsame, if_neg (by omega), Int.toNat_natCast, hitem]
  | _ => exact ⟨nofun, nofun⟩

/-- A position that an array does not have is out of range. -/
theorem item_of_outside {items : List Json} {position : Int}
    (h : position < -items.length ∨ items.length ≤ position) (segment : String) :
    (arr items).item segment position = .error (.indexOutOfRange position) := by
  unfold item
  dsimp only
  generalize hindex : (if position < 0 then position + items.length else position) = index
  split
  · rfl
  next hfront =>
    have hbehind : items.length ≤ index.toNat := by
      split at hindex <;> omega
    rw [List.getElem?_eq_none hbehind]

theorem foldlM_follow_eq_ok_iff {steps : List Step} {value node : Json} :
    steps.foldlM follow value = .ok node ↔ Leads value steps node := by
  induction steps generalizing value with
  | nil =>
    constructor
    · rintro ⟨⟩
      exact .here node
    · rintro ⟨⟩
      rfl
  | cons step steps ih =>
    rw [List.foldlM_cons]
    change (value.follow step).bind _ = _ ↔ _
    rw [bind_eq_ok_iff]
    simp only [ih]
    constructor
    · rintro ⟨found, hfound, hrest⟩
      cases step with
      | key name => exact .member (member_eq_ok_iff.mp hfound) hrest
      | position index =>
        obtain ⟨items, rfl, index, hitem, rfl | rfl⟩ := item_eq_ok_iff.mp hfound
        · exact .item hitem hrest
        · exact .itemFromEnd hitem hrest
    · intro h
      cases h with
      | member hmember hrest => exact ⟨_, member_eq_ok_iff.mpr hmember, hrest⟩
      | item hitem hrest =>
        exact ⟨_, (@item_eq_ok_iff _ _ "" _).mpr ⟨_, rfl, _, hitem, Or.inl rfl⟩, hrest⟩
      | itemFromEnd hitem hrest =>
        exact ⟨_, (@item_eq_ok_iff _ _ "" _).mpr ⟨_, rfl, _, hitem, Or.inr rfl⟩, hrest⟩

/-! ## Results without the segment -/

/-- A result, with an error about what is no array left without the segment that it names. -/
def withoutSegment : Except PathError Json → Except PathError Json
  | .error (.notASequence _) => .error (.notASequence "")
  | result => result

theorem withoutSegment_bind (result : Except PathError Json)
    (next : Json → Except PathError Json) :
    withoutSegment (result.bind next) =
      (withoutSegment result).bind fun found => withoutSegment (next found) := by
  cases result with
  | ok found => rfl
  | error error => cases error <;> rfl

theorem withoutSegment_eq_ok_iff {result : Except PathError Json} {found : Json} :
    withoutSegment result = .ok found ↔ result = .ok found := by
  cases result with
  | ok found => rfl
  | error error => cases error <;> exact ⟨nofun, nofun⟩

theorem withoutSegment_eq_indexOutOfRange_iff {result : Except PathError Json} {position : Int} :
    withoutSegment result = .error (.indexOutOfRange position) ↔
      result = .error (.indexOutOfRange position) := by
  cases result with
  | ok found => rfl
  | error error => cases error <;> simp [withoutSegment]

theorem withoutSegment_member (value : Json) (name : String) :
    withoutSegment (value.member name) = value.follow (.key name) := by
  cases value with
  | obj fields =>
    unfold follow member
    dsimp only
    cases Entries.get? fields name <;> rfl
  | _ => rfl

theorem withoutSegment_item (value : Json) (segment : String) (position : Int) :
    withoutSegment (value.item segment position) = value.follow (.position position) := by
  cases value with
  | arr items =>
    unfold follow item
    dsimp only
    generalize (if position < 0 then position + items.length else position) = index
    split
    · rfl
    · split <;> rfl
  | _ => rfl

theorem withoutSegment_itemAt (segment : String) (value : Json) (positions : List Int) :
    withoutSegment (itemAt segment value positions) =
      (positions.map Step.position).foldlM follow value := by
  induction positions generalizing value with
  | nil => rfl
  | cons position positions ih =>
    rw [itemAt, withoutSegment_bind, withoutSegment_item, List.map_cons, List.foldlM_cons]
    simp only [ih]
    rfl

/-! ## Segments -/

namespace Segment

/-- How a segment is written. -/
def text (segment : Segment) : List Char :=
  segment.key ++ (segment.positions.map Step.position).flatMap Step.text

/-- The steps that a segment takes. -/
def steps (segment : Segment) : List Step :=
  (if segment.key = [] then [] else [.key (String.ofList segment.key)]) ++
    segment.positions.map .position

/-- The segment that a step begins. -/
def ofStep : Step → Segment
  | .key name => ⟨name.toList, []⟩
  | .position index => ⟨[], [index]⟩

/-- The segment with one more position. -/
def push (segment : Segment) (index : Int) : Segment :=
  { segment with positions := segment.positions ++ [index] }

/-- A segment that is not empty, with a plain key if it has one, and positions that fit a word. -/
structure IsWritable (segment : Segment) : Prop where
  ne_nil : segment.steps ≠ []
  steps : ∀ step ∈ segment.steps, step.IsWritable

variable {segment : Segment}

theorem IsWritable.key_eq_nil_or_isPlainKey (h : segment.IsWritable) :
    segment.key = [] ∨ IsPlainKey (String.ofList segment.key) := by
  by_cases hkey : segment.key = []
  · exact Or.inl hkey
  · refine Or.inr (h.steps (.key _) ?_)
    simp [Segment.steps, hkey]

theorem IsWritable.not_mem_key (h : segment.IsWritable) :
    '.' ∉ segment.key ∧ '[' ∉ segment.key := by
  rcases h.key_eq_nil_or_isPlainKey with hkey | hkey
  · simp [hkey]
  · exact ⟨by simpa using hkey.noDot, by simpa using hkey.noBracket⟩

theorem IsWritable.text_ne_nil (h : segment.IsWritable) : segment.text ≠ [] := by
  intro hnil
  obtain ⟨hkey, hbrackets⟩ := List.append_eq_nil_iff.mp hnil
  apply h.ne_nil
  cases hpositions : segment.positions with
  | nil => simp [Segment.steps, hkey, hpositions]
  | cons index positions => simp [hpositions, Step.text] at hbrackets

theorem IsWritable.not_mem_text (h : segment.IsWritable) : '.' ∉ segment.text := by
  unfold text
  simp only [List.mem_append, List.mem_flatMap, List.mem_map, not_or, not_exists, not_and]
  refine ⟨h.not_mem_key.1, ?_⟩
  rintro _ ⟨index, _, rfl⟩
  simpa [Step.text] using Text.not_mem_signedDecimal (by decide) (by decide) index

theorem steps_ofStep {step : Step} (h : step.IsWritable) : (ofStep step).steps = [step] := by
  cases step with
  | key name =>
    have hne : name.toList ≠ [] := String.toList_eq_nil_iff.not.mpr (IsPlainKey.ne_empty h)
    simp [ofStep, steps, hne]
  | position index => rfl

theorem isWritable_ofStep {step : Step} (h : step.IsWritable) : (ofStep step).IsWritable := by
  constructor
  · simp [steps_ofStep h]
  · simpa [steps_ofStep h] using h

theorem steps_push (segment : Segment) (index : Int) :
    (segment.push index).steps = segment.steps ++ [.position index] := by
  unfold push steps
  rw [List.map_append, List.append_assoc]
  rfl

theorem text_push (segment : Segment) (index : Int) :
    (segment.push index).text = segment.text ++ (Step.position index).text := by
  simp [push, text]

theorem IsWritable.push (h : segment.IsWritable) {index : Int}
    (hindex : (Step.position index).IsWritable) : (segment.push index).IsWritable := by
  constructor
  · simp [steps_push]
  · rw [steps_push]
    exact List.forall_mem_append.mpr ⟨h.steps, List.forall_mem_singleton.mpr hindex⟩

end Segment

/-- Positions in brackets are read as those positions. -/
theorem positions?_brackets {positions : List Int}
    (h : ∀ index ∈ positions, (Step.position index).IsWritable) {fuel : Nat}
    (hfuel : positions.length ≤ fuel) :
    positions? fuel ((positions.map Step.position).flatMap Step.text) = some positions := by
  induction positions generalizing fuel with
  | nil => cases fuel <;> rfl
  | cons index positions ih =>
    obtain ⟨hindex, hrest⟩ := List.forall_mem_cons.mp h
    cases fuel with
    | zero => simp at hfuel
    | succ fuel =>
      have hcut : Text.cut [']'] (Text.signedDecimal index ++
          ']' :: (positions.map Step.position).flatMap Step.text) =
          some (Text.signedDecimal index, (positions.map Step.position).flatMap Step.text) :=
        Text.cut_singleton_eq_some_iff.mpr
          ⟨rfl, Text.not_mem_signedDecimal (by decide) (by decide) index⟩
      simp only [List.map_cons, List.flatMap_cons, Step.text, List.cons_append, List.append_assoc,
        List.nil_append, positions?, if_true, hcut, Text.trim_signedDecimal,
        Text.integer?_signedDecimal hindex.1 hindex.2,
        ih hrest (Nat.le_of_succ_le_succ hfuel)]

theorem length_le_brackets (positions : List Int) :
    positions.length ≤ ((positions.map Step.position).flatMap Step.text).length := by
  induction positions with
  | nil => simp
  | cons index positions ih =>
    simp only [List.map_cons, List.flatMap_cons, Step.text, List.length_append, List.length_cons]
    omega

/-- A written segment is read as itself. -/
theorem segment?_text {segment : Segment} (h : segment.IsWritable) :
    segment? segment.text = some segment := by
  obtain ⟨key, positions⟩ := segment
  have hpositions : ∀ index ∈ positions, (Step.position index).IsWritable := fun index hindex =>
    h.steps _ (List.mem_append_right _ (List.mem_map_of_mem hindex))
  have hkey : ∀ c ∈ key, decide (c ≠ '[') = true := fun c hc =>
    decide_eq_true fun heq => h.not_mem_key.2 (heq ▸ hc)
  have hbrackets : ((positions.map Step.position).flatMap Step.text).takeWhile (· ≠ '[') = [] := by
    cases positions <;> simp [Step.text]
  have hfront : (key ++ (positions.map Step.position).flatMap Step.text).takeWhile (· ≠ '[') =
      key := by
    rw [List.takeWhile_append_of_pos hkey, hbrackets, List.append_nil]
  have hfuel : positions.length ≤ (Segment.text ⟨key, positions⟩).length := by
    rw [Segment.text, List.length_append]
    exact Nat.le_add_left_of_le (length_le_brackets positions)
  unfold segment?
  simp only [Segment.text] at hfuel ⊢
  rw [hfront, List.drop_left, positions?_brackets hpositions hfuel]
  rfl

/-- A written segment takes its steps. -/
theorem withoutSegment_descend {segment : Segment} (h : segment.IsWritable) (value : Json) :
    withoutSegment (value.descend segment.text) = segment.steps.foldlM follow value := by
  unfold descend
  rw [segment?_text h]
  dsimp only
  rw [withoutSegment_bind, Segment.steps, List.foldlM_append]
  simp only [withoutSegment_itemAt]
  congr 1
  by_cases hkey : segment.key = []
  · rw [if_pos (List.isEmpty_iff.mpr hkey), if_pos hkey]
    rfl
  · rw [if_neg (List.isEmpty_iff.not.mpr hkey), if_neg hkey, withoutSegment_member]
    exact (bind_pure _).symm

theorem withoutSegment_descendAll {segments : List Segment}
    (h : ∀ segment ∈ segments, segment.IsWritable) (value : Json) :
    withoutSegment (value.descendAll (segments.map Segment.text)) =
      (segments.flatMap Segment.steps).foldlM follow value := by
  induction segments generalizing value with
  | nil => rfl
  | cons segment segments ih =>
    obtain ⟨hsegment, hrest⟩ := List.forall_mem_cons.mp h
    rw [List.map_cons, descendAll, withoutSegment_bind, withoutSegment_descend hsegment,
      List.flatMap_cons, List.foldlM_append]
    simp only [ih hrest]
    rfl

/-! ## Written steps -/

/-- What follows a segment in a path is cut into segments that take its steps and then the ones
that follow: a step to a key begins a segment, a step to a position belongs to the last. -/
theorem exists_segments {segment : Segment} (hsegment : segment.IsWritable) {steps : List Step}
    (hsteps : ∀ step ∈ steps, step.IsWritable) :
    ∃ segments : List Segment, (∀ other ∈ segments, other.IsWritable) ∧
      Text.pieces '.' (segment.text ++ steps.flatMap Step.text) = segments.map Segment.text ∧
      segments.flatMap Segment.steps = segment.steps ++ steps := by
  induction steps generalizing segment with
  | nil =>
    refine ⟨[segment], List.forall_mem_singleton.mpr hsegment, ?_, by simp⟩
    rw [List.flatMap_nil, List.append_nil, Text.pieces_of_not_mem hsegment.not_mem_text]
    rfl
  | cons step steps ih =>
    obtain ⟨hstep, hrest⟩ := List.forall_mem_cons.mp hsteps
    cases step with
    | key name =>
      obtain ⟨segments, hwritable, hpieces, hall⟩ := ih (Segment.isWritable_ofStep hstep) hrest
      refine ⟨segment :: segments, List.forall_mem_cons.mpr ⟨hsegment, hwritable⟩, ?_, ?_⟩
      · have hbody : (Segment.ofStep (.key name)).text = name.toList := List.append_nil _
        rw [hbody] at hpieces
        rw [List.flatMap_cons, Step.text, List.cons_append, Text.pieces_append, hpieces,
          Text.pieces_of_not_mem hsegment.not_mem_text]
        rfl
      · rw [List.flatMap_cons, hall, Segment.steps_ofStep hstep]
        rfl
    | position index =>
      obtain ⟨segments, hwritable, hpieces, hall⟩ := ih (hsegment.push hstep) hrest
      refine ⟨segments, hwritable, ?_, ?_⟩
      · rw [← hpieces, Segment.text_push, List.flatMap_cons, List.append_assoc]
      · rw [hall, Segment.steps_push, List.append_assoc]
        rfl

theorem pathBody_steps (step : Step) (steps : List Step) :
    pathBody ((step :: steps).flatMap Step.text) =
      (Segment.ofStep step).text ++ steps.flatMap Step.text := by
  cases step with
  | key name => simp [Segment.ofStep, Segment.text, Step.text]
  | position index =>
    have hbracket : '[' ≠ '.' := by decide
    simp [Segment.ofStep, Segment.text, Step.text, pathBody_of_ne hbracket]

/-- What is written leads where its steps lead, up to the segment that an error names. -/
theorem withoutSegment_lookup {steps : List Step} (h : ∀ step ∈ steps, step.IsWritable)
    (root : Json) :
    withoutSegment (root.lookup (Step.path steps)) = steps.foldlM follow root := by
  unfold lookup Step.path
  rw [String.toList_ofList]
  cases steps with
  | nil => rfl
  | cons step steps =>
    obtain ⟨hstep, hrest⟩ := List.forall_mem_cons.mp h
    obtain ⟨segments, hwritable, hpieces, hall⟩ :=
      exists_segments (Segment.isWritable_ofStep hstep) hrest
    have hne : (step :: steps).flatMap Step.text ≠ [] := by
      cases step <;> simp [Step.text]
    have hfull : (segments.map Segment.text).any List.isEmpty = false := by
      rw [List.any_eq_false]
      intro text htext
      obtain ⟨segment, hmem, rfl⟩ := List.mem_map.mp htext
      simpa using (hwritable segment hmem).text_ne_nil
    rw [lookupAt_cons root hne, pathBody_steps, hpieces, hfull, if_neg Bool.false_ne_true,
      withoutSegment_descendAll hwritable, hall, Segment.steps_ofStep hstep]
    rfl

/-- Steps that can be written lead to a node exactly if their path does, whether the positions
are counted from the start of their arrays or from the end. If one of them is to a position that
its array does not have, the lookup fails and names the position, wherever the path goes on. -/
theorem lookup_steps {steps : List Step} (h : ∀ step ∈ steps, step.IsWritable) (root : Json) :
    (∀ node, root.lookup (Step.path steps) = .ok node ↔ root.Leads steps node) ∧
      ∀ front position back items, steps = front ++ .position position :: back →
        root.Leads front (.arr items) →
        (position < -(items.length : Int) ∨ (items.length : Int) ≤ position) →
        root.lookup (Step.path steps) = .error (.indexOutOfRange position) := by
  constructor
  · intro node
    rw [← withoutSegment_eq_ok_iff, withoutSegment_lookup h, foldlM_follow_eq_ok_iff]
  · rintro front position back items rfl hleads houtside
    rw [← withoutSegment_eq_indexOutOfRange_iff, withoutSegment_lookup h, List.foldlM_append,
      foldlM_follow_eq_ok_iff.mpr hleads]
    change ((arr items).item "" position).bind _ = _
    rw [item_of_outside houtside]
    rfl

/-- A value with arrays in arrays and keys that hold a bracket and the sign of the root. -/
def nested : Json :=
  ofFields [("$", .arr [.arr [.ofNat 1, ofFields [("a]", .null)]], .str "x"])]

/-- A position from the end and one from the start lead to a null; one too many is out of range. -/
theorem lookup_steps_nested :
    let steps : List Step := [.key "$", .position (-2), .position 1, .key "a]"]
    let beyond : List Step := [.key "$", .position 2, .key "a]"]
    Step.path steps = "$.$[-2][1].a]" ∧
      (∀ step ∈ steps, step.IsWritable) ∧ nested.Leads steps .null ∧
      nested.lookup (Step.path steps) = .ok .null ∧ (∀ step ∈ beyond, step.IsWritable) ∧
      nested.lookup (Step.path beyond) = .error (.indexOutOfRange 2) := by
  intro steps beyond
  have hsteps : ∀ step ∈ steps, step.IsWritable := by decide
  have hbeyond : ∀ step ∈ beyond, step.IsWritable := by decide
  have hleads : nested.Leads steps .null := foldlM_follow_eq_ok_iff.mp rfl
  have harray : nested.Leads [.key "$"] _ := .member rfl (.here _)
  exact ⟨by decide, hsteps, hleads, ((lookup_steps hsteps nested).1 _).mpr hleads, hbeyond,
    (lookup_steps hbeyond nested).2 [.key "$"] 2 [.key "a]"] _ rfl harray (by decide)⟩

end Json

end ClusterObjects
