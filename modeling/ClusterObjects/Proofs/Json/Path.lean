import ClusterObjects.Json.Path
import ClusterObjects.Proofs.Results
import Mathlib.Data.List.TakeWhile

/-! # Paths

A path is read segment by segment between its dots, whatever the segments look like, so that a
dot joins any two texts the way one descent follows another. A key without dots and brackets is a
segment that names a member and no position, so a path of such keys goes down member by member.
-/

namespace ClusterObjects.Json

/-! ## Joined paths -/

/-- What follows the root of a path, without the dot that may stand in front. -/
def pathBody (rest : List Char) : List Char :=
  match rest with
  | '.' :: body => body
  | _ => rest

@[simp]
theorem pathBody_dot (body : List Char) : pathBody ('.' :: body) = body := rfl

theorem pathBody_of_ne {c : Char} (h : c ≠ '.') (rest : List Char) :
    pathBody (c :: rest) = c :: rest := by
  unfold pathBody
  split
  · simp_all
  · rfl

theorem pathBody_append {front : List Char} (hne : front ≠ []) (back : List Char) :
    pathBody (front ++ back) = pathBody front ++ back := by
  cases front with
  | nil => contradiction
  | cons c front =>
    by_cases h : c = '.'
    · subst h
      rw [List.cons_append, pathBody_dot, pathBody_dot]
    · rw [List.cons_append, pathBody_of_ne h, pathBody_of_ne h, List.cons_append]

theorem lookupAt_cons (root : Json) {rest : List Char} (hne : rest ≠ []) :
    root.lookupAt ('$' :: rest) =
      if (Text.pieces '.' (pathBody rest)).any List.isEmpty then
        .error (.emptySegment (String.ofList ('$' :: rest)))
      else root.descendAll (Text.pieces '.' (pathBody rest)) := by
  cases rest with
  | nil => contradiction
  | cons c rest => rfl

/-- A path that is more than the root leads to a value exactly if none of its segments is empty
and they lead there one after another. -/
theorem lookupAt_cons_eq_ok_iff {root found : Json} {rest : List Char} (hne : rest ≠ []) :
    root.lookupAt ('$' :: rest) = .ok found ↔
      (∀ segment ∈ Text.pieces '.' (pathBody rest), segment ≠ []) ∧
        root.descendAll (Text.pieces '.' (pathBody rest)) = .ok found := by
  rw [lookupAt_cons root hne]
  split
  next hempty =>
    obtain ⟨segment, hmem, hsegment⟩ := List.any_eq_true.mp hempty
    exact ⟨nofun, fun h => absurd (List.isEmpty_iff.mp hsegment) (h.1 segment hmem)⟩
  next hfull =>
    refine ⟨fun h => ⟨fun segment hmem hnil => hfull ?_, h⟩, And.right⟩
    exact List.any_eq_true.mpr ⟨segment, hmem, List.isEmpty_iff.mpr hnil⟩

theorem descendAll_append (value : Json) (front back : List (List Char)) :
    value.descendAll (front ++ back) = (value.descendAll front).bind (descendAll · back) := by
  induction front generalizing value with
  | nil => rfl
  | cons segment front ih =>
    simp only [List.cons_append, descendAll, ih]
    exact (bind_assoc (value.descend segment) _ _).symm

theorem lookupAt_of_head?_ne {path : List Char} (h : path.head? ≠ some '$') (root : Json) :
    root.lookupAt path = .error (.missingRoot (String.ofList path)) := by
  unfold lookupAt
  split
  · simp at h
  · rfl

/-- Joining two texts by a dot joins what they lead to: the whole path leads to a value exactly if
its first part leads to one from which its second part leads there. This is so of any two texts,
whether they are paths or not. -/
theorem lookup_joined_iff (front back : String) (root found : Json) :
    root.lookup (front ++ "." ++ back) = .ok found ↔
      ∃ middle, root.lookup front = .ok middle ∧ middle.lookup ("$." ++ back) = .ok found := by
  have hjoined : (front ++ "." ++ back).toList = front.toList ++ '.' :: back.toList := by simp
  have hbehind : ("$." ++ back).toList = '$' :: '.' :: back.toList := by simp
  simp only [lookup, hjoined, hbehind]
  generalize front.toList = front, back.toList = back
  by_cases hroot : front.head? = some '$'
  · obtain ⟨rest, rfl⟩ := List.head?_eq_some_iff.mp hroot
    by_cases hne : rest = []
    · -- The root alone leads nowhere, and the dot behind it starts the second part.
      subst hne
      simp [lookupAt]
    · rw [List.cons_append, lookupAt_cons_eq_ok_iff (by simp), pathBody_append hne,
        Text.pieces_append, List.forall_mem_append, descendAll_append, bind_eq_ok_iff]
      simp only [lookupAt_cons_eq_ok_iff hne, lookupAt_cons_eq_ok_iff (List.cons_ne_nil '.' back),
        pathBody_dot]
      constructor
      · rintro ⟨⟨hfront, hback⟩, middle, hmiddle, hfound⟩
        exact ⟨middle, ⟨hfront, hmiddle⟩, hback, hfound⟩
      · rintro ⟨middle, ⟨hfront, hmiddle⟩, hback, hfound⟩
        exact ⟨⟨hfront, hback⟩, middle, hmiddle, hfound⟩
  · have hjoint : (front ++ '.' :: back).head? ≠ some '$' := by
      cases front with
      | nil => simp
      | cons c front => exact hroot
    rw [lookupAt_of_head?_ne hjoint, lookupAt_of_head?_ne hroot]
    exact ⟨nofun, nofun⟩

/-! ## Paths of plain keys -/

/-- A key that can be written into a path as it is. -/
structure IsPlainKey (key : String) : Prop where
  ne_empty : key ≠ ""
  noDot : '.' ∉ key.toList
  noBracket : '[' ∉ key.toList

instance (key : String) : Decidable (IsPlainKey key) :=
  decidable_of_iff (key ≠ "" ∧ '.' ∉ key.toList ∧ '[' ∉ key.toList)
    ⟨fun ⟨hne, hdot, hbracket⟩ => ⟨hne, hdot, hbracket⟩,
      fun h => ⟨h.ne_empty, h.noDot, h.noBracket⟩⟩

variable {key : String}

theorem member_eq_ok_iff {value found : Json} :
    value.member key = .ok found ↔ value.get? key = some found := by
  cases value with
  | obj fields =>
    unfold member get? Json.fields
    dsimp only
    cases Entries.get? fields key <;> simp
  | _ => exact ⟨nofun, nofun⟩

theorem IsPlainKey.segment? (h : IsPlainKey key) :
    segment? key.toList = some ⟨key.toList, []⟩ := by
  have htake : key.toList.takeWhile (· ≠ '[') = key.toList := by
    rw [List.takeWhile_eq_self_iff]
    exact fun c hc => decide_eq_true fun heq => h.noBracket (heq ▸ hc)
  unfold Json.segment?
  dsimp only
  rw [htake, List.drop_length]
  cases key.toList.length <;> rfl

/-- Going down by a plain key reads the member under it. -/
theorem IsPlainKey.descend (h : IsPlainKey key) (value : Json) :
    value.descend key.toList = value.member key := by
  have hne : key.toList.isEmpty = false :=
    List.isEmpty_eq_false_iff.mpr (String.toList_eq_nil_iff.not.mpr h.ne_empty)
  unfold Json.descend
  rw [h.segment?]
  dsimp only
  rw [hne, String.ofList_toList]
  cases value.member key <;> rfl

theorem descendAll_keys {keys : List String} (h : ∀ key ∈ keys, IsPlainKey key) (value : Json) :
    value.descendAll (keys.map String.toList) = keys.foldlM member value := by
  induction keys generalizing value with
  | nil => rfl
  | cons key keys ih =>
    obtain ⟨hkey, hkeys⟩ := List.forall_mem_cons.mp h
    rw [List.map_cons, descendAll, hkey.descend, List.foldlM_cons]
    exact congrArg (value.member key).bind (funext fun found => ih hkeys found)

/-- A path of plain keys leads from member to member. -/
theorem lookupAt_keys {keys : List String} (hne : keys ≠ []) (h : ∀ key ∈ keys, IsPlainKey key)
    (root : Json) :
    root.lookupAt ('$' :: '.' :: Text.join ['.'] (keys.map String.toList)) =
      keys.foldlM member root := by
  have hpieces : Text.pieces '.' (Text.join ['.'] (keys.map String.toList)) =
      keys.map String.toList := by
    refine Text.pieces_join (List.map_eq_nil_iff.not.mpr hne) fun part hpart => ?_
    obtain ⟨key, hkey, rfl⟩ := List.mem_map.mp hpart
    exact (h key hkey).noDot
  have hfull : (keys.map String.toList).any List.isEmpty = false := by
    rw [List.any_eq_false]
    intro part hpart
    obtain ⟨key, hkey, rfl⟩ := List.mem_map.mp hpart
    rw [List.isEmpty_iff, String.toList_eq_nil_iff]
    exact (h key hkey).ne_empty
  rw [lookupAt_cons root (List.cons_ne_nil '.' _), pathBody_dot, hpieces, hfull]
  exact descendAll_keys h root

end ClusterObjects.Json
