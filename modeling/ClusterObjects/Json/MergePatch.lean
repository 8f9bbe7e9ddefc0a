import ClusterObjects.Json.Basic

/-! # Merge patches

A merge patch is a document that describes a change of another: a member that
is null removes the member of that key, an object descends, and anything else
replaces. `applyPatch` carries a patch out, key by key (`get?_applyFields`);
`diff` computes a patch that leads from one document to another and mentions
only what differs.
-/

namespace ClusterObjects.Json

mutual
/-- The target after a merge patch. A patch that is no object replaces the
target; a target that is no object counts as an empty one. -/
def applyPatch (target : Json) : Json → Json
  | .obj patch => .obj (applyFields target.fields patch)
  | patch => patch
termination_by structural patch => patch

/-- The members of the target after the members of a patch, one by one. -/
def applyFields (target : Fields) : List (String × Json) → Fields
  | [] => target
  | field :: patch => applyFields (applyField target field) patch
termination_by structural patch => patch

/-- The members of the target after one member of a patch. -/
def applyField (target : Fields) : String × Json → Fields
  | (key, .null) => target.erase key
  | (key, patch) => target.insert key (applyPatch ((target.get? key).getD .null) patch)
termination_by structural field => field
end

/-- The members of `old` that `new` does not have, each to be removed. -/
def removals (old new : Fields) : List String :=
  (old.filter fun field => !Entries.contains new field.1).map (·.1)

mutual
/-- The patch from `old` to `new`. Two objects are compared member by member;
otherwise the patch is `new` itself. -/
def diff (old : Json) : Json → Json
  | .obj new =>
    match old with
    | .obj fields =>
      .obj ((removals fields new).foldl (fun patch key => Entries.insert patch key .null)
        (diffFields fields new))
    | _ => .obj new
  | new => new
termination_by structural new => new

/-- The members of the patch for the members of `new`. -/
def diffFields (old : Fields) : List (String × Json) → Fields
  | [] => []
  | field :: new =>
    match diffField old field with
    | some change => change :: diffFields old new
    | none => diffFields old new
termination_by structural new => new

/-- The member of the patch for one member of `new`: none if `old` holds the same
value, a nested patch if both are objects and it is not empty, and the new value
otherwise. -/
def diffField (old : Fields) : String × Json → Option (String × Json)
  | (key, new) =>
    match old.get? key with
    | none => some (key, new)
    | some value =>
      if value.same new then none
      else if value.isObject && new.isObject then
        let nested := diff value new
        if nested.fields.isEmpty then none else some (key, nested)
      else some (key, new)
termination_by structural field => field
end

/-- The value under a key after the member of a patch for that key. -/
def patched (found : Option Json) : Json → Option Json
  | .null => none
  | patch => some (applyPatch (found.getD .null) patch)

/-- A member of a patch changes the value under its own key and no other. -/
theorem get?_applyField {target : Fields} (h : target.Ascending) (key other : String)
    (patch : Json) :
    Entries.get? (applyField target (key, patch)) other =
      if key = other then patched (target.get? key) patch else target.get? other := by
  cases patch with
  | null => rw [applyField, Entries.get?_erase h, patched]
  | _ =>
    rw [applyField, Entries.get?_insert]
    · rfl
    · intro heq
      contradiction

/-- A member of a patch keeps the keys ascending. -/
theorem ascending_applyField {target : Fields} (h : target.Ascending) (field : String × Json) :
    Entries.Ascending (applyField target field) := by
  obtain ⟨key, patch⟩ := field
  cases patch with
  | null => exact h.erase key
  | _ =>
    rw [applyField]
    · exact h.insert key _
    · intro heq
      contradiction

/-- A patch keeps the keys ascending. -/
theorem ascending_applyFields {target : Fields} (h : target.Ascending)
    (patch : List (String × Json)) : Entries.Ascending (applyFields target patch) := by
  induction patch generalizing target with
  | nil => exact h
  | cons field patch ih => exact ih (ascending_applyField h field)

/-- Under each key a patch leaves what its member for that key makes of it, and a key
without such a member keeps its value. -/
theorem get?_applyFields {target patch : Fields} (htarget : target.Ascending)
    (hpatch : patch.Ascending) (key : String) :
    Entries.get? (applyFields target patch) key =
      match patch.get? key with
      | none => target.get? key
      | some member => patched (target.get? key) member := by
  induction patch generalizing target with
  | nil => rfl
  | cons field patch ih =>
    obtain ⟨k, member⟩ := field
    obtain ⟨hfirst, hrest⟩ := List.pairwise_cons.mp hpatch
    rw [applyFields, ih (ascending_applyField htarget (k, member)) hrest,
      get?_applyField htarget, Entries.get?_cons]
    by_cases h : k = key
    · subst h
      rw [Entries.get?_eq_none_of_lt hfirst]
      simp
    · simp [h]

end ClusterObjects.Json
