import ClusterObjects.Proofs.Json.WellFormed

/-! # Differences between documents

What the patch from one document to another holds under each key, and what it
makes of a third document there. The patch mentions a key only if the two
documents differ under it.
-/

namespace ClusterObjects.Json

/-- What the patch to `new` holds under the key of a value, given what was found there. -/
def change? (found : Option Json) (new : Json) : Option Json :=
  match found with
  | none => some new
  | some old =>
    if old.same new then none
    else if old.isObject && new.isObject then
      if (old.diff new).fields.isEmpty then none else some (old.diff new)
    else some new

theorem isObject_diff {old new : Json} (hnew : new.isObject = true) :
    (old.diff new).isObject = true := by
  cases new with
  | obj fields => cases old <;> rfl
  | _ => contradiction

theorem diff_ne_null {old new : Json} (h : new ≠ .null) : old.diff new ≠ .null := by
  cases new with
  | null => contradiction
  | obj fields => cases old <;> simp [diff]
  | _ => exact h

/-- If the patch mentions the key, it holds the patch from what was found there to the new
value; what is absent counts as null. -/
theorem change?_eq_some {found : Option Json} {new patch : Json}
    (h : change? found new = some patch) : patch = (found.getD .null).diff new := by
  cases found with
  | none =>
    obtain rfl := Option.some.inj h
    cases new <;> rfl
  | some old =>
    simp only [change?] at h
    split at h
    · contradiction
    · split at h
      · split at h
        · contradiction
        · exact (Option.some.inj h).symm
      next hobjects =>
        obtain rfl := Option.some.inj h
        cases old with
        | obj =>
          cases new with
          | obj => exact absurd rfl hobjects
          | _ => rfl
        | _ => cases new <;> rfl

/-- The patch leaves a key out only if the values there are equal or their patch is empty. -/
theorem change?_eq_none {found : Option Json} {new : Json} (h : change? found new = none) :
    ∃ old, found = some old ∧
      (old.same new = true ∨
        old.isObject = true ∧ new.isObject = true ∧ old.diff new = .obj []) := by
  cases found with
  | none => contradiction
  | some old =>
    refine ⟨old, rfl, ?_⟩
    simp only [change?] at h
    split at h
    next hsame => exact Or.inl hsame
    next =>
      split at h
      next hobjects =>
        obtain ⟨hold, hnew⟩ := Bool.and_eq_true_iff.mp hobjects
        split at h
        next hempty =>
          refine Or.inr ⟨hold, hnew, ?_⟩
          rw [eq_obj_of_isObject (isObject_diff hnew), List.isEmpty_iff.mp hempty]
        next => contradiction
      next => contradiction

theorem diffField_eq (old : Fields) (key : String) (new : Json) :
    diffField old (key, new) = (change? (old.get? key) new).map fun patch => (key, patch) := by
  rw [diffField]
  cases hfound : old.get? key with
  | none => rfl
  | some found =>
    simp only [change?]
    split
    · rfl
    · split
      · split <;> rfl
      · rfl

/-- A key of the patch is a key of the new document. -/
theorem fst_mem_of_mem_diffFields {old : Fields} {new : List (String × Json)}
    {field : String × Json} (h : field ∈ diffFields old new) :
    ∃ other ∈ new, other.1 = field.1 := by
  induction new with
  | nil => contradiction
  | cons head rest ih =>
    obtain ⟨key, value⟩ := head
    rw [diffFields, diffField_eq] at h
    cases hchange : change? (old.get? key) value with
    | none =>
      rw [hchange] at h
      obtain ⟨other, hother, heq⟩ := ih h
      exact ⟨other, List.mem_cons_of_mem _ hother, heq⟩
    | some patch =>
      rw [hchange] at h
      rcases List.mem_cons.mp h with rfl | h
      · exact ⟨(key, value), List.mem_cons_self, rfl⟩
      · obtain ⟨other, hother, heq⟩ := ih h
        exact ⟨other, List.mem_cons_of_mem _ hother, heq⟩

theorem ascending_diffFields (old : Fields) {new : Fields} (hnew : new.Ascending) :
    (diffFields old new).Ascending := by
  induction new with
  | nil => exact List.Pairwise.nil
  | cons head rest ih =>
    obtain ⟨key, value⟩ := head
    obtain ⟨hhead, hrest⟩ := List.pairwise_cons.mp hnew
    rw [diffFields, diffField_eq]
    cases hchange : change? (old.get? key) value with
    | none => exact ih hrest
    | some patch =>
      refine List.pairwise_cons.mpr ⟨?_, ih hrest⟩
      intro field hfield
      obtain ⟨other, hother, heq⟩ := fst_mem_of_mem_diffFields hfield
      exact heq ▸ hhead other hother

theorem get?_diffFields (old : Fields) {new : Fields} (hnew : new.Ascending) (key : String) :
    Entries.get? (diffFields old new) key = (new.get? key).bind (change? (old.get? key)) := by
  induction new with
  | nil => rfl
  | cons head rest ih =>
    obtain ⟨k, value⟩ := head
    obtain ⟨hhead, hrest⟩ := List.pairwise_cons.mp hnew
    have hbelow : Entries.get? rest k = none := Entries.get?_eq_none_of_lt hhead
    rw [diffFields, diffField_eq, Entries.get?_cons]
    by_cases hk : k = key
    · subst hk
      rw [if_pos rfl, Option.bind_some]
      cases hchange : change? (old.get? k) value with
      | none =>
        change Entries.get? (diffFields old rest) k = none
        rw [ih hrest, hbelow]
        rfl
      | some patch =>
        change Entries.get? ((k, patch) :: diffFields old rest) k = some patch
        rw [Entries.get?_cons, if_pos rfl]
    · rw [if_neg hk]
      cases hchange : change? (old.get? k) value with
      | none => exact ih hrest
      | some patch =>
        change Entries.get? ((k, patch) :: diffFields old rest) key = _
        rw [Entries.get?_cons, if_neg hk]
        exact ih hrest

/-! ## Removals -/

theorem mem_removals {old new : Fields} (hold : old.Ascending) {key : String} :
    key ∈ removals old new ↔ (old.get? key).isSome = true ∧ new.get? key = none := by
  unfold removals
  rw [List.mem_map, Option.isSome_iff_exists]
  constructor
  · rintro ⟨field, hfield, rfl⟩
    obtain ⟨hmem, hnew⟩ := List.mem_filter.mp hfield
    refine ⟨⟨field.2, (Entries.get?_eq_some_iff hold).mpr hmem⟩, ?_⟩
    simpa [Entries.contains] using hnew
  · rintro ⟨⟨value, hvalue⟩, hnew⟩
    refine ⟨(key, value), List.mem_filter.mpr ⟨(Entries.get?_eq_some_iff hold).mp hvalue, ?_⟩, rfl⟩
    simp [Entries.contains, hnew]

theorem get?_foldl_removal (keys : List String) (patch : Fields) (key : String) :
    Entries.get? (keys.foldl (fun patch key => Entries.insert patch key .null) patch) key =
      if key ∈ keys then some .null else patch.get? key := by
  induction keys generalizing patch with
  | nil => simp
  | cons first rest ih =>
    rw [List.foldl_cons, ih, Entries.get?_insert]
    by_cases hrest : key ∈ rest
    · simp [hrest]
    · by_cases hfirst : first = key
      · simp [hfirst]
      · simp [hrest, hfirst, Ne.symm hfirst]

theorem ascending_foldl_removal (keys : List String) {patch : Fields} (h : patch.Ascending) :
    Entries.Ascending (keys.foldl (fun patch key => Entries.insert patch key .null) patch) := by
  induction keys generalizing patch with
  | nil => exact h
  | cons first rest ih => exact ih (h.insert first .null)

/-! ## The patch under a key -/

theorem diff_nil (new : Fields) : diffFields [] new = new := by
  induction new with
  | nil => rfl
  | cons field rest ih => rw [diffFields, diffField_eq, ih]; rfl

/-- Against anything but an object, the patch to an object is the one from no members. -/
theorem diff_obj_eq (old : Json) (new : Fields) :
    old.diff (.obj new) = (obj old.fields).diff (.obj new) := by
  cases old with
  | obj => rfl
  | _ => change obj new = obj (diffFields [] new); rw [diff_nil]

/-- A key of the new document holds its change, if there is one; a key that only the
old document has holds null. -/
theorem get?_diff {old : Json} {new : Fields} (hold : old.fields.Ascending)
    (hnew : new.Ascending) (key : String) :
    (old.diff (.obj new)).get? key =
      match new.get? key with
      | some value => change? (old.get? key) value
      | none => (old.get? key).map fun _ => .null := by
  rw [diff_obj_eq, diff, Json.get?, Json.fields, get?_foldl_removal, get?_diffFields _ hnew]
  cases hvalue : new.get? key with
  | some value =>
    have hnot : key ∉ removals old.fields new := by
      rw [mem_removals hold, hvalue]
      simp
    rw [if_neg hnot, Option.bind_some]
    rfl
  | none =>
    rw [Json.get?]
    cases hfound : Entries.get? old.fields key with
    | none =>
      have hnot : key ∉ removals old.fields new := by
        rw [mem_removals hold, hfound]
        simp
      rw [if_neg hnot]
      rfl
    | some found =>
      have hmem : key ∈ removals old.fields new := by
        rw [mem_removals hold, hfound, hvalue]
        exact ⟨rfl, rfl⟩
      rw [if_pos hmem]
      rfl

theorem ascending_fields_diff (old : Json) {new : Fields} (hnew : new.Ascending) :
    (old.diff (.obj new)).fields.Ascending := by
  rw [diff_obj_eq, diff, Json.fields]
  exact ascending_foldl_removal _ (ascending_diffFields old.fields hnew)

/-- The patch between well-formed documents is well formed. -/
theorem WellFormed.diff {old new : Json} (hold : old.WellFormed) (hnew : new.WellFormed) :
    (old.diff new).WellFormed := by
  induction new using object_induction generalizing old with
  | other new hother => rwa [diff_of_not_isObject hother]
  | obj new ih =>
    rw [eq_obj_of_isObject (isObject_diff rfl)]
    refine wellFormed_obj_iff.mpr ⟨ascending_fields_diff old hnew.ascending, ?_⟩
    intro key value hvalue
    change (old.diff (.obj new)).get? key = some value at hvalue
    rw [get?_diff hold.ascending_fields hnew.ascending] at hvalue
    cases hmember : Entries.get? new key with
    | none =>
      rw [hmember] at hvalue
      obtain ⟨_, _, rfl⟩ := Option.map_eq_some_iff.mp hvalue
      trivial
    | some member =>
      simp only [hmember] at hvalue
      have hmem := (Entries.get?_eq_some_iff hnew.ascending).mp hmember
      rw [change?_eq_some hvalue]
      exact ih (key, member) hmem (hold.getD_get? key)
        (hnew.member hmember)

/-! ## A patch on a third document -/

/-- What the patch from one value to another makes of a third one. -/
def merged (stored old new : Option Json) : Option Json :=
  match new with
  | none => if old.isSome then none else stored
  | some value =>
    match change? old value with
    | none => stored
    | some patch => patched stored patch

/-- The patch to an object acts on a third document key by key. -/
theorem get?_applyPatch_diff {stored old : Json} {new : Fields} (hstored : stored.WellFormed)
    (hold : old.WellFormed) (hnew : (obj new).WellFormed) (key : String) :
    (stored.applyPatch (old.diff (.obj new))).get? key =
      merged (stored.get? key) (old.get? key) (new.get? key) := by
  have hdiff := hold.diff hnew
  rw [eq_obj_of_isObject (@isObject_diff old (obj new) rfl)] at hdiff ⊢
  rw [get?_applyPatch hstored hdiff]
  change (match (old.diff (.obj new)).get? key with
    | none => stored.get? key
    | some member => patched (stored.get? key) member) = _
  rw [get?_diff hold.ascending_fields hnew.ascending]
  unfold merged
  cases new.get? key with
  | some value => rfl
  | none => cases old.get? key <;> rfl

/-- The patch to an object makes an object of any document. -/
theorem applyPatch_diff_eq_obj (stored old : Json) (new : Fields) :
    stored.applyPatch (old.diff (.obj new)) =
      .obj (stored.applyPatch (old.diff (.obj new))).fields := by
  rw [eq_obj_of_isObject (@isObject_diff old (obj new) rfl)]
  rfl

theorem patched_of_ne_null {found : Option Json} {patch : Json} (h : patch ≠ .null) :
    patched found patch = some ((found.getD .null).applyPatch patch) := by
  cases patch with
  | null => contradiction
  | _ => rfl

/-- Under a key that the new document has, the third one keeps its value or gets it patched;
what is absent counts as null. -/
theorem merged_some {old : Option Json} {value : Json} (h : value ≠ .null)
    (stored : Option Json) :
    merged stored old (some value) = stored ∧ change? old value = none ∨
      merged stored old (some value) =
        some ((stored.getD .null).applyPatch ((old.getD .null).diff value)) := by
  simp only [merged]
  cases hchange : change? old value with
  | none => exact Or.inl ⟨rfl, rfl⟩
  | some patch =>
    refine Or.inr ?_
    change patched stored patch = _
    rw [change?_eq_some hchange, patched_of_ne_null (diff_ne_null h)]

/-- Under a key the third document loses its value, keeps it or gets it patched. -/
theorem merged_cases (stored old : Option Json) {new : Option Json}
    (h : ∀ value ∈ new, value ≠ .null) :
    new = none ∧ merged stored old new = none ∨ merged stored old new = stored ∨
      ∃ value ∈ new, merged stored old new =
        some ((stored.getD .null).applyPatch ((old.getD .null).diff value)) := by
  cases new with
  | none =>
    cases old with
    | none => exact Or.inr (Or.inl rfl)
    | some found => exact Or.inl ⟨rfl, rfl⟩
  | some value =>
    rcases @merged_some old value (h value rfl) stored with ⟨heq, _⟩ | heq
    · exact Or.inr (Or.inl heq)
    · exact Or.inr (Or.inr ⟨value, rfl, heq⟩)

/-- A text is kept or replaced as a whole. -/
theorem merged_str (stored old : Option Json) (text : String) :
    merged stored old (some (.str text)) = stored ∨
      merged stored old (some (.str text)) = some (.str text) := by
  rcases @merged_some old (.str text) str_ne_null stored with ⟨heq, _⟩ | heq
  · exact Or.inl heq
  · exact Or.inr heq

end ClusterObjects.Json
