import ClusterObjects.Proofs.Identity.Kind

/-! # From kinds to collections and back

The kind of a collection is its own collection's. A kind comes back from its collection if it has
a name and is not a collection's, or if it is the kind named `List` alone, which stands for its own
elements. A collection comes back from its elements unless these are collections once more.
-/

namespace ClusterObjects.Gvk

variable {gvk : Gvk}

/-- A kind is that of no collection, or is named for collections alone, or is that of the
collections of something. -/
theorem isList_eq_false_or_eq_append (gvk : Gvk) :
    gvk.isList = false ∨ gvk.kind = "List" ∨ ∃ stem ≠ "", gvk.kind = stem ++ "List" := by
  cases hlist : gvk.isList with
  | false => exact Or.inl rfl
  | true =>
    obtain ⟨stem, hstem⟩ := isList_iff.mp hlist
    by_cases hempty : stem = ""
    · exact Or.inr (Or.inl (by rw [hstem, hempty, String.empty_append]))
    · exact Or.inr (Or.inr ⟨stem, hempty, hstem⟩)

/-- The elements of a collection are not the collection. -/
theorem ne_of_kind_eq_append {stem : String} (h : gvk.kind = stem ++ "List") :
    { gvk with kind := stem } ≠ gvk := by
  intro hsame
  have hlonger : stem = stem ++ "List" := (congrArg Gvk.kind hsame).trans h
  exact absurd (String.append_eq_left_iff.mp hlonger.symm) (by decide)

/-! ## Endings of endings -/

theorem append_listList (front : String) : front ++ "ListList" = front ++ "List" ++ "List" := by
  rw [String.append_assoc]
  rfl

theorem endsIn_listList_iff {stem : String} (h : gvk.kind = stem ++ "List") :
    gvk.EndsIn "ListList" ↔ EndsIn { gvk with kind := stem } "List" := by
  refine exists_congr fun front => ?_
  rw [h, append_listList, String.append_left_inj]

/-- A kind that ends in the ending of a collection twice ends in it once. -/
theorem EndsIn.list (h : gvk.EndsIn "ListList") : gvk.EndsIn "List" := by
  obtain ⟨front, hkind⟩ := h
  exact ⟨front ++ "List", hkind.trans (append_listList front)⟩

/-! ## There and back -/

/-- The kind is that of the elements of its collection exactly if it has a name and is not that of
a collection, or is named for collections alone. -/
theorem toItem_toList_eq_self_iff :
    gvk.toList.toItem = gvk ↔
      gvk.kind ≠ "" ∧ ¬ gvk.EndsIn "List" ∨ gvk.kind = "List" := by
  rcases gvk.isList_eq_false_or_eq_append with hlist | hkind | ⟨stem, hstem, hkind⟩
  · have hname : gvk.kind ≠ "List" := fun hname =>
      isList_eq_false_iff.mp hlist ⟨"", by rw [hname, String.empty_append]⟩
    rw [or_iff_left hname, and_iff_left (isList_eq_false_iff.mp hlist)]
    refine ⟨fun hsame hempty => ?_, fun hnamed => toItem_toList_of_not_isList hnamed hlist⟩
    exact gvk.toItem_toList.2.2 (by rw [hsame, hempty])
  · exact iff_of_true (toItem_toList_of_kind_eq_list hkind) (Or.inr hkind)
  · have hends : gvk.EndsIn "List" := ⟨stem, hkind⟩
    rw [toList_of_isList (isList_iff.mpr hends), toItem_of_kind_eq_append hstem hkind]
    refine iff_of_false (ne_of_kind_eq_append hkind) ?_
    rintro (⟨_, hnot⟩ | hname)
    · exact hnot hends
    · exact hstem (String.append_eq_right_iff.mp (hkind.symm.trans hname))

/-- The collection comes back from the elements exactly if these are no collections. -/
theorem toList_toItem_eq_toList_iff :
    gvk.toItem.toList = gvk.toList ↔ ¬ gvk.EndsIn "ListList" := by
  rcases gvk.isList_eq_false_or_eq_append with hlist | hkind | ⟨stem, hstem, hkind⟩
  · rw [toItem_of_not_isList hlist]
    exact iff_of_true rfl fun htwice => isList_eq_false_iff.mp hlist htwice.list
  · rw [toItem_of_kind_eq_list hkind]
    refine iff_of_true rfl fun ⟨front, htwice⟩ => ?_
    have hnothing : front ++ "List" = "" := String.append_eq_right_iff.mp
      ((append_listList front).symm.trans (htwice.symm.trans hkind))
    exact absurd (String.append_eq_empty_iff.mp hnothing).2 (by decide)
  · have hlist : gvk.isList = true := isList_iff.mpr ⟨stem, hkind⟩
    rw [toItem_of_kind_eq_append hstem hkind, toList_of_isList hlist, endsIn_listList_iff hkind,
      ← isList_iff]
    cases hitem : isList { gvk with kind := stem } with
    | true =>
      rw [toList_of_isList hitem]
      exact iff_of_false (ne_of_kind_eq_append hkind) (not_not_intro rfl)
    | false =>
      rw [toList_of_not_isList hitem]
      exact iff_of_true (eq_of_parts rfl rfl hkind.symm) Bool.false_ne_true

/-- To name the collections of a kind is idempotent and gives the kind of a collection. The kind
comes back from it exactly if it has a name without the ending of a collection or is that ending,
and the kind of the collection comes back from that of its elements exactly if it does not have
this ending twice. -/
theorem conversions_exact (gvk : Gvk) :
    gvk.toList.toList = gvk.toList ∧ gvk.toList.isList = true ∧
      (gvk.toList.toItem = gvk ↔
        gvk.kind ≠ "" ∧ ¬ gvk.EndsIn "List" ∨ gvk.kind = "List") ∧
      (gvk.toItem.toList = gvk.toList ↔ ¬ gvk.EndsIn "ListList") :=
  ⟨toList_of_isList gvk.isList_toList, gvk.isList_toList, toItem_toList_eq_self_iff,
    toList_toItem_eq_toList_iff⟩

end ClusterObjects.Gvk
