import ClusterObjects.Identity.Kind

/-! # Kinds and their texts

A kind is read back from the text that is written for it exactly if its group contains no slash
and, where the group is left out, neither does its version; so are all kinds whose group and
version contain none.
-/

namespace ClusterObjects.Gvk

/-- The group and the version contain no slash. -/
def SlashFree (gvk : Gvk) : Prop := '/' ∉ gvk.group.toList ∧ '/' ∉ gvk.version.toList

instance (gvk : Gvk) : Decidable gvk.SlashFree := inferInstanceAs (Decidable (_ ∧ _))

theorem eq_of_parts {left right : Gvk} (hgroup : left.group = right.group)
    (hversion : left.version = right.version) (hkind : left.kind = right.kind) : left = right := by
  cases left
  cases right
  simp_all

/-- A group that was read holds no slash. -/
theorem slash_not_mem_group_ofApiVersion (text kind : String) :
    '/' ∉ (ofApiVersion text kind).group.toList := by
  unfold ofApiVersion
  split
  next group version hcut =>
    rw [String.toList_ofList]
    exact (Text.cut_singleton_eq_some_iff.mp hcut).2
  next => exact List.not_mem_nil

/-- A text is read as a version and nothing else exactly if it holds no slash. -/
theorem version_ofApiVersion_iff {text kind : String} :
    (ofApiVersion text kind).version = text ↔ '/' ∉ text.toList := by
  unfold ofApiVersion
  split
  next group version hcut =>
    have htext := (Text.cut_singleton_eq_some_iff.mp hcut).1
    refine iff_of_false (fun hversion => ?_) (by simp [htext])
    have hlength := congrArg List.length (congrArg String.toList hversion)
    rw [htext, String.toList_ofList, List.length_append, List.length_cons] at hlength
    omega
  next hcut => exact iff_of_true rfl (Text.cut_singleton_eq_none_iff.mp hcut)

/-- A kind is read back from what is written for it exactly if its group holds no slash and,
where the group is left out, neither does its version. -/
theorem ofApiVersion_apiVersion_iff {gvk : Gvk} :
    ofApiVersion gvk.apiVersion gvk.kind = gvk ↔
      '/' ∉ gvk.group.toList ∧ (gvk.group = "" → '/' ∉ gvk.version.toList) := by
  obtain ⟨group, version, kind⟩ := gvk
  constructor
  · intro hsame
    refine ⟨hsame ▸ slash_not_mem_group_ofApiVersion _ _, fun hempty => ?_⟩
    obtain rfl : group = "" := hempty
    exact version_ofApiVersion_iff.mp (congrArg Gvk.version hsame)
  · rintro ⟨hgroup, hversion⟩
    by_cases hempty : group = ""
    · subst hempty
      have hcut : Text.cut ['/'] version.toList = none :=
        Text.cut_singleton_eq_none_iff.mpr (hversion rfl)
      change ofApiVersion version kind = _
      rw [ofApiVersion, hcut]
    · have hcut : Text.cut ['/'] (group ++ "/" ++ version).toList =
          some (group.toList, version.toList) := by
        refine Text.cut_singleton_eq_some_iff.mpr ⟨?_, hgroup⟩
        simp
      have hwritten : apiVersion ⟨group, version, kind⟩ = group ++ "/" ++ version :=
        if_neg fun h => hempty (String.isEmpty_iff.mp h)
      rw [hwritten, ofApiVersion, hcut]
      simp

theorem ofApiVersion_apiVersion {gvk : Gvk} (h : gvk.SlashFree) :
    ofApiVersion gvk.apiVersion gvk.kind = gvk :=
  ofApiVersion_apiVersion_iff.mpr ⟨h.1, fun _ => h.2⟩

/-- The text that a kind was read from is written again, up to a slash in front of it. -/
theorem apiVersion_ofApiVersion_cases (text kind : String) :
    text.toList.head? ≠ some '/' ∧ (ofApiVersion text kind).apiVersion = text ∨
      text.toList = '/' :: (ofApiVersion text kind).apiVersion.toList := by
  unfold ofApiVersion
  split
  next group version hcut =>
    obtain ⟨htext, hgroup⟩ := Text.cut_singleton_eq_some_iff.mp hcut
    cases group with
    | nil =>
      refine Or.inr ?_
      have hversion : apiVersion ⟨String.ofList [], String.ofList version, kind⟩ =
          String.ofList version := rfl
      rw [hversion, htext]
      simp
    | cons c rest =>
      refine Or.inl ⟨?_, ?_⟩
      · rw [htext]
        rintro ⟨⟩
        exact hgroup List.mem_cons_self
      · have hwritten : (String.ofList (c :: rest)).isEmpty = false := by
          simp [← Bool.not_eq_true, String.isEmpty_iff, ← String.toList_eq_nil_iff]
        rw [apiVersion, joinApiVersion, hwritten, ← String.toList_inj, htext]
        simp
  next hcut =>
    refine Or.inl ⟨fun hhead => ?_, rfl⟩
    exact Text.cut_singleton_eq_none_iff.mp hcut (List.mem_of_mem_head? hhead)

/-- The text that a kind was read from is written again unless it starts with a slash. -/
theorem apiVersion_ofApiVersion_iff {text kind : String} :
    (ofApiVersion text kind).apiVersion = text ↔ text.toList.head? ≠ some '/' := by
  rcases apiVersion_ofApiVersion_cases text kind with ⟨hhead, hsame⟩ | hslash
  · exact iff_of_true hsame hhead
  · refine iff_of_false (fun hsame => ?_) fun hhead => hhead (by rw [hslash]; rfl)
    have hlength := congrArg List.length hslash
    rw [hsame, List.length_cons] at hlength
    omega

/-- A text that is written again after reading and writing it twice is so after the first time. -/
theorem apiVersion_ofApiVersion_of_twice {text kind other : String}
    (h : (ofApiVersion (ofApiVersion text kind).apiVersion other).apiVersion = text) :
    (ofApiVersion text kind).apiVersion = text := by
  rcases apiVersion_ofApiVersion_cases text kind with ⟨_, hsame⟩ | hslash
  · exact hsame
  · have hlength := congrArg List.length hslash
    rw [List.length_cons] at hlength
    rcases apiVersion_ofApiVersion_cases (ofApiVersion text kind).apiVersion other with
      ⟨_, hsame⟩ | hagain
    · exact hsame.symm.trans h
    · have hshorter := congrArg List.length hagain
      rw [h, List.length_cons] at hshorter
      omega

theorem kind_ofApiVersion (text kind : String) : (ofApiVersion text kind).kind = kind := by
  unfold ofApiVersion
  split <;> rfl

/-! ## Kinds of collections and their elements -/

variable {gvk : Gvk}

/-- The name of the kind ends in a text. -/
def EndsIn (gvk : Gvk) (ending : String) : Prop := ∃ stem, gvk.kind = stem ++ ending

theorem isList_iff : gvk.isList = true ↔ gvk.EndsIn "List" := by
  rw [isList, stem?, Option.isSome_iff_exists]
  constructor
  · rintro ⟨stem, hstem⟩
    refine ⟨String.ofList stem, ?_⟩
    rw [← String.toList_inj, Text.dropSuffix?_eq_some_iff.mp hstem, String.toList_append,
      String.toList_ofList]
    rfl
  · rintro ⟨stem, hstem⟩
    refine ⟨stem.toList, Text.dropSuffix?_eq_some_iff.mpr ?_⟩
    rw [hstem, String.toList_append]
    rfl

theorem isList_eq_false_iff : gvk.isList = false ↔ ¬ gvk.EndsIn "List" := by
  rw [← isList_iff, Bool.not_eq_true]

theorem toList_of_isList (hlist : gvk.isList = true) : gvk.toList = gvk := if_pos hlist

theorem toList_of_not_isList (hlist : gvk.isList = false) :
    gvk.toList = { gvk with kind := gvk.kind ++ "List" } := by
  rw [toList, hlist]
  rfl

theorem isList_toList (gvk : Gvk) : gvk.toList.isList = true := by
  cases hlist : gvk.isList with
  | true => rwa [toList_of_isList hlist]
  | false =>
    rw [toList_of_not_isList hlist, isList_iff]
    exact ⟨gvk.kind, rfl⟩

theorem kind_toList_ne_empty (gvk : Gvk) : gvk.toList.kind ≠ "" := by
  obtain ⟨stem, hkind⟩ := isList_iff.mp gvk.isList_toList
  intro hempty
  exact absurd (String.append_eq_empty_iff.mp (hkind.symm.trans hempty)).2 (by decide)

theorem kind_toItem_ne_empty {gvk : Gvk} (h : gvk.kind ≠ "") : gvk.toItem.kind ≠ "" := by
  unfold toItem
  split
  next c stem hstem =>
    intro hempty
    have hnil := String.toList_eq_nil_iff.mpr hempty
    simp at hnil
  next => exact h

/-- The elements of a collection have a kind, of the group and the version of the collection. -/
theorem toItem_toList (gvk : Gvk) :
    gvk.toList.toItem.group = gvk.group ∧ gvk.toList.toItem.version = gvk.version ∧
      gvk.toList.toItem.kind ≠ "" := by
  have hlist : gvk.toList.group = gvk.group ∧ gvk.toList.version = gvk.version := by
    unfold toList
    split <;> exact ⟨rfl, rfl⟩
  refine ⟨?_, ?_, kind_toItem_ne_empty gvk.kind_toList_ne_empty⟩
  · rw [← hlist.1]
    unfold toItem
    split <;> rfl
  · rw [← hlist.2]
    unfold toItem
    split <;> rfl

/-- The elements of a collection of the same name are the collection itself. -/
theorem toItem_eq_of_kind_eq {gvk : Gvk} (h : gvk.kind = gvk.toItem.kind) : gvk.toItem = gvk := by
  refine eq_of_parts ?_ ?_ h.symm <;>
  · unfold toItem
    split <;> rfl

theorem toItem_of_not_isList {gvk : Gvk} (hlist : gvk.isList = false) : gvk.toItem = gvk := by
  have hstem : gvk.stem? = none := Option.not_isSome_iff_eq_none.mp (Bool.eq_false_iff.mp hlist)
  rw [toItem, hstem]

theorem toItem_of_kind_eq_empty {gvk : Gvk} (h : gvk.kind = "") : gvk.toItem = gvk := by
  refine toItem_of_not_isList ?_
  rw [isList, stem?, h]
  rfl

theorem toItem_of_stem? {gvk : Gvk} {c : Char} {stem : List Char}
    (h : gvk.stem? = some (c :: stem)) :
    gvk.toItem = { gvk with kind := String.ofList (c :: stem) } := by
  rw [toItem, h]

theorem toItem_of_kind_eq_append {gvk : Gvk} {stem : String} (hstem : stem ≠ "")
    (h : gvk.kind = stem ++ "List") : gvk.toItem = { gvk with kind := stem } := by
  have hfound : gvk.stem? = some stem.toList := by
    rw [stem?, Text.dropSuffix?_eq_some_iff, h, String.toList_append]
    rfl
  cases hchars : stem.toList with
  | nil => exact absurd (String.toList_eq_nil_iff.mp hchars) hstem
  | cons c rest =>
    rw [hchars] at hfound
    rw [toItem_of_stem? hfound, ← hchars, String.ofList_toList]

/-- The kind that is named for collections alone is that of its own elements. -/
theorem toItem_of_kind_eq_list {gvk : Gvk} (h : gvk.kind = "List") : gvk.toItem = gvk := by
  have hstem : gvk.stem? = some [] := by
    rw [stem?, Text.dropSuffix?_eq_some_iff, h]
    rfl
  rw [toItem, hstem]

theorem toItem_toList_of_kind_eq_list {gvk : Gvk} (h : gvk.kind = "List") :
    gvk.toList.toItem = gvk := by
  have hlist : gvk.isList = true := isList_iff.mpr ⟨"", h.trans String.empty_append.symm⟩
  rw [toList_of_isList hlist, toItem_of_kind_eq_list h]

/-- A kind that names no collection is that of the elements of its collection. -/
theorem toItem_toList_of_not_isList {gvk : Gvk} (hnamed : gvk.kind ≠ "")
    (hlist : gvk.isList = false) : gvk.toList.toItem = gvk := by
  rw [toList_of_not_isList hlist, toItem_of_kind_eq_append hnamed rfl]

theorem SlashFree.toItem {gvk : Gvk} (h : gvk.SlashFree) : gvk.toItem.SlashFree := by
  unfold Gvk.toItem
  split
  · exact h
  · exact h

end ClusterObjects.Gvk
