import ClusterObjects.Proofs.Store.Run

/-! # What a selection shows

What a store shows of a selection is changed only by a write that is carried out, under
its key. Most writes tell this by the value that they store or remove: if the selection
includes it, the object is shown from then on or no longer. One kind does not: a write
that stores a value outside the selection hides the object that was shown under its
key, which stays in the store.
-/

namespace ClusterObjects

theorem Selection.gvk_eq_of_includes {selection : Selection} {key : Key} {value : Json}
    (h : selection.includes key value = true) : key.gvk = selection.gvk := by
  unfold Selection.includes at h
  have hgvk := (Bool.and_eq_true_iff.mp (Bool.and_eq_true_iff.mp h).1).1
  exact beq_iff_eq.mp hgvk

/-- The elements that the values shown are loaded as, if all of them can be. -/
theorem Collection.loadAll_eq_ok {collection : Collection} {values : List Json}
    (h : ∀ value ∈ values, ∃ object, collection.newItem.load value = .ok object) :
    collection.loadAll values =
      .ok (values.filterMap fun value => (collection.newItem.load value).toOption) := by
  induction values with
  | nil => rfl
  | cons value rest ih =>
    obtain ⟨⟨object, hobject⟩, hrest⟩ := List.forall_mem_cons.mp h
    rw [Collection.loadAll, hobject, ih hrest, List.filterMap_cons, hobject]
    rfl

/-- Values can be loaded as a collection exactly if each of them can. -/
theorem Collection.exists_loadAll_iff {collection : Collection} {values : List Json} :
    (∃ items, collection.loadAll values = .ok items) ↔
      ∀ value ∈ values, ∃ object, collection.newItem.load value = .ok object := by
  refine ⟨fun h => ?_, fun h => ⟨_, Collection.loadAll_eq_ok h⟩⟩
  induction values with
  | nil => exact List.forall_mem_nil _
  | cons value rest ih =>
    obtain ⟨items, hitems⟩ := h
    rw [Collection.loadAll] at hitems
    split at hitems
    · contradiction
    next object hobject =>
      split at hitems
      · contradiction
      next others hothers =>
        exact List.forall_mem_cons.mpr ⟨⟨object, hobject⟩, ih ⟨others, hothers⟩⟩

namespace Store

theorem gvk_of_selectionOf {collection : Collection} {options : ListOptions}
    {selection : Selection} (h : selectionOf collection options = .ok selection) :
    selection.gvk = collection.itemGvk := by
  unfold selectionOf at h
  split at h
  · rw [← Except.ok.inj h]
  · contradiction

variable {store : Store} {selection : Selection} {key : Key} {writes : List Write}

/-- What a deletion removes is what is stored. -/
theorem stored_of_deleted {write : Write} {change : Change}
    (h : store.admitWrite write = .ok change) (hdeleted : change.type = .deleted) :
    store.items.get? change.key = some change.value := by
  rw [type_of_admitWrite h] at hdeleted
  cases write with
  | delete object =>
    obtain ⟨_, _, _, hstored, rfl⟩ := admitDelete_eq_ok h
    exact hstored
  | _ => contradiction

/-- The value stored under a key, if a selection includes it. -/
def shown? (store : Store) (selection : Selection) (key : Key) : Option Json :=
  (store.items.get? key).filter (selection.includes key)

/-- The entries that a selection includes. -/
def shown (store : Store) (selection : Selection) : Entries Key Json :=
  store.items.filter fun entry => selection.includes entry.1 entry.2

theorem selected_eq (store : Store) (selection : Selection) :
    store.selected selection = (store.shown selection).map (·.2) := rfl

theorem get?_shown (h : store.Sound) (selection : Selection) (key : Key) :
    (store.shown selection).get? key = store.shown? selection key :=
  Entries.get?_filter h.ascending _ key

theorem shown?_eq_some_iff {value : Json} :
    store.shown? selection key = some value ↔
      store.items.get? key = some value ∧ selection.includes key value = true :=
  Option.filter_eq_some_iff

/-- The values of a selection are those that are shown under some key. -/
theorem mem_selected (h : store.items.Ascending) {value : Json} :
    value ∈ store.selected selection ↔ ∃ key, store.shown? selection key = some value := by
  rw [selected_eq, List.mem_map]
  constructor
  · rintro ⟨⟨key, value⟩, hentry, rfl⟩
    obtain ⟨hmem, hincludes⟩ := List.mem_filter.mp hentry
    exact ⟨key, shown?_eq_some_iff.mpr ⟨(Entries.get?_eq_some_iff h).mpr hmem, hincludes⟩⟩
  · rintro ⟨key, hshown⟩
    obtain ⟨hstored, hincludes⟩ := shown?_eq_some_iff.mp hshown
    exact ⟨(key, value), List.mem_filter.mpr ⟨(Entries.get?_eq_some_iff h).mp hstored, hincludes⟩,
      rfl⟩

theorem shown?_commit (h : store.items.Ascending) (change : Change) :
    (store.commit change).shown? selection key =
      if change.key = key then
        if change.type = .deleted ∨ selection.includes key change.value = false then none
        else some change.value
      else store.shown? selection key := by
  rw [shown?, get?_items_commit h]
  by_cases hkey : change.key = key
  · by_cases hdeleted : change.type = .deleted
    · simp [hkey, hdeleted]
    · cases hincludes : selection.includes key change.value <;> simp [hkey, hdeleted, hincludes]
  · rw [if_neg hkey, if_neg hkey, shown?]

/-- A write takes the object under a key out of the selection but leaves it in the store. -/
structure Withdraws (selection : Selection) (key : Key) (store : Store) (write : Write) :
    Prop where
  shown : (store.shown? selection key).isSome
  kept : ((store.write write).store.items.get? key).isSome
  hidden : (store.write write).store.shown? selection key = none

/-- A run takes the object under a key out of the selection but leaves it in the store, and after
that makes no change there to a value in the selection. -/
def Strands (selection : Selection) (key : Key) (store : Store) (writes : List Write) : Prop :=
  ∃ earlier write later, writes = earlier ++ write :: later ∧
    (store.after earlier).Withdraws selection key write ∧
    ∀ change ∈ (store.after (earlier ++ [write])).log later,
      change.key = key → selection.includes key change.value = false

theorem not_strands_nil : ¬ store.Strands selection key [] := by
  rintro ⟨earlier, write, later, heq, _⟩
  simp at heq

/-- What one more write does to an object that a run has taken out of the selection. -/
theorem strands_append_singleton (write : Write) :
    store.Strands selection key (writes ++ [write]) ↔
      (store.after writes).Withdraws selection key write ∨
        store.Strands selection key writes ∧
          ∀ change ∈ ((store.after writes).write write).published,
            change.key = key → selection.includes key change.value = false := by
  constructor
  · rintro ⟨earlier, first, later, heq, hwithdraws, hsilent⟩
    rcases later.eq_nil_or_concat with rfl | ⟨front, last, rfl⟩
    · obtain ⟨rfl, hlast⟩ := List.append_inj' heq rfl
      obtain rfl := List.head_eq_of_cons_eq hlast
      exact Or.inl hwithdraws
    · rw [List.concat_eq_append, ← List.cons_append, ← List.append_assoc] at heq
      obtain ⟨rfl, hlast⟩ := List.append_inj' heq rfl
      obtain rfl := List.head_eq_of_cons_eq hlast
      rw [List.concat_eq_append, log_append] at hsilent
      refine Or.inr ⟨⟨earlier, first, front, rfl, hwithdraws, fun change hchange => ?_⟩,
        fun change hchange => ?_⟩
      · exact hsilent change (List.mem_append_left _ hchange)
      · refine hsilent change (List.mem_append_right _ ?_)
        rw [← after_append, List.append_assoc, List.singleton_append, log]
        exact List.mem_append_left _ (Option.mem_toList.mpr hchange)
  · rintro (hwithdraws | ⟨⟨earlier, first, later, rfl, hwithdraws, hsilent⟩, hlast⟩)
    · exact ⟨writes, write, [], rfl, hwithdraws, List.forall_mem_nil _⟩
    · refine ⟨earlier, first, later ++ [write], List.append_assoc _ _ _, hwithdraws, ?_⟩
      rw [log_append, List.forall_mem_append]
      refine ⟨hsilent, fun change hchange => hlast change ?_⟩
      rw [← after_append, List.append_assoc, List.singleton_append, log, log,
        List.append_nil] at hchange
      exact Option.mem_toList.mp hchange

/-- A write that is refused takes nothing out of the selection. -/
theorem strands_of_refused {write : Write} {e : StoreError}
    (h : (store.after writes).admitWrite write = .error e) :
    store.Strands selection key (writes ++ [write]) ↔ store.Strands selection key writes := by
  rw [strands_append_singleton, write_of_refused h]
  constructor
  · rintro (hwithdraws | ⟨hstrands, _⟩)
    · have hshown := hwithdraws.shown
      have hhidden := hwithdraws.hidden
      rw [write_of_refused h] at hhidden
      rw [show (store.after writes).shown? selection key = none from hhidden] at hshown
      contradiction
    · exact hstrands
  · exact fun hstrands => Or.inr ⟨hstrands, nofun⟩

/-- A write that is carried out takes an object out of the selection if it stores a value there
that is not in it, and one that had been taken out before stays so unless the change is to a
value in the selection. -/
theorem strands_of_admitted (hascending : (store.after writes).items.Ascending) {write : Write}
    {change : Change} (h : (store.after writes).admitWrite write = .ok change) :
    store.Strands selection key (writes ++ [write]) ↔
      (change.key = key ∧ change.type ≠ .deleted ∧
          ((store.after writes).shown? selection key).isSome ∧
          selection.includes key change.value = false) ∨
        store.Strands selection key writes ∧
          (change.key = key → selection.includes key change.value = false) := by
  rw [strands_append_singleton]
  refine or_congr ⟨?_, ?_⟩ (and_congr_right fun _ => ?_)
  · rintro ⟨hshown, hkept, hhidden⟩
    rw [write_of_admitted h] at hkept hhidden
    rw [get?_items_commit hascending] at hkept
    rw [shown?_commit hascending] at hhidden
    by_cases hkey : change.key = key
    · rw [if_pos hkey] at hkept hhidden
      by_cases hdeleted : change.type = .deleted
      · rw [if_pos hdeleted] at hkept
        contradiction
      · refine ⟨hkey, hdeleted, hshown, ?_⟩
        simpa [hdeleted] using hhidden
    · rw [if_neg hkey] at hhidden
      rw [hhidden] at hshown
      contradiction
  · rintro ⟨hkey, hother, hshown, hexcluded⟩
    refine ⟨hshown, ?_, ?_⟩
    · rw [write_of_admitted h, get?_items_commit hascending, if_pos hkey, if_neg hother]
      rfl
    · rw [write_of_admitted h, shown?_commit hascending, if_pos hkey, if_pos (Or.inr hexcluded)]
  · rw [write_of_admitted h]
    constructor
    · exact fun hsilent hkey => hsilent change rfl hkey
    · rintro hsilent other hother rfl
      obtain rfl := Option.some.inj hother
      exact hsilent rfl

/-! ## Lists -/

/-- What a list reports as its version is the count of the store in which it ends. -/
theorem listUntil_eq_ok {later : Store} {collection listed : Collection} {options : ListOptions}
    (hselection : selectionOf collection options = .ok selection)
    (h : store.listUntil later collection options = .ok listed) :
    collection.loadAll (store.selected selection) = .ok listed.items ∧
      listed.resourceVersion = some (versionText later.revision) := by
  unfold listUntil at h
  rw [hselection] at h
  dsimp only at h
  split at h
  · contradiction
  · split at h
    · contradiction
    next items hitems =>
      obtain rfl := Except.ok.inj h
      exact ⟨hitems, rfl⟩

/-- Options under which one state of a store can be listed do so with every other whose values can
be loaded. -/
theorem exists_list {collection listed : Collection} {options : ListOptions}
    (hselection : selectionOf collection options = .ok selection)
    (hlisted : store.list collection options = .ok listed) {other : Store} {items : List Container}
    (hitems : collection.loadAll (other.selected selection) = .ok items) :
    ∃ relisted, other.list collection options = .ok relisted ∧ relisted.items = items := by
  unfold list listUntil at hlisted ⊢
  rw [hselection] at hlisted ⊢
  dsimp only at hlisted ⊢
  split at hlisted
  · contradiction
  next hfields =>
    rw [if_neg hfields, hitems]
    exact ⟨_, rfl, rfl⟩

end Store

end ClusterObjects
