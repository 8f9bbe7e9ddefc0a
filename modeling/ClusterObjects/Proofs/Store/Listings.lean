import ClusterObjects.Proofs.Store.Concurrency
import ClusterObjects.Proofs.Store.Loading
import ClusterObjects.Proofs.Store.Selected
import ClusterObjects.Proofs.Store.Versions

/-! # What two lists of a run show

Two lists that copy their values before and after a run show the same objects exactly if
neither of them shows anything under a key that the run has touched: a value stored in the
run carries a later number than every value from before it, so its object is a new one. A
run of deletions stores nothing, so there it is enough that no value deleted is selected.
-/

namespace ClusterObjects

/-- An object is among the elements exactly if one of the values is loaded as it. -/
theorem Collection.mem_of_loadAll {collection : Collection} {values : List Json}
    {items : List Container} (h : collection.loadAll values = .ok items) {object : Container} :
    object ∈ items ↔ ∃ value ∈ values, collection.newItem.load value = .ok object := by
  have hall := Collection.loadAll_eq_ok (Collection.exists_loadAll_iff.mp ⟨items, h⟩)
  rw [Except.ok.inj (h.symm.trans hall), List.mem_filterMap]
  refine exists_congr fun value => and_congr_right fun _ => ?_
  cases collection.newItem.load value <;> simp [Except.toOption]

namespace Store

variable {store : Store} {writes : List Write} {collection : Collection} {selection : Selection}
  {items relisted : List Container}

theorem Sound.mem_items (h : store.Sound)
    (hitems : collection.loadAll (store.selected selection) = .ok items) {object : Container} :
    object ∈ items ↔ ∃ key value, store.shown? selection key = some value ∧
      collection.newItem.load value = .ok object := by
  rw [Collection.mem_of_loadAll hitems]
  constructor
  · rintro ⟨value, hvalue, hload⟩
    obtain ⟨key, hshown⟩ := (mem_selected h.ascending).mp hvalue
    exact ⟨key, value, hshown, hload⟩
  · rintro ⟨key, value, hshown, hload⟩
    exact ⟨value, (mem_selected h.ascending).mpr ⟨key, hshown⟩, hload⟩

/-- What is shown under a key is listed. -/
theorem Sound.exists_mem_items (h : store.Sound)
    (hitems : collection.loadAll (store.selected selection) = .ok items) {key : Key} {value : Json}
    (hshown : store.shown? selection key = some value) :
    ∃ object ∈ items, collection.newItem.load value = .ok object := by
  have hvalue := (mem_selected h.ascending).mpr ⟨key, hshown⟩
  obtain ⟨object, hload⟩ := Collection.exists_loadAll_iff.mp ⟨items, hitems⟩ value hvalue
  exact ⟨object, (h.mem_items hitems).mpr ⟨key, value, hshown, hload⟩, hload⟩

/-- If values from before and after a run are loaded as the same object, they are at one key,
which the run has not touched. -/
theorem Sound.untouched_of_load (h : store.Sound) (hwrites : ∀ write ∈ writes, write.WellFormed)
    {container object : Container} (hlawful : container.Lawful) {key other : Key}
    {value found : Json} (hread : store.items.get? key = some value)
    (hfound : (store.after writes).items.get? other = some found)
    (hload : container.load value = .ok object) (hagain : container.load found = .ok object) :
    other = key ∧ ¬ Touched (store.log writes) key := by
  have hafter := h.after hwrites
  obtain ⟨m, _, hm⟩ := h.version key value hread
  obtain ⟨n, _, hn⟩ := hafter.version other found hfound
  have hold := hm.of_load hlawful (h.belongs key value hread).whole hload
  have hnew := hn.of_load hlawful (hafter.belongs other found hfound).whole hagain
  have hequal : versionOf found = versionOf value := by
    rw [versionOf_of_hasVersion hm, versionOf_of_hasVersion hn]
    exact Option.some.inj (hnew.symm.trans hold)
  exact (h.versionOf_eq_iff hwrites hread hfound).mp hequal

/-- Lists from before and after a run show the same objects exactly if neither shows anything
under a key that the run has touched. -/
theorem Sound.items_eq_iff (h : store.Sound) (hwrites : ∀ write ∈ writes, write.WellFormed)
    (hprototype : collection.prototype.Lawful)
    (hitems : collection.loadAll (store.selected selection) = .ok items)
    (hrelisted : collection.loadAll ((store.after writes).selected selection) = .ok relisted) :
    items = relisted ↔ ∀ change ∈ store.log writes,
      store.shown? selection change.key = none ∧
        (store.after writes).shown? selection change.key = none := by
  have hafter := h.after hwrites
  constructor
  · rintro rfl change hchange
    have htouched : Touched (store.log writes) change.key := ⟨change, hchange, rfl⟩
    constructor
    · refine Option.eq_none_iff_forall_ne_some.mpr fun value hshown => ?_
      obtain ⟨object, hobject, hload⟩ := h.exists_mem_items hitems hshown
      obtain ⟨other, found, hfound, hagain⟩ := (hafter.mem_items hrelisted).mp hobject
      exact (h.untouched_of_load hwrites hprototype.emptyLike (shown?_eq_some_iff.mp hshown).1
        (shown?_eq_some_iff.mp hfound).1 hload hagain).2 htouched
    · refine Option.eq_none_iff_forall_ne_some.mpr fun found hfound => ?_
      obtain ⟨object, hobject, hagain⟩ := hafter.exists_mem_items hrelisted hfound
      obtain ⟨key, value, hshown, hload⟩ := (h.mem_items hitems).mp hobject
      obtain ⟨hkey, huntouched⟩ := h.untouched_of_load hwrites hprototype.emptyLike
        (shown?_eq_some_iff.mp hshown).1 (shown?_eq_some_iff.mp hfound).1 hload hagain
      exact huntouched (hkey ▸ htouched)
  · intro hnone
    have hshown : (store.after writes).shown selection = store.shown selection := by
      refine Entries.Ascending.ext (hafter.ascending.sublist List.filter_sublist)
        (h.ascending.sublist List.filter_sublist) fun key => ?_
      rw [get?_shown hafter, get?_shown h]
      rcases h.after_cases hwrites key with ⟨_, hsame⟩ | ⟨⟨change, hchange, rfl⟩, _⟩
      · rw [shown?, shown?, hsame]
      · obtain ⟨hbefore, hlater⟩ := hnone change hchange
        rw [hbefore, hlater]
    rw [selected_eq, hshown, ← selected_eq] at hrelisted
    exact Except.ok.inj (hitems.symm.trans hrelisted)

/-- A deletion in a run of deletions removes a value from before the run, and nothing is stored
at its key afterwards. -/
theorem Sound.get?_of_deletions (h : store.Sound) (hwrites : ∀ write ∈ writes, write.WellFormed)
    (hdeletes : ∀ change ∈ store.log writes, change.type = .deleted) {change : Change}
    (hchange : change ∈ store.log writes) :
    store.items.get? change.key = some change.value ∧
      (store.after writes).items.get? change.key = none := by
  constructor
  · obtain ⟨before, rest, hlog⟩ := List.append_of_mem hchange
    rcases h.origin_of_deleted hwrites hlog (hdeletes change hchange) with
      hstored | ⟨made, hmade, hother, _⟩
    · exact hstored
    · exact absurd (hdeletes made (hlog ▸ List.mem_append_left _ hmade)) hother
  · refine Option.eq_none_iff_forall_ne_some.mpr fun value hvalue => ?_
    rcases h.origin_of_stored hwrites hvalue with hstored | ⟨made, hmade, hother, _⟩
    · have huntouched := ((h.versionOf_eq_iff hwrites hstored hvalue).mp rfl).2
      exact huntouched ⟨change, hchange, rfl⟩
    · exact hother (hdeletes made hmade)

/-- Lists from before and after a run of deletions show the same objects exactly if nothing that is
selected has been deleted. -/
theorem Sound.items_eq_iff_of_deletions (h : store.Sound)
    (hwrites : ∀ write ∈ writes, write.WellFormed)
    (hdeletes : ∀ change ∈ store.log writes, change.type = .deleted)
    (hprototype : collection.prototype.Lawful)
    (hitems : collection.loadAll (store.selected selection) = .ok items)
    (hrelisted : collection.loadAll ((store.after writes).selected selection) = .ok relisted) :
    items = relisted ↔ ∀ change ∈ store.log writes,
      selection.includes change.key change.value = false := by
  rw [h.items_eq_iff hwrites hprototype hitems hrelisted]
  refine forall₂_congr fun change hchange => ?_
  obtain ⟨hbefore, hlater⟩ := h.get?_of_deletions hwrites hdeletes hchange
  rw [shown?, shown?, hbefore, hlater, Option.filter_none, and_iff_left rfl]
  simp

end Store

end ClusterObjects
