import ClusterObjects.Proofs.Store.Loading

/-! # What the server states of an object

The identifier and the creation time of an object are stated by the store when it is created,
and a change to the object takes them over from the value stored before. So from its creation
to its deletion an object keeps both, while its version grows with every change.
-/

namespace ClusterObjects

namespace Stored

/-- A later value of the same object. -/
structure Replaces (old new : Json) : Prop where
  uid : ∃ uid, metadata? old "uid" = some (.str uid) ∧ metadata? new "uid" = some (.str uid)
  created : ∃ created, metadata? old "creationTimestamp" = some (.str created) ∧
    metadata? new "creationTimestamp" = some (.str created)
  version : ∃ m n, m < n ∧ Store.HasVersion old m ∧ Store.HasVersion new n

theorem eq_of_hasVersion {value : Json} {m n : Nat} (hm : Store.HasVersion value m)
    (hn : Store.HasVersion value n) : m = n :=
  Store.versionText_injective (Json.str.inj (Option.some.inj (hm.symm.trans hn)))

theorem Replaces.trans {first second third : Json} (h : Replaces first second)
    (hnext : Replaces second third) : Replaces first third := by
  obtain ⟨uid, hfirst, hsecond⟩ := h.uid
  obtain ⟨_, hsame, hthird⟩ := hnext.uid
  obtain rfl := Json.str.inj (Option.some.inj (hsecond.symm.trans hsame))
  obtain ⟨created, hcreated, hkept⟩ := h.created
  obtain ⟨_, hagain, hlast⟩ := hnext.created
  obtain rfl := Json.str.inj (Option.some.inj (hkept.symm.trans hagain))
  obtain ⟨l, m, hlm, hl, hm⟩ := h.version
  obtain ⟨m', n, hmn, hm', hn⟩ := hnext.version
  obtain rfl := eq_of_hasVersion hm hm'
  exact ⟨⟨uid, hfirst, hthird⟩, ⟨created, hcreated, hlast⟩, l, n, Nat.lt_trans hlm hmn, hl, hn⟩

end Stored

open Stored (Replaces)

theorem Write.WellFormed.object {write : Write} (h : write.WellFormed) :
    write.object.WellFormed := by
  cases write with
  | patch base object => exact h.2
  | _ => exact h

namespace Store

/-! ## One write -/

/-- A value that takes the place of another takes over what the server stated of it. -/
theorem Sound.replaces_of_admitted {store : Store} (h : store.Sound) {write : Write}
    (hwrite : write.WellFormed) {change : Change} (hadmits : store.admitWrite write = .ok change)
    (htype : change.type ≠ .deleted) {value : Json}
    (hvalue : store.items.get? change.key = some value) : Replaces value change.value := by
  have hbelongs := h.belongs change.key value hvalue
  have hkey := keyOf_of_admitWrite hadmits
  obtain ⟨n, hn, hversion⟩ := h.version change.key value hvalue
  obtain ⟨uid, created, huid, hcreated, htext, hseal⟩ := Stored.exists_keepServerFields hbelongs
  -- Whatever is submitted is sealed with the identifier and the creation time of the value.
  have hsealed : ∃ submitted, Stored.Draft change.key submitted ∧
      change.value = Stored.sealed uid created store.nextVersion submitted := by
    cases write with
    | create object =>
      obtain ⟨_, _, hnew, rfl⟩ := admitCreate_eq_ok hadmits
      rw [hnew] at hvalue
      contradiction
    | update object =>
      obtain ⟨key, stored, _, hstored, _, rfl⟩ := admitUpdate_eq_ok hadmits
      obtain rfl := Option.some.inj (hvalue.symm.trans hstored)
      exact ⟨_, Stored.draft_toJson hwrite hkey, hseal store _⟩
    | patch base object =>
      obtain ⟨key, stored, _, hstored, _, rfl⟩ := admitPatch_eq_ok hadmits
      obtain rfl := Option.some.inj (hvalue.symm.trans hstored)
      exact ⟨_, Stored.draft_applyPatch hbelongs hwrite.1 hwrite.2 hkey, hseal store _⟩
    | delete object => exact absurd (type_of_admitDelete hadmits) htype
  obtain ⟨submitted, hdraft, heq⟩ := hsealed
  obtain ⟨hnewUid, hnewCreated⟩ := hdraft.metadata?_stamped uid store.nextVersion htext
  rw [heq]
  exact ⟨⟨uid, huid, hnewUid⟩, ⟨created, hcreated, hnewCreated⟩, n, store.revision + 1,
    Nat.lt_succ_of_le hn, hversion, (hdraft.sealed uid _ htext).2⟩

/-- What is stored at a key before and after a write is the same value or a later one of the same
object. -/
theorem Sound.kept_by_write {store : Store} (h : store.Sound) {write : Write}
    (hwrite : write.WellFormed) {key : Key} {old new : Json}
    (hold : store.items.get? key = some old)
    (hnew : (store.write write).store.items.get? key = some new) :
    new = old ∨ Replaces old new := by
  cases hadmits : store.admitWrite write with
  | error e =>
    rw [write_of_refused hadmits] at hnew
    exact Or.inl (Option.some.inj (hnew.symm.trans hold))
  | ok change =>
    rw [write_of_admitted hadmits, get?_items_commit h.ascending] at hnew
    split at hnew
    next hkey =>
      subst hkey
      split at hnew
      · contradiction
      next htype =>
        obtain rfl := Option.some.inj hnew
        exact Or.inr (h.replaces_of_admitted hwrite hadmits htype hold)
    next => exact Or.inl (Option.some.inj (hnew.symm.trans hold))

/-- A write that succeeds has been admitted. -/
theorem admitted_of_succeeds {store : Store} {write : Write} {result : Option Container}
    (h : (store.write write).result = .ok result) :
    ∃ change, store.admitWrite write = .ok change ∧ readBack write change = .ok result := by
  cases hadmits : store.admitWrite write with
  | error e =>
    rw [write_of_refused hadmits] at h
    contradiction
  | ok change =>
    rw [write_of_admitted hadmits] at h
    exact ⟨change, rfl, h⟩

theorem load_of_loadInto {target object : Container} {value : Json}
    (h : (loadInto target value).map some = .ok (some object)) :
    target.load value = .ok object := by
  unfold loadInto at h
  cases hload : target.load value with
  | error e =>
    rw [hload] at h
    contradiction
  | ok loaded =>
    rw [hload] at h
    exact congrArg _ (Option.some.inj (Except.ok.inj h))

/-- What a write gives back is what its object loads from what is stored. -/
theorem load_of_readBack {write : Write} {change : Change} {object : Container}
    (hback : readBack write change = .ok (some object)) :
    write.eventType ≠ .deleted ∧ write.object.load change.value = .ok object := by
  cases write with
  | create target => exact ⟨nofun, load_of_loadInto hback⟩
  | update target => exact ⟨nofun, load_of_loadInto hback⟩
  | patch base target => exact ⟨nofun, load_of_loadInto hback⟩
  | delete target => exact absurd (Except.ok.inj hback) (Option.some_ne_none object).symm

/-- What a write gives back has the key that the write is about. -/
theorem Sound.keyOf_of_readBack {store : Store} (h : store.Sound) {write : Write}
    (hwrite : write.WellFormed) {change : Change} (hadmits : store.admitWrite write = .ok change)
    {object : Container} (hback : readBack write change = .ok (some object)) :
    change.type ≠ .deleted ∧ keyOf object = .ok change.key := by
  obtain ⟨htype, hload⟩ := load_of_readBack hback
  rw [← type_of_admitWrite hadmits] at htype
  refine ⟨htype, ?_⟩
  rcases h.admitted hwrite hadmits with ⟨hdeleted, _⟩ | ⟨_, hbelongs, _⟩
  · exact absurd hdeleted htype
  · have hkey := (keyOf_eq_ok_iff.mp (keyOf_of_admitWrite hadmits)).2
    have hlawful := hwrite.object.lawful
    exact hbelongs.toDraft.keyOf_of_load hlawful (congrArg Key.gvk hkey.symm) hload

/-- A change that succeeds stores a later value of the object. -/
theorem Sound.exists_replaces {store : Store} (h : store.Sound) {write : Write}
    (hwrite : write.WellFormed) (htype : write.eventType = .modified) {key : Key}
    (hkey : keyOf write.object = .ok key) {result : Option Container}
    (hresult : (store.write write).result = .ok result) {old : Json}
    (hold : store.items.get? key = some old) :
    ∃ new, (store.write write).store.items.get? key = some new ∧ Replaces old new := by
  obtain ⟨change, hadmits, _⟩ := admitted_of_succeeds hresult
  obtain rfl := Except.ok.inj ((keyOf_of_admitWrite hadmits).symm.trans hkey)
  have hmodified := (type_of_admitWrite hadmits).trans htype
  refine ⟨change.value, ?_, h.replaces_of_admitted hwrite hadmits (by simp [hmodified]) hold⟩
  rw [write_of_admitted hadmits]
  exact get?_items_commit_of_modified h.ascending hmodified

/-! ## Runs -/

/-- The values that changes store at a key. -/
def storedAt (key : Key) (changes : List Change) : List Json :=
  (changes.filter fun change => change.key = key).map (·.value)

/-- The changes do not delete what is stored at a key. -/
def Spares (key : Key) (changes : List Change) : Prop :=
  ∀ change ∈ changes, change.key = key → change.type ≠ .deleted

/-- What becomes of the value stored at a key: every value is replaced by the later ones, the
last one is stored in the end, and a further change that succeeds replaces them all. -/
structure Lineage (store : Store) (writes : List Write) (key : Key) (values : List Json) :
    Prop where
  replaced : values.Pairwise Replaces
  stored : (store.after writes).items.get? key = values.getLast?
  continued : ∀ (write : Write) (result : Option Container), write.WellFormed →
    write.eventType = .modified → keyOf write.object = .ok key →
    ((store.after writes).write write).result = .ok result →
    ∃ new, ((store.after writes).write write).store.items.get? key = some new ∧
      ∀ old ∈ values, Replaces old new

theorem storedAt_cons (key : Key) (change : Change) (changes : List Change) :
    storedAt key (change :: changes) =
      if change.key = key then change.value :: storedAt key changes else storedAt key changes := by
  unfold storedAt
  rw [List.filter_cons]
  split <;> simp_all

/-- A run whose first write is refused goes on from the same store. -/
theorem run_cons_of_refused {store : Store} {write : Write} {e : StoreError}
    (h : store.admitWrite write = .error e) (rest : List Write) :
    store.log (write :: rest) = store.log rest ∧
      store.after (write :: rest) = store.after rest := by
  rw [log, after, List.foldl_cons, write_of_refused h]
  exact ⟨rfl, rfl⟩

/-- A run whose first write is admitted goes on from the store with its change. -/
theorem run_cons_of_admitted {store : Store} {write : Write} {change : Change}
    (h : store.admitWrite write = .ok change) (rest : List Write) :
    store.log (write :: rest) = change :: (store.commit change).log rest ∧
      store.after (write :: rest) = (store.commit change).after rest := by
  rw [log, after, List.foldl_cons, write_of_admitted h]
  exact ⟨rfl, rfl⟩

/-- Each value stored at a key replaces the ones before, as long as nothing is deleted there. -/
theorem Sound.pairwise_storedAt {store : Store} (h : store.Sound) {writes : List Write}
    (hwrites : ∀ write ∈ writes, write.WellFormed) {key : Key} {value : Json}
    (hvalue : store.items.get? key = some value) (hspares : Spares key (store.log writes)) :
    (value :: storedAt key (store.log writes)).Pairwise Replaces ∧
      (store.after writes).items.get? key =
        (value :: storedAt key (store.log writes)).getLast? := by
  induction writes generalizing store value with
  | nil => exact ⟨List.pairwise_singleton _ _, hvalue⟩
  | cons write rest ih =>
    obtain ⟨hwrite, hrest⟩ := List.forall_mem_cons.mp hwrites
    cases hadmits : store.admitWrite write with
    | error e =>
      obtain ⟨hlog, hafter⟩ := run_cons_of_refused hadmits rest
      rw [hlog] at hspares ⊢
      rw [hafter]
      exact ih h hrest hvalue hspares
    | ok change =>
      have hsound := h.write hwrite
      rw [write_of_admitted hadmits] at hsound
      obtain ⟨hlog, hafter⟩ := run_cons_of_admitted hadmits rest
      rw [hlog] at hspares ⊢
      obtain ⟨hfirst, hlater⟩ := List.forall_mem_cons.mp hspares
      have hget := get?_items_commit h.ascending change key
      rw [hafter, storedAt_cons]
      split
      next hkey =>
        subst hkey
        have htype := hfirst rfl
        rw [if_pos rfl, if_neg htype] at hget
        have hreplaces := h.replaces_of_admitted hwrite hadmits htype hvalue
        obtain ⟨hpairwise, hstored⟩ := ih hsound hrest hget hlater
        refine ⟨List.pairwise_cons.mpr ⟨?_, hpairwise⟩, ?_⟩
        · refine List.forall_mem_cons.mpr ⟨hreplaces, fun later hmem => ?_⟩
          exact hreplaces.trans ((List.pairwise_cons.mp hpairwise).1 later hmem)
        · rw [hstored, List.getLast?_cons_cons]
      next hkey =>
        rw [if_neg hkey] at hget
        exact ih hsound hrest (hget.trans hvalue) hlater

/-- The last of the values that replace each other replaces or is each of them. -/
theorem eq_or_replaces_getLast {values : List Json} (h : values.Pairwise Replaces) {last : Json}
    (hlast : values.getLast? = some last) {value : Json} (hvalue : value ∈ values) :
    value = last ∨ Replaces value last := by
  obtain ⟨before, rfl⟩ := List.getLast?_eq_some_iff.mp hlast
  rcases List.mem_append.mp hvalue with hbefore | hsame
  · exact Or.inr ((List.pairwise_append.mp h).2.2 value hbefore last (List.mem_singleton_self _))
  · exact Or.inl (List.mem_singleton.mp hsame)

/-- The values stored at a key between a creation and a deletion are those of one object. -/
theorem Sound.lineage {store : Store} (h : store.Sound) {writes : List Write}
    (hwrites : ∀ write ∈ writes, write.WellFormed) {key : Key} {value : Json}
    (hvalue : store.items.get? key = some value) (hspares : Spares key (store.log writes)) :
    Lineage store writes key (value :: storedAt key (store.log writes)) := by
  obtain ⟨hreplaced, hstored⟩ := h.pairwise_storedAt hwrites hvalue hspares
  refine ⟨hreplaced, hstored, fun write result hwrite htype hkey hresult => ?_⟩
  cases hlast : (value :: storedAt key (store.log writes)).getLast? with
  | none => exact absurd (List.getLast?_eq_none_iff.mp hlast) (List.cons_ne_nil _ _)
  | some last =>
    obtain ⟨new, hnew, hreplaces⟩ :=
      (h.after hwrites).exists_replaces hwrite htype hkey hresult (hstored.trans hlast)
    refine ⟨new, hnew, fun old hold => ?_⟩
    rcases eq_or_replaces_getLast hreplaced hlast hold with rfl | hearlier
    · exact hreplaces
    · exact hearlier.trans hreplaces

end Store

end ClusterObjects
