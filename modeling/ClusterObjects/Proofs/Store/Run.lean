import ClusterObjects.Proofs.Store.Stored

/-! # Runs of a store

A run is a sequence of writes by any clients. Every store that a run leads to is
sound: each value belongs to the key it is stored under and carries the number of
the write that stored it, and no two values carry the same number.
-/

namespace ClusterObjects

/-- A write that a client asks a store for. -/
inductive Write where
  | create (object : Container)
  | update (object : Container)
  | patch (base object : Container)
  | delete (object : Container)

namespace Write

/-- The object that the write is about. -/
def object : Write → Container
  | .create object | .update object | .patch _ object | .delete object => object

/-- The containers of the write are well formed. -/
def WellFormed : Write → Prop
  | .patch base object => base.WellFormed ∧ object.WellFormed
  | .create object | .update object | .delete object => object.WellFormed

/-- What a write does to its object, as a watcher is told. -/
def eventType : Write → EventType
  | .create _ => .added
  | .update _ | .patch .. => .modified
  | .delete _ => .deleted

end Write

/-- An outcome with its result turned into another. -/
def Outcome.map {α β : Type} (f : α → β) (outcome : Outcome α) : Outcome β :=
  ⟨outcome.store, outcome.published, outcome.result.map f⟩

namespace Store

/-- Carry out a write; the result is the object as stored, and nothing after a deletion. -/
def write (store : Store) : Write → Outcome (Option Container)
  | .create object => (store.create object).map some
  | .update object => (store.update object).map some
  | .patch base object => (store.patch base object).map some
  | .delete object => (store.delete object).map fun _ => none

/-- The store after a run of writes. -/
def after (store : Store) (writes : List Write) : Store :=
  writes.foldl (fun store write => (store.write write).store) store

/-- The changes that a run of writes publishes. -/
def log (store : Store) : List Write → List Change
  | [] => []
  | write :: writes =>
    (store.write write).published.toList ++ log (store.write write).store writes

/-- The change that a write makes, or the reason for refusing it. -/
def admitWrite (store : Store) : Write → Except StoreError Change
  | .create object => store.admitCreate object
  | .update object => store.admitUpdate object
  | .patch base object => store.admitPatch base object
  | .delete object => store.admitDelete object

/-- What the client gets for a write that makes a change. -/
def readBack : Write → Change → Except StoreError (Option Container)
  | .create object, change | .update object, change | .patch _ object, change =>
    (loadInto object change.value).map some
  | .delete _, _ => .ok none

theorem after_append (store : Store) (earlier later : List Write) :
    store.after (earlier ++ later) = (store.after earlier).after later :=
  List.foldl_append

theorem log_append (store : Store) (earlier later : List Write) :
    store.log (earlier ++ later) = store.log earlier ++ (store.after earlier).log later := by
  induction earlier generalizing store with
  | nil => rfl
  | cons write rest ih =>
    rw [List.cons_append, log, log, ih, List.append_assoc]
    rfl

theorem map_perform {α β : Type} (f : α → β) (store : Store) (admitted : Except StoreError Change)
    (result : Change → Except StoreError α) :
    (store.perform admitted result).map f =
      store.perform admitted fun change => (result change).map f := by
  cases admitted <;> rfl

/-- A write is refused or carried out as a whole, up to what its client gets. -/
theorem write_eq (store : Store) (write : Write) :
    store.write write = store.perform (store.admitWrite write) (readBack write) := by
  cases write <;> exact map_perform _ store _ _

/-- A write that is refused changes nothing. -/
theorem write_of_refused {store : Store} {write : Write} {e : StoreError}
    (h : store.admitWrite write = .error e) : store.write write = ⟨store, none, .error e⟩ := by
  rw [write_eq, h]
  rfl

/-- A write that is admitted is committed and published, whatever its client gets. -/
theorem write_of_admitted {store : Store} {write : Write} {change : Change}
    (h : store.admitWrite write = .ok change) :
    store.write write = ⟨store.commit change, some change, readBack write change⟩ := by
  rw [write_eq, h]
  rfl

/-- One more write that is refused leaves the store that a run has led to. -/
theorem after_of_refused {store : Store} {writes : List Write} {write : Write} {e : StoreError}
    (h : (store.after writes).admitWrite write = .error e) :
    store.after (writes ++ [write]) = store.after writes := by
  rw [after_append]
  exact congrArg Outcome.store (write_of_refused h)

/-- One more write that is admitted is committed to the store that a run has led to. -/
theorem after_of_admitted {store : Store} {writes : List Write} {write : Write} {change : Change}
    (h : (store.after writes).admitWrite write = .ok change) :
    store.after (writes ++ [write]) = (store.after writes).commit change := by
  rw [after_append]
  exact congrArg Outcome.store (write_of_admitted h)

/-! ## Versions -/

/-- The text of the version of a write by its number. -/
def versionText (n : Nat) : String := String.ofList (Text.decimal n)

theorem versionText_injective {m n : Nat} (h : versionText m = versionText n) : m = n :=
  Text.decimal_injective (String.ofList_injective h)

/-- The value carries the number of the write that stored it. -/
def HasVersion (value : Json) (n : Nat) : Prop :=
  Stored.metadata? value "resourceVersion" = some (.str (versionText n))

theorem text?_of_hasVersion {value : Json} {n : Nat} (h : HasVersion value n) :
    Stored.text? value "resourceVersion" = some (versionText n) := by
  have hne : (versionText n).isEmpty = false := by
    have hdecimal : Text.decimal n ≠ [] := Nat.toDigits_ne_nil
    simpa [versionText, String.isEmpty_iff] using hdecimal
  rw [Stored.text?, h, Option.bind_some, Json.text?, Option.filter_some, hne]
  rfl

theorem versionOf_of_hasVersion {value : Json} {n : Nat} (h : HasVersion value n) :
    versionOf value = versionText n := by
  rw [versionOf, text?_of_hasVersion h]
  rfl

/-! ## Admission -/

theorem find_eq_ok_iff {store : Store} {key : Key} {value : Json} :
    store.find key = .ok value ↔ store.items.get? key = some value := by
  unfold find
  cases store.items.get? key with
  | none =>
    constructor
    · intro h; contradiction
    · intro h; contradiction
  | some found => simp

theorem admitCreate_eq_ok {store : Store} {object : Container} {change : Change}
    (h : store.admitCreate object = .ok change) :
    ∃ key, keyOf object = .ok key ∧ store.items.get? key = none ∧
      change = ⟨key, .added, store.setVersion (store.stampNew object.toJson)⟩ := by
  unfold admitCreate at h
  split at h
  · contradiction
  next key hkey =>
    split at h
    · contradiction
    next hnew =>
      refine ⟨key, hkey, ?_, (Except.ok.inj h).symm⟩
      simpa [Entries.contains] using hnew

theorem admitUpdate_eq_ok {store : Store} {object : Container} {change : Change}
    (h : store.admitUpdate object = .ok change) :
    ∃ key stored, keyOf object = .ok key ∧ store.items.get? key = some stored ∧
      (∀ version, Stored.text? object.toJson "resourceVersion" = some version →
        version = versionOf stored) ∧
      change = ⟨key, .modified,
        store.setVersion (Stored.keepServerFields stored object.toJson)⟩ := by
  unfold admitUpdate at h
  split at h
  · contradiction
  next key hkey =>
    split at h
    · contradiction
    next stored hfind =>
      refine ⟨key, stored, hkey, find_eq_ok_iff.mp hfind, ?_⟩
      dsimp only at h
      split at h
      next hnone =>
        rw [hnone]
        exact ⟨fun _ hsome => absurd hsome.symm (Option.some_ne_none _), (Except.ok.inj h).symm⟩
      next version hversion =>
        split at h
        next heq =>
          rw [hversion]
          exact ⟨fun other hother => Option.some.inj hother ▸ heq, (Except.ok.inj h).symm⟩
        next => contradiction

theorem admitPatch_eq_ok {store : Store} {base object : Container} {change : Change}
    (h : store.admitPatch base object = .ok change) :
    ∃ key stored, keyOf object = .ok key ∧ store.items.get? key = some stored ∧
      (∀ version, (Stored.metadata? (patchDocument base object) "resourceVersion").bind Json.text? =
        some version → version = versionOf stored) ∧
      change = ⟨key, .modified, store.setVersion
        (Stored.keepServerFields stored (stored.applyPatch (patchDocument base object)))⟩ := by
  unfold admitPatch at h
  split at h
  · contradiction
  next key hkey =>
    split at h
    · contradiction
    next stored hfind =>
      refine ⟨key, stored, hkey, find_eq_ok_iff.mp hfind, ?_⟩
      dsimp only at h
      split at h
      next hnone =>
        rw [hnone]
        exact ⟨fun _ hsome => absurd hsome.symm (Option.some_ne_none _), (Except.ok.inj h).symm⟩
      next version hversion =>
        split at h
        next heq =>
          rw [hversion]
          exact ⟨fun other hother => Option.some.inj hother ▸ heq, (Except.ok.inj h).symm⟩
        next => contradiction

theorem admitDelete_eq_ok {store : Store} {object : Container} {change : Change}
    (h : store.admitDelete object = .ok change) :
    ∃ key stored, keyOf object = .ok key ∧ store.items.get? key = some stored ∧
      change = ⟨key, .deleted, stored⟩ := by
  unfold admitDelete at h
  split at h
  · contradiction
  next key hkey =>
    split at h
    · contradiction
    next stored hfind =>
      exact ⟨key, stored, hkey, find_eq_ok_iff.mp hfind, (Except.ok.inj h).symm⟩

theorem type_of_admitDelete {store : Store} {object : Container} {change : Change}
    (h : store.admitDelete object = .ok change) : change.type = .deleted := by
  obtain ⟨_, _, _, _, rfl⟩ := admitDelete_eq_ok h
  rfl

theorem type_of_admitWrite {store : Store} {write : Write} {change : Change}
    (h : store.admitWrite write = .ok change) : change.type = write.eventType := by
  cases write with
  | create object =>
    obtain ⟨_, _, _, rfl⟩ := admitCreate_eq_ok h
    rfl
  | update object =>
    obtain ⟨_, _, _, _, _, rfl⟩ := admitUpdate_eq_ok h
    rfl
  | patch base object =>
    obtain ⟨_, _, _, _, _, rfl⟩ := admitPatch_eq_ok h
    rfl
  | delete object => exact type_of_admitDelete h

theorem type_ne_error_of_admitWrite {store : Store} {write : Write} {change : Change}
    (h : store.admitWrite write = .ok change) : change.type ≠ .error := by
  rw [type_of_admitWrite h]
  cases write <;> exact nofun

/-- The change of a write is made at the key of its object. -/
theorem keyOf_of_admitWrite {store : Store} {write : Write} {change : Change}
    (h : store.admitWrite write = .ok change) : keyOf write.object = .ok change.key := by
  cases write with
  | create object =>
    obtain ⟨key, hkey, _, rfl⟩ := admitCreate_eq_ok h
    exact hkey
  | update object =>
    obtain ⟨key, _, hkey, _, _, rfl⟩ := admitUpdate_eq_ok h
    exact hkey
  | patch base object =>
    obtain ⟨key, _, hkey, _, _, rfl⟩ := admitPatch_eq_ok h
    exact hkey
  | delete object =>
    obtain ⟨key, _, hkey, _, rfl⟩ := admitDelete_eq_ok h
    exact hkey

/-! ## Soundness -/

/-- What holds of every store that a run leads to. -/
structure Sound (store : Store) : Prop where
  ascending : store.items.Ascending
  stamps : ∀ n, (store.stamps n).now.Valid
  belongs : ∀ key value, store.items.get? key = some value → Stored.Belongs key value
  version : ∀ key value, store.items.get? key = some value →
    ∃ n, n ≤ store.revision ∧ HasVersion value n
  unique : ∀ key other value found, store.items.get? key = some value →
    store.items.get? other = some found → versionOf value = versionOf found → key = other

/-- A store that has not been written to, with a clock that shows instants of the calendar. -/
structure Fresh (store : Store) : Prop where
  items : store.items = []
  revision : store.revision = 0
  stamps : ∀ n, (store.stamps n).now.Valid

theorem Fresh.get?_items {store : Store} (h : store.Fresh) (key : Key) (value : Json) :
    store.items.get? key ≠ some value := by
  rw [h.items]
  exact nofun

theorem Fresh.sound {store : Store} (h : store.Fresh) : store.Sound := by
  refine ⟨?_, h.stamps, ?_, ?_, ?_⟩
  · rw [h.items]
    exact List.Pairwise.nil
  · intro key value hvalue
    exact absurd hvalue (h.get?_items key value)
  · intro key value hvalue
    exact absurd hvalue (h.get?_items key value)
  · intro key _ value _ hvalue
    exact absurd hvalue (h.get?_items key value)

/-- The stamp of a clock that stands still. -/
def stillStamp : Stamp := ⟨"uid", ⟨⟨2024, 1, 1⟩, 0, 0, 0, 0⟩⟩

theorem fresh_ofRegistry (registry : Registry) :
    (ofRegistry registry fun _ => stillStamp).Fresh := by
  refine ⟨rfl, rfl, fun n => ?_⟩
  change Instant.Valid ⟨⟨2024, 1, 1⟩, 0, 0, 0, 0⟩
  exact ⟨by decide, by decide, by decide, by decide, by decide⟩

/-- A fresh store that serves no resource, whose clock stands still. -/
def still : Store := .ofRegistry .empty fun _ => stillStamp

theorem fresh_still : still.Fresh := fresh_ofRegistry .empty

/-- A fresh store that serves the resources of the program, whose clock stands still. -/
def builtin : Store := .ofRegistry .builtin fun _ => stillStamp

theorem fresh_builtin : builtin.Fresh := fresh_ofRegistry .builtin

/-- A generic config map that has a name and nothing else. -/
def named : Container := (Container.generic ⟨"", "v1", "ConfigMap"⟩).setText "name" "a"

theorem wellFormed_named : named.WellFormed :=
  (Container.wellFormed_generic _).setText "name" "a" rfl rfl

/-- A generic config map of another name. -/
def neighbour : Container := (Container.generic ⟨"", "v1", "ConfigMap"⟩).setText "name" "b"

/-- That one is created and updated. -/
def neighbourWrites : List Write := [.create neighbour, .update neighbour]

theorem wellFormed_neighbourWrites : ∀ write ∈ neighbourWrites, write.WellFormed := by
  have hneighbour : neighbour.WellFormed :=
    (Container.wellFormed_generic _).setText "name" "b" rfl rfl
  exact List.forall_mem_cons.mpr ⟨hneighbour, List.forall_mem_singleton.mpr hneighbour⟩

/-- A value that results from sealing a submitted one under the next version. -/
def Seals (store : Store) (submitted value : Json) : Prop :=
  ∃ uid created, Stored.CreationText created ∧
    value = Stored.sealed uid created store.nextVersion submitted

theorem Seals.belongs {store : Store} {submitted value : Json} (h : store.Seals submitted value)
    {key : Key} (hdraft : Stored.Draft key submitted) :
    Stored.Belongs key value ∧ HasVersion value (store.revision + 1) := by
  obtain ⟨uid, created, hcreated, rfl⟩ := h
  exact hdraft.sealed uid store.nextVersion hcreated

/-- A creation seals the object. -/
theorem Sound.seals_create {store : Store} (h : store.Sound) {object : Container}
    (hobject : object.WellFormed) {change : Change}
    (hadmits : store.admitCreate object = .ok change) :
    change.type = .added ∧ store.Seals object.toJson change.value := by
  obtain ⟨key, hkey, _, rfl⟩ := admitCreate_eq_ok hadmits
  refine ⟨rfl, Stored.exists_stampNew h.stamps (Stored.draft_toJson hobject hkey) ?_⟩
  intro text htext
  rw [Stored.metadata?_toJson] at htext
  obtain ⟨_, heq, hcreated⟩ := hobject.metadata.decode_creation htext
  exact Json.str.inj heq ▸ hcreated

/-- An update seals the object. -/
theorem Sound.seals_update {store : Store} (h : store.Sound) {object : Container} {change : Change}
    (hadmits : store.admitUpdate object = .ok change) :
    change.type = .modified ∧ store.Seals object.toJson change.value := by
  obtain ⟨key, stored, _, hstored, _, rfl⟩ := admitUpdate_eq_ok hadmits
  obtain ⟨uid, created, _, _, hcreated, heq⟩ :=
    Stored.exists_keepServerFields (h.belongs key stored hstored)
  exact ⟨rfl, uid, created, hcreated, heq store _⟩

/-- A patch seals the stored value after the patch. -/
theorem Sound.seals_patch {store : Store} (h : store.Sound) {base object : Container}
    {change : Change} (hadmits : store.admitPatch base object = .ok change) :
    change.type = .modified ∧ ∃ stored, store.items.get? change.key = some stored ∧
      store.Seals (stored.applyPatch (patchDocument base object)) change.value := by
  obtain ⟨key, stored, _, hstored, _, rfl⟩ := admitPatch_eq_ok hadmits
  obtain ⟨uid, created, _, _, hcreated, heq⟩ :=
    Stored.exists_keepServerFields (h.belongs key stored hstored)
  exact ⟨rfl, stored, hstored, uid, created, hcreated, heq store _⟩

/-- What a well-formed write changes: it deletes the value stored, or it stores a value that
belongs to the key and carries the next number. -/
theorem Sound.admitted {store : Store} (h : store.Sound) {write : Write} (hwrite : write.WellFormed)
    {change : Change} (hadmits : store.admitWrite write = .ok change) :
    change.type = .deleted ∧ store.items.get? change.key = some change.value ∨
      change.type ≠ .deleted ∧ Stored.Belongs change.key change.value ∧
        HasVersion change.value (store.revision + 1) := by
  have hkey := keyOf_of_admitWrite hadmits
  cases write with
  | create object =>
    obtain ⟨htype, hseals⟩ := h.seals_create hwrite hadmits
    exact Or.inr ⟨by simp [htype], hseals.belongs (Stored.draft_toJson hwrite hkey)⟩
  | update object =>
    obtain ⟨htype, hseals⟩ := h.seals_update hadmits
    exact Or.inr ⟨by simp [htype], hseals.belongs (Stored.draft_toJson hwrite hkey)⟩
  | patch base object =>
    obtain ⟨htype, stored, hstored, hseals⟩ := h.seals_patch hadmits
    have hbelongs := h.belongs change.key stored hstored
    exact Or.inr ⟨by simp [htype],
      hseals.belongs (Stored.draft_applyPatch hbelongs hwrite.1 hwrite.2 hkey)⟩
  | delete object =>
    obtain ⟨key, stored, _, hstored, rfl⟩ := admitDelete_eq_ok hadmits
    exact Or.inl ⟨rfl, hstored⟩

/-- A change that deletes, or that stores a value of its key under the next number, keeps a
store sound. -/
theorem Sound.commit {store : Store} (h : store.Sound) {change : Change}
    (hchange : change.type ≠ .deleted → Stored.Belongs change.key change.value ∧
      HasVersion change.value (store.revision + 1)) : (store.commit change).Sound := by
  have hget := get?_items_commit h.ascending change
  have hrevision := revision_commit store change
  have hstamps : (store.commit change).stamps = store.stamps := by
    unfold Store.commit
    split <;> rfl
  -- A value is the new one, under the key of the change, or one that was there before.
  have hcases : ∀ key value, (store.commit change).items.get? key = some value →
      change.key = key ∧ change.type ≠ .deleted ∧ value = change.value ∨
        store.items.get? key = some value := by
    intro key value hvalue
    rw [hget] at hvalue
    split at hvalue
    next hkey =>
      split at hvalue
      · contradiction
      next htype => exact Or.inl ⟨hkey, htype, (Option.some.inj hvalue).symm⟩
    next => exact Or.inr hvalue
  have hnext : change.type ≠ .deleted → (store.commit change).revision = store.revision + 1 :=
    fun htype => hrevision.trans (if_neg htype)
  have hgrows : store.revision ≤ (store.commit change).revision := by
    rw [hrevision]
    split <;> omega
  have hfresh : ∀ key value, store.items.get? key = some value → change.type ≠ .deleted →
      versionOf value ≠ versionOf change.value := by
    intro key value hvalue htype heq
    obtain ⟨n, hn, hversion⟩ := h.version key value hvalue
    rw [versionOf_of_hasVersion hversion, versionOf_of_hasVersion (hchange htype).2] at heq
    have := versionText_injective heq
    omega
  refine ⟨ascending_items_commit h.ascending change, ?_, ?_, ?_, ?_⟩
  · rw [hstamps]
    exact h.stamps
  · intro key value hvalue
    rcases hcases key value hvalue with ⟨rfl, htype, rfl⟩ | hold
    · exact (hchange htype).1
    · exact h.belongs key value hold
  · intro key value hvalue
    rcases hcases key value hvalue with ⟨rfl, htype, rfl⟩ | hold
    · exact ⟨store.revision + 1, Nat.le_of_eq (hnext htype).symm, (hchange htype).2⟩
    · obtain ⟨n, hn, hversion⟩ := h.version key value hold
      exact ⟨n, by omega, hversion⟩
  · intro key other value found hvalue hfound heq
    rcases hcases key value hvalue with ⟨rfl, htype, rfl⟩ | hold
    · rcases hcases other found hfound with ⟨rfl, _, rfl⟩ | hother
      · rfl
      · exact absurd heq.symm (hfresh other found hother htype)
    · rcases hcases other found hfound with ⟨rfl, htype, rfl⟩ | hother
      · exact absurd heq (hfresh key value hold htype)
      · exact h.unique key other value found hold hother heq

/-- What holds of every value stored before a write, and of the one it stores, holds of every
value stored after it. -/
theorem Sound.forall_items_write {store : Store} (h : store.Sound) {P : Key → Json → Prop}
    (hold : ∀ key value, store.items.get? key = some value → P key value) {write : Write}
    (hnew : ∀ change, store.admitWrite write = .ok change → change.type ≠ .deleted →
      P change.key change.value) :
    ∀ key value, (store.write write).store.items.get? key = some value → P key value := by
  intro key value hvalue
  rw [write_eq] at hvalue
  cases hadmits : store.admitWrite write with
  | error e =>
    rw [hadmits] at hvalue
    exact hold key value hvalue
  | ok change =>
    rw [hadmits] at hvalue
    change (store.commit change).items.get? key = _ at hvalue
    rw [get?_items_commit h.ascending] at hvalue
    split at hvalue
    next hkey =>
      split at hvalue
      · contradiction
      next htype =>
        rw [← hkey, ← Option.some.inj hvalue]
        exact hnew change hadmits htype
    next => exact hold key value hvalue

/-- A well-formed write keeps a store sound. -/
theorem Sound.write {store : Store} (h : store.Sound) {write : Write} (hwrite : write.WellFormed) :
    (store.write write).store.Sound := by
  rw [write_eq]
  cases hadmits : store.admitWrite write with
  | error e => exact h
  | ok change =>
    refine h.commit fun htype => ?_
    rcases h.admitted hwrite hadmits with ⟨hdeleted, _⟩ | ⟨_, hvalue⟩
    · exact absurd hdeleted htype
    · exact hvalue

/-- Every store that a run leads to is sound. -/
theorem Sound.after {store : Store} (h : store.Sound) {writes : List Write}
    (hwrites : ∀ write ∈ writes, write.WellFormed) : (store.after writes).Sound := by
  induction writes generalizing store with
  | nil => exact h
  | cons write rest ih =>
    obtain ⟨hwrite, hrest⟩ := List.forall_mem_cons.mp hwrites
    exact ih (h.write hwrite) hrest

theorem scheme_write (store : Store) (write : Write) :
    (store.write write).store.scheme = store.scheme := by
  rw [write_eq]
  cases store.admitWrite write with
  | error e => rfl
  | ok change =>
    change (store.commit change).scheme = store.scheme
    unfold Store.commit
    split <;> rfl

theorem kinds_write (store : Store) (write : Write) :
    (store.write write).store.kinds = store.kinds := by
  rw [write_eq]
  cases store.admitWrite write with
  | error e => rfl
  | ok change =>
    change (store.commit change).kinds = store.kinds
    unfold Store.commit
    split <;> rfl

/-- The keys ascend in every store that a run leads to, whatever is written. -/
theorem ascending_items_after {store : Store} (h : store.items.Ascending) (writes : List Write) :
    (store.after writes).items.Ascending := by
  induction writes generalizing store with
  | nil => exact h
  | cons write rest ih =>
    refine ih ?_
    dsimp only
    rw [write_eq]
    cases store.admitWrite write with
    | error e => exact h
    | ok change => exact ascending_items_commit h change

theorem scheme_after (store : Store) (writes : List Write) :
    (store.after writes).scheme = store.scheme := by
  induction writes generalizing store with
  | nil => rfl
  | cons write rest ih => exact (ih _).trans (store.scheme_write write)

end Store

end ClusterObjects
