import ClusterObjects.Proofs.Store.Run

/-! # Optimistic concurrency

An update that states a version is admitted as long as no change has been made at
its key since that version was read, and refused from then on. The numbers of the
writes make this work: a key that is touched holds a later number than anything
that was stored before, or nothing at all.
-/

namespace ClusterObjects

/-- Some change is made at the key. -/
def Touched (changes : List Change) (key : Key) : Prop := ∃ change ∈ changes, change.key = key

namespace Store

/-! ## What a run does to a key -/

/-- A write leaves a key alone, or it stores the next number there, or nothing. -/
theorem Sound.write_cases {store : Store} (h : store.Sound) {write : Write}
    (hwrite : write.WellFormed) (key : Key) :
    ¬ Touched (store.write write).published.toList key ∧
        (store.write write).store.items.get? key = store.items.get? key ∨
      Touched (store.write write).published.toList key ∧
        ∀ value, (store.write write).store.items.get? key = some value →
          HasVersion value (store.revision + 1) := by
  rw [write_eq]
  cases hadmits : store.admitWrite write with
  | error e =>
    refine Or.inl ⟨?_, rfl⟩
    rintro ⟨change, hchange, _⟩
    contradiction
  | ok change =>
    change ¬ Touched [change] key ∧ (store.commit change).items.get? key = _ ∨
      Touched [change] key ∧ ∀ value, (store.commit change).items.get? key = some value → _
    rw [get?_items_commit h.ascending]
    by_cases hkey : change.key = key
    · refine Or.inr ⟨⟨change, List.mem_singleton_self _, hkey⟩, fun value hvalue => ?_⟩
      rw [if_pos hkey] at hvalue
      rcases h.admitted hwrite hadmits with ⟨hdeleted, _⟩ | ⟨htype, _, hversion⟩
      · rw [if_pos hdeleted] at hvalue
        contradiction
      · rw [if_neg htype] at hvalue
        exact Option.some.inj hvalue ▸ hversion
    · refine Or.inl ⟨?_, if_neg hkey⟩
      rintro ⟨other, hother, heq⟩
      rw [List.mem_singleton.mp hother] at heq
      exact hkey heq

theorem revision_le_write (store : Store) (write : Write) :
    store.revision ≤ (store.write write).store.revision := by
  rw [write_eq]
  cases store.admitWrite write with
  | error e => exact Nat.le_refl _
  | ok change =>
    change store.revision ≤ (store.commit change).revision
    rw [revision_commit]
    split <;> omega

theorem touched_log_cons {store : Store} {write : Write} {writes : List Write} {key : Key} :
    Touched (store.log (write :: writes)) key ↔
      Touched (store.write write).published.toList key ∨
        Touched ((store.write write).store.log writes) key := by
  constructor
  · rintro ⟨change, hchange, hkey⟩
    rcases List.mem_append.mp hchange with hchange | hchange
    · exact Or.inl ⟨change, hchange, hkey⟩
    · exact Or.inr ⟨change, hchange, hkey⟩
  · rintro (⟨change, hchange, hkey⟩ | ⟨change, hchange, hkey⟩)
    · exact ⟨change, List.mem_append_left _ hchange, hkey⟩
    · exact ⟨change, List.mem_append_right _ hchange, hkey⟩

/-- A run leaves a key alone, or it touches the key and leaves a later number there than
any before, or nothing. -/
theorem Sound.after_cases {store : Store} (h : store.Sound) {writes : List Write}
    (hwrites : ∀ write ∈ writes, write.WellFormed) (key : Key) :
    ¬ Touched (store.log writes) key ∧
        (store.after writes).items.get? key = store.items.get? key ∨
      Touched (store.log writes) key ∧
        ∀ value, (store.after writes).items.get? key = some value →
          ∃ n, store.revision < n ∧ HasVersion value n := by
  induction writes generalizing store with
  | nil =>
    refine Or.inl ⟨?_, rfl⟩
    rintro ⟨change, hchange, _⟩
    contradiction
  | cons write rest ih =>
    obtain ⟨hwrite, hrest⟩ := List.forall_mem_cons.mp hwrites
    have hgrows := store.revision_le_write write
    rw [touched_log_cons]
    -- The last write at the key decides what is stored there.
    rcases ih (h.write hwrite) hrest with ⟨huntouched, hsame⟩ | ⟨htouched, hlater⟩
    · rcases h.write_cases hwrite key with ⟨hfirst, hkept⟩ | ⟨hfirst, hversion⟩
      · exact Or.inl ⟨not_or.mpr ⟨hfirst, huntouched⟩, hsame.trans hkept⟩
      · refine Or.inr ⟨Or.inl hfirst, fun value hvalue => ?_⟩
        have hnumber := hversion value (hsame.symm.trans hvalue)
        exact ⟨store.revision + 1, Nat.lt_succ_self _, hnumber⟩
    · refine Or.inr ⟨Or.inr htouched, fun value hvalue => ?_⟩
      obtain ⟨n, hn, hversion⟩ := hlater value hvalue
      exact ⟨n, by omega, hversion⟩

/-- A version read earlier is found later at no key but the one where it was read, and there
only if the key has not been touched since. -/
theorem Sound.versionOf_eq_iff {store : Store} (h : store.Sound) {writes : List Write}
    (hwrites : ∀ write ∈ writes, write.WellFormed) {key other : Key} {value found : Json}
    (hread : store.items.get? key = some value)
    (hfound : (store.after writes).items.get? other = some found) :
    versionOf found = versionOf value ↔ other = key ∧ ¬ Touched (store.log writes) key := by
  obtain ⟨n, hn, hversion⟩ := h.version key value hread
  rcases h.after_cases hwrites other with ⟨huntouched, hsame⟩ | ⟨htouched, hlater⟩
  · rw [hsame] at hfound
    constructor
    · intro hequal
      obtain rfl := h.unique other key found value hfound hread hequal
      exact ⟨rfl, huntouched⟩
    · rintro ⟨rfl, _⟩
      rw [Option.some.inj (hfound.symm.trans hread)]
  · refine iff_of_false (fun hequal => ?_) fun hpath => hpath.2 (hpath.1 ▸ htouched)
    -- A key that was touched holds a later number than the one read.
    obtain ⟨m, hm, hfoundVersion⟩ := hlater found hfound
    rw [versionOf_of_hasVersion hversion, versionOf_of_hasVersion hfoundVersion] at hequal
    have := versionText_injective hequal
    omega

/-! ## Updates that state a version -/

theorem text?_version_toJson {object : Container} {value : Json} {n : Nat}
    (hversion : HasVersion value n)
    (hcarries : object.metadata.resourceVersion? = some (versionOf value)) :
    Stored.text? object.toJson "resourceVersion" = some (versionOf value) := by
  have hvalue := text?_of_hasVersion hversion
  rw [← versionOf_of_hasVersion hversion] at hvalue
  rw [Stored.text?] at hvalue ⊢
  rw [Stored.metadata?_toJson]
  change (object.metadata.resourceVersion?).filter _ = _
  rw [hcarries]
  obtain ⟨_, hfilter⟩ := Option.filter_eq_some_iff.mp hvalue
  exact Option.filter_eq_some_iff.mpr ⟨rfl, hfilter⟩

/-- An update that carries a version read earlier is admitted only at the key where it was
read, and only if that key has not been touched since. -/
theorem Sound.untouched_of_admitUpdate {store : Store} (h : store.Sound) {writes : List Write}
    (hwrites : ∀ write ∈ writes, write.WellFormed) {key : Key} {value : Json}
    (hread : store.items.get? key = some value) {object : Container}
    (hcarries : object.metadata.resourceVersion? = some (versionOf value)) {change : Change}
    (hadmits : (store.after writes).admitUpdate object = .ok change) :
    change.key = key ∧ ¬ Touched (store.log writes) key := by
  obtain ⟨n, _, hversion⟩ := h.version key value hread
  obtain ⟨other, found, _, hfound, hstated, rfl⟩ := admitUpdate_eq_ok hadmits
  have hequal := hstated _ (text?_version_toJson hversion hcarries)
  exact (h.versionOf_eq_iff hwrites hread hfound).mp hequal.symm

/-- An update at the key where its version was read is admitted if that key has not been
touched since. -/
theorem Sound.admitUpdate_of_untouched {store : Store} (h : store.Sound) {writes : List Write}
    (hwrites : ∀ write ∈ writes, write.WellFormed) {key : Key} {value : Json}
    (hread : store.items.get? key = some value) {object : Container}
    (hkey : keyOf object = .ok key)
    (hcarries : object.metadata.resourceVersion? = some (versionOf value))
    (huntouched : ¬ Touched (store.log writes) key) :
    ∃ change, (store.after writes).admitUpdate object = .ok change := by
  obtain ⟨n, _, hversion⟩ := h.version key value hread
  rcases h.after_cases hwrites key with ⟨_, hsame⟩ | ⟨htouched, _⟩
  · rw [hread] at hsame
    have htext := text?_version_toJson hversion hcarries
    simp only [admitUpdate, hkey, find_eq_ok_iff.mpr hsame, htext, ↓reduceIte]
    exact ⟨_, rfl⟩
  · exact absurd htouched huntouched

/-- An outcome that changes nothing, with the error of a key that holds another version or
nothing. -/
structure Refused {α : Type} (store : Store) (key : Key) (outcome : Outcome α) : Prop where
  unchanged : outcome.store = store
  unpublished : outcome.published = none
  error : ∃ text, outcome.result =
    .error (if store.items.contains key then StoreError.conflict text else .notFound text)

/-- Why a write at a key is refused: the object there has another version, or there is none. -/
def RefusedBecause (store : Store) (key : Key) (e : StoreError) : Prop :=
  ∃ text, e = if store.items.contains key then StoreError.conflict text else .notFound text

theorem refusedBecause_update {store : Store} {object : Container} {key : Key}
    (hkey : keyOf object = .ok key) {e : StoreError} (h : store.admitUpdate object = .error e) :
    store.RefusedBecause key e := by
  unfold RefusedBecause Entries.contains
  cases hfound : store.items.get? key with
  | none =>
    simp only [admitUpdate, hkey, find, hfound] at h
    exact ⟨_, (Except.error.inj h).symm⟩
  | some found =>
    simp only [admitUpdate, hkey, find, hfound] at h
    split at h
    · contradiction
    · split at h
      · contradiction
      · exact ⟨_, (Except.error.inj h).symm⟩

theorem refusedBecause_patch {store : Store} {base object : Container} {key : Key}
    (hkey : keyOf object = .ok key) {e : StoreError} (h : store.admitPatch base object = .error e) :
    store.RefusedBecause key e := by
  unfold RefusedBecause Entries.contains
  cases hfound : store.items.get? key with
  | none =>
    simp only [admitPatch, hkey, find, hfound] at h
    exact ⟨_, (Except.error.inj h).symm⟩
  | some found =>
    simp only [admitPatch, hkey, find, hfound] at h
    split at h
    · contradiction
    · split at h
      · contradiction
      · exact ⟨_, (Except.error.inj h).symm⟩

/-- A write that is not admitted for one of these reasons changes nothing. -/
theorem refused_perform {α : Type} {store : Store} {key : Key} {admitted : Except StoreError Change}
    (result : Change → Except StoreError α)
    (hreason : ∀ e, admitted = .error e → store.RefusedBecause key e)
    (hadmits : ∀ change, admitted ≠ .ok change) :
    Refused store key (store.perform admitted result) := by
  cases admitted with
  | ok change => exact absurd rfl (hadmits change)
  | error e =>
    obtain ⟨text, rfl⟩ := hreason e rfl
    exact ⟨rfl, rfl, text, rfl⟩

/-- An update that is not admitted is refused for the version or for want of an object. -/
theorem refused_update {store : Store} {object : Container} {key : Key}
    (hkey : keyOf object = .ok key) (hadmits : ∀ change, store.admitUpdate object ≠ .ok change) :
    Refused store key (store.update object) :=
  refused_perform _ (fun _ => refusedBecause_update hkey) hadmits

/-- So is a patch that is not admitted. -/
theorem refused_patch {store : Store} {base object : Container} {key : Key}
    (hkey : keyOf object = .ok key)
    (hadmits : ∀ change, store.admitPatch base object ≠ .ok change) :
    Refused store key (store.patch base object) :=
  refused_perform _ (fun _ => refusedBecause_patch hkey) hadmits

end Store

end ClusterObjects
