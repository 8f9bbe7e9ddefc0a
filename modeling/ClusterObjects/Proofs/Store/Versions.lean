import ClusterObjects.Proofs.Store.Run

/-! # The versions of changes

Every change but a deletion takes the next version and stores it with its value, so
along a run the versions of such changes ascend. A deletion takes none: its change
has the version of the value that it removes, which is that of an earlier change or of
a value that was there from the start, and the count of the store stays behind.
-/

namespace ClusterObjects

namespace Store

/-! ## One change -/

/-- What is known about a change that a store has admitted. -/
structure Numbered (store : Store) (change : Change) (n : Nat) : Prop where
  belongs : Stored.Belongs change.key change.value
  version : HasVersion change.value n
  le : n ≤ (store.commit change).revision
  lt : change.type ≠ .deleted → store.revision < n

theorem Sound.exists_numbered {store : Store} (h : store.Sound) {write : Write}
    (hwrite : write.WellFormed) {change : Change} (hadmits : store.admitWrite write = .ok change) :
    ∃ n, store.Numbered change n := by
  rcases h.admitted hwrite hadmits with ⟨hdeleted, hstored⟩ | ⟨hother, hbelongs, hversion⟩
  · obtain ⟨n, hn, hversion⟩ := h.version change.key change.value hstored
    refine ⟨n, h.belongs _ _ hstored, hversion, ?_, fun hne => absurd hdeleted hne⟩
    rwa [revision_commit, if_pos hdeleted]
  · refine ⟨store.revision + 1, hbelongs, hversion, ?_, fun _ => Nat.lt_succ_self _⟩
    exact Nat.le_of_eq ((revision_commit store change).trans (if_neg hother)).symm

theorem Numbered.eq {store other : Store} {change second : Change} {m n : Nat}
    (h : store.Numbered change m) (hother : other.Numbered second n)
    (hvalue : change.value = second.value) : m = n := by
  have hversion := h.version
  rw [hvalue] at hversion
  have hequal := (versionOf_of_hasVersion hversion).symm.trans
    (versionOf_of_hasVersion hother.version)
  exact versionText_injective hequal

/-! ## Runs -/

/-- Each change of a run is admitted by the store that the changes before it have led to. -/
theorem exists_of_log_eq {store : Store} {writes : List Write} {before rest : List Change}
    {change : Change} (h : store.log writes = before ++ change :: rest) :
    ∃ earlier write later, writes = earlier ++ write :: later ∧ store.log earlier = before ∧
      (store.after earlier).admitWrite write = .ok change := by
  induction writes generalizing store before with
  | nil =>
    have hlength := congrArg List.length h
    simp [log] at hlength
  | cons first others ih =>
    rw [log] at h
    cases hadmits : store.admitWrite first with
    | error e =>
      rw [write_of_refused hadmits] at h
      obtain ⟨earlier, write, later, rfl, hlog, hwrite⟩ := ih h
      refine ⟨first :: earlier, write, later, rfl, ?_, ?_⟩
      · rw [log, write_of_refused hadmits]
        exact hlog
      · rw [after, List.foldl_cons, write_of_refused hadmits]
        exact hwrite
    | ok made =>
      rw [write_of_admitted hadmits] at h
      cases before with
      | nil =>
        obtain ⟨rfl, _⟩ := List.cons.inj h
        exact ⟨[], first, others, rfl, rfl, hadmits⟩
      | cons head tail =>
        obtain ⟨rfl, htail⟩ := List.cons.inj h
        obtain ⟨earlier, write, later, rfl, hlog, hwrite⟩ := ih htail
        refine ⟨first :: earlier, write, later, rfl, ?_, ?_⟩
        · rw [log, write_of_admitted hadmits]
          exact congrArg _ hlog
        · rw [after, List.foldl_cons, write_of_admitted hadmits]
          exact hwrite

/-- The count of a store after a run counts the changes that are no deletions. -/
theorem revision_after (store : Store) (writes : List Write) :
    (store.after writes).revision =
      store.revision + (store.log writes).countP fun change => change.type ≠ .deleted := by
  induction writes generalizing store with
  | nil => rfl
  | cons write rest ih =>
    change ((store.write write).store.after rest).revision = _
    rw [ih, log, List.countP_append]
    cases hadmits : store.admitWrite write with
    | error e =>
      rw [write_of_refused hadmits]
      simp
    | ok change =>
      rw [write_of_admitted hadmits]
      dsimp only [Option.toList_some]
      rw [revision_commit, List.countP_singleton]
      by_cases hdeleted : change.type = .deleted
      · simp [hdeleted]
      · simp [hdeleted, Nat.add_assoc]

/-- Each change of a run has a version, and one that is no deletion has a later one than
anything that was there before the run. -/
theorem Sound.exists_version_of_mem_log {store : Store} (h : store.Sound) {writes : List Write}
    (hwrites : ∀ write ∈ writes, write.WellFormed) {change : Change}
    (hchange : change ∈ store.log writes) :
    ∃ n, Stored.Belongs change.key change.value ∧ HasVersion change.value n ∧
      (change.type ≠ .deleted → store.revision < n) := by
  obtain ⟨before, rest, hlog⟩ := List.append_of_mem hchange
  obtain ⟨earlier, write, later, rfl, _, hadmits⟩ := exists_of_log_eq hlog
  have hearlier : ∀ other ∈ earlier, other.WellFormed :=
    fun other hother => hwrites other (List.mem_append_left _ hother)
  have hwrite := hwrites write (List.mem_append_right _ List.mem_cons_self)
  obtain ⟨n, hn⟩ := (h.after hearlier).exists_numbered hwrite hadmits
  refine ⟨n, hn.belongs, hn.version, fun hother => ?_⟩
  have hlater := hn.lt hother
  rw [revision_after] at hlater
  omega

end Store

/-- The version of a change is earlier than that of another. -/
def Change.Precedes (first second : Change) : Prop :=
  ∃ m n, Store.HasVersion first.value m ∧ Store.HasVersion second.value n ∧ m < n

namespace Store

/-- Along a run every change has an earlier version than those after it, deletions apart. -/
theorem Sound.pairwise_log {store : Store} (h : store.Sound) {writes : List Write}
    (hwrites : ∀ write ∈ writes, write.WellFormed) :
    (store.log writes).Pairwise fun first second =>
      second.type ≠ .deleted → first.Precedes second := by
  induction writes generalizing store with
  | nil => exact List.Pairwise.nil
  | cons write rest ih =>
    obtain ⟨hwrite, hrest⟩ := List.forall_mem_cons.mp hwrites
    have hafter := ih (h.write hwrite) hrest
    rw [log]
    cases hadmits : store.admitWrite write with
    | error e =>
      rw [write_of_refused hadmits] at hafter ⊢
      exact hafter
    | ok change =>
      obtain ⟨m, hm⟩ := h.exists_numbered hwrite hadmits
      have hsound := h.write hwrite
      rw [write_of_admitted hadmits] at hafter hsound ⊢
      refine List.pairwise_cons.mpr ⟨fun second hsecond hother => ?_, hafter⟩
      obtain ⟨n, _, hversion, hlater⟩ := hsound.exists_version_of_mem_log hrest hsecond
      exact ⟨m, n, hm.version, hversion, Nat.lt_of_le_of_lt hm.le (hlater hother)⟩

/-- What is stored after a run was there before, or a change of the run has stored it. -/
theorem Sound.origin_of_stored {store : Store} (h : store.Sound) {writes : List Write}
    (hwrites : ∀ write ∈ writes, write.WellFormed) {key : Key} {value : Json}
    (hstored : (store.after writes).items.get? key = some value) :
    store.items.get? key = some value ∨ ∃ change ∈ store.log writes,
      change.type ≠ .deleted ∧ change.key = key ∧ change.value = value := by
  induction writes generalizing store with
  | nil => exact Or.inl hstored
  | cons write rest ih =>
    obtain ⟨hwrite, hrest⟩ := List.forall_mem_cons.mp hwrites
    rw [log]
    rcases ih (h.write hwrite) hrest hstored with hbefore | ⟨change, hchange, hmade⟩
    · cases hadmits : store.admitWrite write with
      | error e =>
        rw [write_of_refused hadmits] at hbefore
        exact Or.inl hbefore
      | ok change =>
        rw [write_of_admitted hadmits] at hbefore ⊢
        change (store.commit change).items.get? key = _ at hbefore
        rw [get?_items_commit h.ascending] at hbefore
        split at hbefore
        next hkey =>
          split at hbefore
          · contradiction
          next hother =>
            exact Or.inr ⟨change, List.mem_cons_self, hother, hkey, Option.some.inj hbefore⟩
        next => exact Or.inl hbefore
    · exact Or.inr ⟨change, List.mem_append_right _ hchange, hmade⟩

/-- The value that a deletion of a run removes was there before, or an earlier change of the run
has stored it. -/
theorem Sound.origin_of_deleted {store : Store} (h : store.Sound) {writes : List Write}
    (hwrites : ∀ write ∈ writes, write.WellFormed) {before rest : List Change} {change : Change}
    (hlog : store.log writes = before ++ change :: rest) (hdeleted : change.type = .deleted) :
    store.items.get? change.key = some change.value ∨ ∃ made ∈ before,
      made.type ≠ .deleted ∧ made.key = change.key ∧ made.value = change.value := by
  obtain ⟨earlier, write, later, rfl, rfl, hadmits⟩ := exists_of_log_eq hlog
  have hearlier : ∀ other ∈ earlier, other.WellFormed :=
    fun other hother => hwrites other (List.mem_append_left _ hother)
  have hwrite := hwrites write (List.mem_append_right _ List.mem_cons_self)
  rcases (h.after hearlier).admitted hwrite hadmits with ⟨_, hstored⟩ | ⟨hother, _⟩
  · exact h.origin_of_stored hearlier hstored
  · exact absurd hdeleted hother

end Store

end ClusterObjects
