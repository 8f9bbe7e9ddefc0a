import ClusterObjects.Proofs.Schema.Catalog
import ClusterObjects.Proofs.Store.ReadBack

/-! # Writes that happen as a whole or not at all

A write that fails should leave no trace, and one that succeeds should change the
item of its own key only, publish one change and count once. This holds of every
write that is refused and of every write whose client can read back what has been
stored, and of no other: what cannot be read back has already been carried out.
-/

namespace ClusterObjects.Store

/-- The write deletes an object. -/
def deletes : Write → Bool
  | .delete _ => true
  | _ => false

/-- A failing write leaves the items and the count as they were and publishes nothing; a
successful one publishes one change, at the key of its object, which changes the item there
and no other and counts unless it deletes. -/
structure AllOrNothing (store : Store) (write : Write) : Prop where
  failure : ∀ e, (store.write write).result = .error e →
    (store.write write).store = store ∧ (store.write write).published = none
  success : ∀ result, (store.write write).result = .ok result →
    ∃ change, (store.write write).published = some change ∧
      keyOf write.object = .ok change.key ∧
      (store.write write).store.items.get? change.key ≠ store.items.get? change.key ∧
      (∀ key, key ≠ change.key →
        (store.write write).store.items.get? key = store.items.get? key) ∧
      (store.write write).store.revision =
        if deletes write then store.revision else store.revision + 1

/-- What a write that is carried out does to the items and the count. -/
theorem Sound.commit_admitted {store : Store} (h : store.Sound) {write : Write}
    (hwrite : write.WellFormed) {change : Change} (hadmits : store.admitWrite write = .ok change) :
    (store.commit change).items.get? change.key ≠ store.items.get? change.key ∧
      (∀ key, key ≠ change.key →
        (store.commit change).items.get? key = store.items.get? key) ∧
      (store.commit change).revision =
        if deletes write then store.revision else store.revision + 1 := by
  have hget := get?_items_commit h.ascending change
  have hdeletes : change.type = .deleted ↔ deletes write = true := by
    cases write with
    | create object =>
      obtain ⟨_, _, _, rfl⟩ := admitCreate_eq_ok hadmits
      exact iff_of_false nofun nofun
    | update object =>
      obtain ⟨_, _, _, _, _, rfl⟩ := admitUpdate_eq_ok hadmits
      exact iff_of_false nofun nofun
    | patch base object =>
      obtain ⟨_, _, _, _, _, rfl⟩ := admitPatch_eq_ok hadmits
      exact iff_of_false nofun nofun
    | delete object =>
      obtain ⟨_, _, _, _, rfl⟩ := admitDelete_eq_ok hadmits
      exact iff_of_true rfl rfl
  refine ⟨?_, fun key hkey => ?_, ?_⟩
  · rw [hget, if_pos rfl]
    rcases h.admitted hwrite hadmits with ⟨hdeleted, hstored⟩ | ⟨htype, _, hversion⟩
    · rw [if_pos hdeleted, hstored]
      exact nofun
    · rw [if_neg htype]
      intro hsame
      -- A value that was there before carries an earlier number than the new one.
      obtain ⟨n, hn, hold⟩ := h.version change.key change.value hsame.symm
      have hequal := (versionOf_of_hasVersion hold).symm.trans (versionOf_of_hasVersion hversion)
      have := versionText_injective hequal
      omega
  · rw [hget, if_neg hkey.symm]
  · rw [revision_commit]
    simp only [hdeletes]

/-- A write is all or nothing exactly if it is refused or its client can load what it
stores. -/
theorem allOrNothing_iff {start : Store} (hstart : start.Fresh) {writes : List Write}
    (hwrites : ∀ write ∈ writes, write.WellFormed) {write : Write} (hwrite : write.WellFormed) :
    (start.after writes).AllOrNothing write ↔
      (∃ e, (start.after writes).admitWrite write = .error e) ∨
        (start.after writes).ReadsBack write := by
  have hsound := hstart.sound.after hwrites
  generalize start.after writes = store at hsound ⊢
  cases hadmits : store.admitWrite write with
  | error e =>
    have hrefused : store.write write = ⟨store, none, .error e⟩ := by
      rw [write_eq, hadmits]
      rfl
    refine iff_of_true ⟨?_, ?_⟩ (Or.inl ⟨e, rfl⟩)
    · intro _ _
      rw [hrefused]
      exact ⟨rfl, rfl⟩
    · intro result hresult
      rw [hrefused] at hresult
      contradiction
  | ok change =>
    have hcarried : store.write write =
        ⟨store.commit change, some change, readBack write change⟩ := by
      rw [write_eq, hadmits]
      rfl
    have hreads := hsound.exists_readBack_iff hwrite hadmits
    have hcommit := hsound.commit_admitted hwrite hadmits
    constructor
    · intro h
      refine Or.inr (hreads.mp ?_)
      cases hback : readBack write change with
      | ok result => exact ⟨result, rfl⟩
      | error e =>
        have hfailure := h.failure e (by rw [hcarried, hback])
        rw [hcarried] at hfailure
        exact absurd hfailure.2 nofun
    · rintro (⟨_, hrefused⟩ | hback)
      · contradiction
      · obtain ⟨result, hresult⟩ := hreads.mpr hback
        refine ⟨?_, ?_⟩
        · intro e herror
          rw [hcarried, hresult] at herror
          contradiction
        · intro _ _
          rw [hcarried]
          exact ⟨change, rfl, keyOf_of_admitWrite hadmits, hcommit⟩

/-- An update of one of two objects is all or nothing. -/
theorem allOrNothing_update_named :
    (still.after (.create named :: neighbourWrites)).AllOrNothing (.update named) := by
  have hwrites : ∀ write ∈ Write.create named :: neighbourWrites, write.WellFormed :=
    List.forall_mem_cons.mpr ⟨wellFormed_named, wellFormed_neighbourWrites⟩
  have hwrite : (Write.update named).WellFormed := wellFormed_named
  exact (allOrNothing_iff fresh_still hwrites hwrite).mpr (Or.inr rfl)

/-- The value of a config map with labels and further members. -/
def configMapValue (labels members : Json.Fields) : Json :=
  .obj (members ++ [("metadata", .obj [("labels", .obj labels), ("name", .str "a")])])

/-- A typed patch of what a generic client has stored fails after it has been carried out:
the data of this config map is no map. -/
theorem not_allOrNothing_foreign :
    ¬ ∀ (start : Store) (writes : List Write) (write : Write), start.Fresh →
      (∀ write ∈ writes, write.WellFormed) → write.WellFormed →
      (start.after writes).AllOrNothing write := by
  intro h
  have hloads : (((Container.generic Schema.configMap.gvk).load
        (configMapValue [] [("data", .ofInt 5)])).toOption.bind fun odd =>
      ((Container.ofTyped Schema.configMap).load (configMapValue [] [])).toOption.bind fun base =>
      ((Container.ofTyped Schema.configMap).load
        (configMapValue [("x", .str "y")] [])).toOption.map fun object =>
      let outcome := (still.after [.create odd]).write (.patch base object)
      outcome.published.isSome && !outcome.result.isOk) = some true := by decide +kernel
  obtain ⟨odd, hodd, hloads⟩ := Option.bind_eq_some_iff.mp hloads
  obtain ⟨base, hbase, hloads⟩ := Option.bind_eq_some_iff.mp hloads
  obtain ⟨object, hobject, hrun⟩ := Option.map_eq_some_iff.mp hloads
  have hoddWhole :=
    Container.wellFormed_of_load (Container.lawful_generic _) (by decide +kernel)
      (eq_ok_of_toOption hodd)
  have htyped := Container.lawful_ofTyped Schema.lawful_configMap
  have hbaseWhole := Container.wellFormed_of_load htyped (by decide +kernel)
    (eq_ok_of_toOption hbase)
  have hobjectWhole := Container.wellFormed_of_load htyped (by decide +kernel)
    (eq_ok_of_toOption hobject)
  have hlaw := h still [.create odd] (.patch base object) fresh_still
    (fun _ hwrite => List.mem_singleton.mp hwrite ▸ hoddWhole) ⟨hbaseWhole, hobjectWhole⟩
  rw [Bool.and_eq_true, Bool.not_eq_true'] at hrun
  cases hresult : ((still.after [.create odd]).write (.patch base object)).result with
  | ok result =>
    rw [hresult] at hrun
    exact Bool.noConfusion hrun.2
  | error e =>
    have hpublished := (hlaw.failure e hresult).2
    rw [hpublished] at hrun
    exact Bool.noConfusion hrun.1

end ClusterObjects.Store
