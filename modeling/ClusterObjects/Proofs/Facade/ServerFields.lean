import ClusterObjects.Proofs.Facade.Paths
import ClusterObjects.Proofs.Store.ServerFields

/-! # Requests leave to the server what is the server's

A request to the façade does nothing, or it does what one write of well-formed containers
does, whatever its body says and however long ago it fetched the object that it is about. So
an object keeps its identifier and its creation time under all requests, and the requests that
change it raise its version.
-/

namespace ClusterObjects

open Stored (Replaces)

namespace Facade

/-- A request does nothing or submits a write, and an object that is there before and after it
is the same or has been replaced; it has been replaced if the request gives it back. -/
structure Conserves (hub : Hub) (answer : Except ApiError (Option Container) × Hub) : Prop where
  written : (∃ e, answer = (.error e, hub)) ∨
    ∃ write : Write, write.WellFormed ∧ answer = submit hub write
  kept : ∀ key old new, hub.store.items.get? key = some old →
    answer.2.store.items.get? key = some new → new = old ∨ Replaces old new
  succeeds : ∀ object old, answer.1 = .ok (some object) →
    hub.store.items.get? (.ofContainer object) = some old →
    ∃ new, answer.2.store.items.get? (.ofContainer object) = some new ∧ Replaces old new

variable {hub : Hub}

theorem conserves_error (e : ApiError) : Conserves hub (.error e, hub) := by
  refine ⟨Or.inl ⟨e, rfl⟩, fun key old new hold hnew => ?_, fun object old hresult => ?_⟩
  · exact Or.inl (Option.some.inj (hnew.symm.trans hold))
  · contradiction

theorem conserves_submit (hsound : hub.store.Sound) {write : Write} (hwrite : write.WellFormed) :
    Conserves hub (submit hub write) := by
  have hstore : (submit hub write).2.store = (hub.store.write write).store := hub.store_absorb _
  refine ⟨Or.inr ⟨write, hwrite, rfl⟩, fun key old new hold hnew => ?_, ?_⟩
  · rw [hstore] at hnew
    exact hsound.kept_by_write hwrite hold hnew
  · intro object old hresult hold
    obtain ⟨change, hadmits, hback⟩ :=
      Store.admitted_of_succeeds (refusedByStore_eq_ok hresult)
    obtain ⟨htype, hkey⟩ := hsound.keyOf_of_readBack hwrite hadmits hback
    have hpath := (Store.keyOf_eq_ok_iff.mp hkey).2
    rw [hpath] at hold ⊢
    refine ⟨change.value, ?_, hsound.replaces_of_admitted hwrite hadmits htype hold⟩
    rw [hstore, Store.write_of_admitted hadmits, Store.get?_items_commit hsound.ascending,
      if_pos rfl, if_neg htype]

theorem conserves_serve (hsound : hub.store.Sound) (hscheme : hub.store.scheme.Lawful)
    {request : Request} (hrequest : request.WellFormed) : Conserves hub (serve request hub) :=
  serve_cases conserves_error fun _ hsubmission =>
    conserves_submit hsound (wellFormed_submission hsound hscheme hrequest hsubmission)

section

variable {earlier : Store} (hearlier : earlier.Sound) (hlawful : earlier.scheme.Lawful)
  (hsound : hub.store.Sound) (hscheme : hub.store.scheme.Lawful) {gvr : Gvr}
  {namespaceName name : String} {body : Json} (hbody : body.WellFormed) {current : Container}
  (hcurrent : fetched earlier gvr namespaceName name = .ok current)

include hearlier hlawful hsound hscheme hbody hcurrent

theorem conserves_submitUpdate :
    Conserves hub ((some <$> submitUpdate gvr namespaceName name body current) hub) :=
  submitUpdate_cases conserves_error fun _ hobject =>
    conserves_submit hsound (wellFormed_update hearlier hlawful hscheme hcurrent hbody hobject)

theorem conserves_submitPatch :
    Conserves hub ((some <$> submitPatch gvr namespaceName name body current) hub) :=
  submitPatch_cases conserves_error fun _ hobject =>
    conserves_submit hsound (wellFormed_patch hearlier hlawful hscheme hcurrent hbody hobject)

end

end Facade

/-- In every run of a store, from any state that has a value at a key and for as long as nothing
is deleted there, the values stored at the key have the identifier and the creation time of
the first one, and each has a greater version than those before; a further update or patch
of the key that succeeds stores one more such value. Requests to the façade are writes of
such runs, at whatever state of the run they have fetched what they update or patch, and with
whatever body. -/
theorem server_fields_conserved {start : Store} (hstart : start.Fresh)
    {earlier later : List Write} (hearlier : ∀ write ∈ earlier, write.WellFormed)
    (hlater : ∀ write ∈ later, write.WellFormed) :
    (∀ (key : Key) (value : Json), (start.after earlier).items.get? key = some value →
      Store.Spares key ((start.after earlier).log later) →
      Store.Lineage (start.after earlier) later key
        (value :: Store.storedAt key ((start.after earlier).log later))) ∧
    (start.scheme.Lawful → ∀ (before now : Hub), before.store = start.after earlier →
      now.store = (start.after earlier).after later →
      (∀ request : Facade.Request, request.WellFormed →
        Facade.Conserves now (Facade.serve request now)) ∧
      ∀ (gvr : Gvr) (namespaceName name : String) (body : Json) (current : Container),
        body.WellFormed → (Facade.fetch gvr namespaceName name before).1 = .ok current →
        Facade.Conserves now
          ((some <$> Facade.submitUpdate gvr namespaceName name body current) now) ∧
        Facade.Conserves now
          ((some <$> Facade.submitPatch gvr namespaceName name body current) now)) := by
  have hsound := hstart.sound.after hearlier
  refine ⟨fun key value hvalue hspares => hsound.lineage hlater hvalue hspares, ?_⟩
  intro hscheme before now hbefore hnow
  have hlawful : (start.after earlier).scheme.Lawful := by
    rwa [Store.scheme_after]
  have hnowSound : now.store.Sound := hnow ▸ hsound.after hlater
  have hnowLawful : now.store.scheme.Lawful := by
    rwa [hnow, Store.scheme_after]
  refine ⟨fun request hrequest => Facade.conserves_serve hnowSound hnowLawful hrequest, ?_⟩
  intro gvr namespaceName name body current hbody hfetch
  rw [Facade.fetch_apply, hbefore] at hfetch
  exact ⟨Facade.conserves_submitUpdate hsound hlawful hnowSound hnowLawful hbody hfetch,
    Facade.conserves_submitPatch hsound hlawful hnowSound hnowLawful hbody hfetch⟩

/-- The config map created first is updated by an object that states no identifier. -/
theorem server_fields_conserved_named : ∃ old new,
    (Store.still.after [.create Store.named]).items.get? ⟨⟨"", "v1", "ConfigMap"⟩, "", "a"⟩ =
      some old ∧
    Store.storedAt ⟨⟨"", "v1", "ConfigMap"⟩, "", "a"⟩
      ((Store.still.after [.create Store.named]).log [.update Store.named]) = [new] ∧
    Store.Lineage (Store.still.after [.create Store.named]) [.update Store.named]
      ⟨⟨"", "v1", "ConfigMap"⟩, "", "a"⟩ [old, new] := by
  have hcreated : ((Store.still.after [.create Store.named]).items.get?
      ⟨⟨"", "v1", "ConfigMap"⟩, "", "a"⟩).isSome = true := by decide +kernel
  obtain ⟨old, hold⟩ := Option.isSome_iff_exists.mp hcreated
  have hupdated : (Store.storedAt ⟨⟨"", "v1", "ConfigMap"⟩, "", "a"⟩
      ((Store.still.after [.create Store.named]).log [.update Store.named])).length = 1 := by
    decide +kernel
  obtain ⟨new, hnew⟩ := List.length_eq_one_iff.mp hupdated
  have htypes : ((Store.still.after [.create Store.named]).log [.update Store.named]).all
      (fun change => change.type != .deleted) = true := by decide +kernel
  have hspares : Store.Spares ⟨⟨"", "v1", "ConfigMap"⟩, "", "a"⟩
      ((Store.still.after [.create Store.named]).log [.update Store.named]) :=
    fun change hchange _ => bne_iff_ne.mp (List.all_eq_true.mp htypes change hchange)
  have hcreate : ∀ write ∈ [Write.create Store.named], write.WellFormed :=
    List.forall_mem_singleton.mpr Store.wellFormed_named
  have hupdate : ∀ write ∈ [Write.update Store.named], write.WellFormed :=
    List.forall_mem_singleton.mpr Store.wellFormed_named
  have hlineage :=
    (server_fields_conserved Store.fresh_still hcreate hupdate).1 _ old hold hspares
  rw [hnew] at hlineage
  exact ⟨old, new, hold, hnew, hlineage⟩

end ClusterObjects
