import ClusterObjects.Proofs.Facade.Paths
import ClusterObjects.Proofs.Store.Concurrency

/-! # Updates never overwrite a later change

An update that carries a version read earlier in a run is carried out exactly if
the key has not been touched in between; it is then reported as done if its client
can read the result. The façade attaches the version that it has fetched, so its
updates are of this kind, whatever the body says.
-/

namespace ClusterObjects

namespace Store

/-- An update is carried out exactly if its key is untouched, and it succeeds exactly if
moreover it states its kind coherently; if the key is touched, nothing happens but a conflict,
or a report that nothing is there. -/
structure Guarded (store : Store) (object : Container) (key : Key) (touched : Prop) : Prop where
  carriedOut : (store.update object).published.isSome = true ↔ ¬ touched
  succeeds : object.WellFormed → ((∃ updated, (store.update object).result = .ok updated) ↔
    ¬ touched ∧ object.Coherent)
  refused : touched → Refused store key (store.update object)

/-- An update that carries a version read earlier is guarded by what has happened since. -/
theorem Sound.guarded {store : Store} (h : store.Sound) {writes : List Write}
    (hwrites : ∀ write ∈ writes, write.WellFormed) {key : Key} {value : Json}
    (hread : store.items.get? key = some value) {object : Container}
    (hkey : keyOf object = .ok key)
    (hcarries : object.metadata.resourceVersion? = some (versionOf value)) :
    Guarded (store.after writes) object key (Touched (store.log writes) key) := by
  have hrefused : Touched (store.log writes) key →
      Refused (store.after writes) key ((store.after writes).update object) := by
    intro htouched
    refine refused_update hkey fun change hadmits => ?_
    exact (h.untouched_of_admitUpdate hwrites hread hcarries hadmits).2 htouched
  have hadmitted : ¬ Touched (store.log writes) key → ∃ change,
      (store.after writes).admitUpdate object = .ok change ∧
        (store.after writes).update object = ⟨(store.after writes).commit change, some change,
          loadInto object change.value⟩ := by
    intro huntouched
    obtain ⟨change, hadmits⟩ := h.admitUpdate_of_untouched hwrites hread hkey hcarries huntouched
    refine ⟨change, hadmits, ?_⟩
    rw [Store.update, hadmits]
    rfl
  refine ⟨⟨fun hpublished htouched => ?_, fun huntouched => ?_⟩, fun hobject => ?_, hrefused⟩
  · rw [(hrefused htouched).unpublished] at hpublished
    contradiction
  · obtain ⟨change, _, hupdate⟩ := hadmitted huntouched
    rw [hupdate]
    rfl
  · by_cases htouched : Touched (store.log writes) key
    · refine iff_of_false ?_ fun h => h.1 htouched
      rintro ⟨updated, hupdated⟩
      obtain ⟨text, herror⟩ := (hrefused htouched).error
      rw [hupdated] at herror
      contradiction
    · obtain ⟨change, hadmits, hupdate⟩ := hadmitted htouched
      have hseals := ((h.after hwrites).seals_update hadmits).2
      rw [hupdate, and_iff_right htouched, ← Container.accepts_toJson_iff hobject]
      exact hseals.exists_loadInto_iff (Stored.draft_toJson hobject hkey) hobject

end Store

namespace Facade

/-- A request that updates what it has fetched is refused and leaves everything as it is, if
the object at the path has been touched since it was fetched, or the body is about another
object. -/
theorem submitUpdate_of_touched {store : Store} (hsound : store.Sound)
    (hscheme : store.scheme.Lawful) {writes : List Write}
    (hwrites : ∀ write ∈ writes, write.WellFormed) {hub : Hub}
    (hhub : hub.store = store.after writes) {gvr : Gvr} {namespaceName name : String} {body : Json}
    {current : Container} (hcurrent : fetched store gvr namespaceName name = .ok current)
    (hprevented : Touched (store.log writes) ⟨current.gvk, namespaceName, name⟩ ∨
      ∃ object, described hub.store gvr namespaceName (some name) body = .ok object ∧
        Key.ofContainer object ≠ ⟨current.gvk, namespaceName, name⟩) :
    ∃ e, submitUpdate gvr namespaceName name body current hub = (.error e, hub) := by
  obtain ⟨container, value, _, hfetched⟩ := exists_fetched hsound hscheme hcurrent
  rw [hfetched.gvk] at hprevented
  rw [submitUpdate_apply]
  cases hdescribed : described hub.store gvr namespaceName (some name) body with
  | error e => exact ⟨e, rfl⟩
  | ok object =>
    have hcarries := @resourceVersion?_withVersionOf object _ _ hfetched.version
    cases hadmits : hub.store.admitUpdate (withVersionOf object current) with
    | ok change =>
      -- Admission would mean that the fetched version is still stored, and under the path.
      have hkey := @Store.keyOf_of_admitWrite _ (.update (withVersionOf object current)) _ hadmits
      rw [hhub] at hadmits
      obtain ⟨hpath, huntouched⟩ :=
        hsound.untouched_of_admitUpdate hwrites hfetched.stored hcarries hadmits
      rcases hprevented with htouched | ⟨other, hother, hne⟩
      · exact absurd htouched huntouched
      · obtain rfl := Except.ok.inj (hdescribed.symm.trans hother)
        rw [← ofContainer_withVersionOf hfetched.version] at hne
        exact absurd ((Store.keyOf_eq_ok_iff.mp hkey).2.trans hpath) hne
    | error e =>
      have hupdate : hub.store.update (withVersionOf object current) =
          ⟨hub.store, none, .error e⟩ := by
        rw [Store.update, hadmits]
        rfl
      dsimp only
      rw [hupdate]
      exact ⟨_, rfl⟩

end Facade

/-- In every run of a store, an update of a key that carries the version read there at some
state is carried out at a later state exactly if no change has been made at the key in
between, and succeeds exactly if moreover its container states its kind coherently; if the key
has been touched it fails, with a conflict if some object is there and as not found if none
is, and changes nothing. An update through the façade carries the version that it has fetched:
if the object at its path has been touched since, or the body is about an object under another
key, it fails and changes nothing. -/
theorem optimistic_concurrency {start : Store} (hstart : start.Fresh)
    {earlier later : List Write} (hearlier : ∀ write ∈ earlier, write.WellFormed)
    (hlater : ∀ write ∈ later, write.WellFormed) :
    (∀ (key : Key) (stored : Json) (object : Container),
      (start.after earlier).items.get? key = some stored → Store.keyOf object = .ok key →
      object.metadata.resourceVersion? = some (Store.versionOf stored) →
      Store.Guarded ((start.after earlier).after later) object key
        (Touched ((start.after earlier).log later) key)) ∧
    (start.scheme.Lawful → ∀ (before now : Hub) (gvr : Gvr) (namespaceName name : String)
      (body : Json) (current : Container), before.store = start.after earlier →
      now.store = (start.after earlier).after later →
      (Facade.fetch gvr namespaceName name before).1 = .ok current →
      Touched ((start.after earlier).log later) ⟨current.gvk, namespaceName, name⟩ ∨
        (∃ object, Facade.described now.store gvr namespaceName (some name) body = .ok object ∧
          Key.ofContainer object ≠ ⟨current.gvk, namespaceName, name⟩) →
      ∃ e, Facade.submitUpdate gvr namespaceName name body current now = (.error e, now)) := by
  have hsound := hstart.sound.after hearlier
  refine ⟨fun key stored object hread hkey hcarries => hsound.guarded hlater hread hkey hcarries,
    ?_⟩
  intro hscheme before now gvr namespaceName name body current hbefore hnow hfetch hprevented
  rw [Facade.fetch_apply, hbefore] at hfetch
  have hlawful : (start.after earlier).scheme.Lawful := by
    rwa [Store.scheme_after]
  exact Facade.submitUpdate_of_touched hsound hlawful hlater hnow hfetch hprevented

/-- The object created first is updated with the version that the creation gave it, although
another one has been created and updated in between. -/
theorem optimistic_concurrency_named :
    ∃ updated, (((Store.still.after [.create Store.named]).after Store.neighbourWrites).update
      (Store.named.setText "resourceVersion" "1")).result = .ok updated := by
  have hcreate : ∀ write ∈ [Write.create Store.named], write.WellFormed :=
    List.forall_mem_singleton.mpr Store.wellFormed_named
  have hversion : ((Store.still.after [.create Store.named]).items.get?
      ⟨⟨"", "v1", "ConfigMap"⟩, "", "a"⟩).map Store.versionOf = some "1" := by decide +kernel
  have hkeys : ∀ key ∈ ((Store.still.after [.create Store.named]).log
      Store.neighbourWrites).map Change.key,
      key = ⟨⟨"", "v1", "ConfigMap"⟩, "", "b"⟩ := by decide +kernel
  obtain ⟨stored, hread, hstored⟩ := Option.map_eq_some_iff.mp hversion
  have hguarded := (optimistic_concurrency Store.fresh_still hcreate
    Store.wellFormed_neighbourWrites).1 ⟨⟨"", "v1", "ConfigMap"⟩, "", "a"⟩ stored
    (Store.named.setText "resourceVersion" "1") hread rfl (by rw [hstored]; rfl)
  have hwrite := Store.wellFormed_named.setText "resourceVersion" "1" rfl rfl
  refine (hguarded.succeeds hwrite).mpr ⟨?_, rfl⟩
  rintro ⟨change, hchange, hkey⟩
  have hother := hkeys change.key (List.mem_map_of_mem hchange)
  rw [hkey] at hother
  exact absurd hother (by decide)

/-- The object created first, with the version that the creation gave it, in a container that
writes the kind with a slash in front. -/
def misstated : Container :=
  ((Container.generic ⟨"", "/v1", "ConfigMap"⟩).setText "name" "a").setText "resourceVersion" "1"

/-- Its update is carried out although it fails: the container takes the value that it has
just written for one of another kind. -/
theorem not_succeeds_misstated : misstated.WellFormed ∧ ∃ stored,
    (Store.still.after [.create Store.named]).items.get? ⟨⟨"", "v1", "ConfigMap"⟩, "", "a"⟩ =
      some stored ∧
    Store.keyOf misstated = .ok ⟨⟨"", "v1", "ConfigMap"⟩, "", "a"⟩ ∧
    misstated.metadata.resourceVersion? = some (Store.versionOf stored) ∧
    ((Store.still.after [.create Store.named]).update misstated).published.isSome = true ∧
    ¬ ∃ updated,
      ((Store.still.after [.create Store.named]).update misstated).result = .ok updated := by
  have hversion : ((Store.still.after [.create Store.named]).items.get?
      ⟨⟨"", "v1", "ConfigMap"⟩, "", "a"⟩).map Store.versionOf = some "1" := by decide +kernel
  have hfails : ((Store.still.after [.create Store.named]).update misstated).result.isOk =
      false := by decide +kernel
  obtain ⟨stored, hread, hstored⟩ := Option.map_eq_some_iff.mp hversion
  have hwhole := ((Container.wellFormed_generic ⟨"", "/v1", "ConfigMap"⟩).setText "name" "a" rfl
    rfl).setText "resourceVersion" "1" rfl rfl
  refine ⟨hwhole, stored, hread, rfl, hstored ▸ rfl, by decide +kernel, ?_⟩
  rintro ⟨updated, hupdated⟩
  rw [hupdated] at hfails
  exact Bool.noConfusion hfails

end ClusterObjects
