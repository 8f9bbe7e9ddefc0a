import ClusterObjects.Proofs.Facade.MergePatch
import ClusterObjects.Proofs.Store.Atomicity

/-! # Patches that state a version

The body of a patch may state the version that it is meant for. What the store checks
is the version that sets the merged object apart from the one fetched: it notices a
version that was not the one fetched, and it does not notice that the one fetched has
become stale before the patch is written.
-/

namespace ClusterObjects

namespace Facade

/-- A patch of a fetched object is held to a version at the key that it is written to: if it
succeeds, the value there had this version, and if no value there has it, the patch is refused
with a conflict, or as not found if nothing is there, and changes nothing. -/
structure HeldTo (hub : Hub) (gvr : Gvr) (namespaceName name : String) (body : Json)
    (current : Container) (key : Key) (version : String) : Prop where
  succeeds : ∀ result, (submitPatch gvr namespaceName name body current hub).1 = .ok result →
    ∃ value, hub.store.items.get? key = some value ∧ Store.versionOf value = version
  refused : (∀ value, hub.store.items.get? key = some value → Store.versionOf value ≠ version) →
    ∃ text, submitPatch gvr namespaceName name body current hub =
      (.error (if hub.store.items.contains key then .conflict text else .notFound text), hub)

section

variable {hub : Hub} {gvr : Gvr} {namespaceName name : String} {body : Json}
  {current object : Container} {key : Key} {version : String}

/-- What a patch does once the object that it submits is known. -/
theorem submitPatch_of_described
    (hobject : described hub.store gvr namespaceName (some name) (current.toJson.applyPatch body) =
      .ok object) :
    submitPatch gvr namespaceName name body current hub =
      (refusedByStore (hub.store.patch current object).result,
        (hub.absorb (hub.store.patch current object)).2) := by
  rw [submitPatch_apply, hobject]

/-- A patch that is admitted only where the version is stored is held to it. -/
theorem heldTo_of_admitPatch
    (hobject : described hub.store gvr namespaceName (some name) (current.toJson.applyPatch body) =
      .ok object)
    (hkey : Store.keyOf object = .ok key)
    (hadmitted : ∀ change, hub.store.admitPatch current object = .ok change →
      ∃ value, hub.store.items.get? key = some value ∧ Store.versionOf value = version) :
    HeldTo hub gvr namespaceName name body current key version := by
  refine ⟨fun result hresult => ?_, fun hother => ?_⟩
  · rw [submitPatch_of_described hobject] at hresult
    cases hadmits : hub.store.admitPatch current object with
    | ok change => exact hadmitted change hadmits
    | error e =>
      rw [Store.patch, hadmits] at hresult
      contradiction
  · have hrefused := Store.refused_patch hkey fun change hadmits => by
      obtain ⟨value, hvalue, hversion⟩ := hadmitted change hadmits
      exact hother value hvalue hversion
    obtain ⟨text, herror⟩ := hrefused.error
    refine ⟨text, ?_⟩
    rw [submitPatch_of_described hobject, Hub.absorb, hrefused.unpublished, hrefused.unchanged,
      herror]
    split <;> rfl

/-- A patch that is admitted leaves a new version behind, so it is not held to a version that
is not the one stored. -/
theorem not_heldTo_of_admitPatch (hsound : hub.store.Sound)
    (hwrite : (Write.patch current object).WellFormed)
    (hobject : described hub.store gvr namespaceName (some name) (current.toJson.applyPatch body) =
      .ok object)
    {change : Change} (hadmits : hub.store.admitPatch current object = .ok change)
    (hother : ∀ value, hub.store.items.get? key = some value → Store.versionOf value ≠ version) :
    ¬ HeldTo hub gvr namespaceName name body current key version := by
  intro h
  obtain ⟨text, hrefused⟩ := h.refused hother
  have hchanged := (hsound.commit_admitted hwrite hadmits).1
  have hstore := congrArg (fun answer => answer.2.store) hrefused
  rw [submitPatch_of_described hobject, Hub.store_absorb, Store.patch, hadmits] at hstore
  change hub.store.commit change = hub.store at hstore
  rw [hstore] at hchanged
  exact hchanged rfl

theorem keyOf_described
    (hobject : described hub.store gvr namespaceName (some name) body = .ok object) :
    Store.keyOf object = .ok (.ofContainer object) := by
  obtain ⟨_, _, _, _, hreconciled⟩ := described_eq_ok_iff.mp hobject
  exact Store.keyOf_eq_ok_iff.mpr ⟨hreconciled.named, rfl⟩

/-- The store is told the version only if it is not the one fetched. -/
theorem exists_admitPatch_iff (hcurrent : current.WellFormed) (hobject : object.WellFormed)
    {before : String} (hbefore : current.metadata.resourceVersion? = some before)
    (hafter : object.metadata.resourceVersion? = some version)
    (hkey : Store.keyOf object = .ok key) :
    (∃ change, hub.store.admitPatch current object = .ok change) ↔
      ∃ value, hub.store.items.get? key = some value ∧
        (version = before ∨ Store.versionOf value = version) := by
  have hdocument := version_patchDocument hcurrent hobject hbefore hafter
  constructor
  · rintro ⟨change, hadmits⟩
    obtain ⟨_, value, hfoundKey, hfound, hstated, _⟩ := Store.admitPatch_eq_ok hadmits
    obtain rfl := Except.ok.inj (hkey.symm.trans hfoundKey)
    refine ⟨value, hfound, ?_⟩
    by_cases heq : version = before
    · exact Or.inl heq
    · rw [if_neg heq] at hdocument
      exact Or.inr (hstated version hdocument).symm
  · rintro ⟨value, hfound, hversion⟩
    by_cases heq : version = before
    · simp [Store.admitPatch, hkey, Store.find_eq_ok_iff.mpr hfound, hdocument, heq]
    · have hstored := hversion.resolve_left heq
      simp [Store.admitPatch, hkey, Store.find_eq_ok_iff.mpr hfound, hdocument, heq, hstored]

/-- A patch is held to the version that its body states exactly if this is not the version
fetched, or it is the one stored, or nothing is stored. -/
theorem heldTo_iff (hsound : hub.store.Sound)
    (hwrite : (Write.patch current object).WellFormed)
    (hobject : described hub.store gvr namespaceName (some name) (current.toJson.applyPatch body) =
      .ok object)
    {before : String} (hbefore : current.metadata.resourceVersion? = some before)
    (hafter : object.metadata.resourceVersion? = some version)
    (hkey : Store.keyOf object = .ok key) :
    HeldTo hub gvr namespaceName name body current key version ↔
      version ≠ before ∨
        ∀ value, hub.store.items.get? key = some value → Store.versionOf value = version := by
  have hadmitted := @exists_admitPatch_iff hub current object key version hwrite.1 hwrite.2 _
    hbefore hafter hkey
  constructor
  · intro hheld
    by_cases heq : version = before
    · refine Or.inr fun value hvalue => Decidable.byContradiction fun hother => ?_
      obtain ⟨change, hadmits⟩ := hadmitted.mpr ⟨value, hvalue, Or.inl heq⟩
      refine not_heldTo_of_admitPatch hsound hwrite hobject hadmits ?_ hheld
      intro found hfound
      rwa [← Option.some.inj (hvalue.symm.trans hfound)]
    · exact Or.inl heq
  · intro h
    refine heldTo_of_admitPatch hobject hkey fun change hadmits => ?_
    obtain ⟨value, hvalue, hversion⟩ := hadmitted.mp ⟨change, hadmits⟩
    refine ⟨value, hvalue, ?_⟩
    rcases h with hne | hall
    · exact hversion.resolve_left hne
    · exact hall value hvalue

end

/-- In every run of a store, a patch that fetches its object in one state and is written in a
later one is held to the version that its body states, unless this is the version that it has
fetched and the value at the key that it is written to is another than the one fetched: the
key has been touched since, or it is not the key of the path. -/
theorem heldTo_patch_iff {start : Store} (hstart : start.Fresh) (hscheme : start.scheme.Lawful)
    {earlier later : List Write} (hearlier : ∀ write ∈ earlier, write.WellFormed)
    (hlater : ∀ write ∈ later, write.WellFormed) {before now : Hub}
    (hbefore : before.store = start.after earlier)
    (hnow : now.store = (start.after earlier).after later)
    {gvr : Gvr} {namespaceName name : String} {body : Json} (hbody : body.WellFormed)
    {version : String} (hversion : Stored.metadata? body "resourceVersion" = some (.str version))
    {current object : Container} (hfetch : (fetch gvr namespaceName name before).1 = .ok current)
    (hobject : described now.store gvr namespaceName (some name) (current.toJson.applyPatch body) =
      .ok object) :
    HeldTo now gvr namespaceName name body current (.ofContainer object) version ↔
      current.metadata.resourceVersion? ≠ some version ∨
        now.store.items.get? (.ofContainer object) = none ∨
          Key.ofContainer object = ⟨current.gvk, namespaceName, name⟩ ∧
            ¬ Touched ((start.after earlier).log later) (.ofContainer object) := by
  have hsound := hstart.sound.after hearlier
  have hlawful : (start.after earlier).scheme.Lawful := by
    rwa [Store.scheme_after]
  have hnowLawful : now.store.scheme.Lawful := by
    rwa [hnow, Store.scheme_after]
  rw [fetch_apply, hbefore] at hfetch
  obtain ⟨container, value, _, hfetched⟩ := exists_fetched hsound hlawful hfetch
  have hmapping : body.isObject = true := by
    cases body with
    | obj => rfl
    | _ => contradiction
  have hmerged := hfetched.wellFormed.toJson.applyPatch hbody
  have hwhole := wellFormed_described hnowLawful hmerged hobject
  have hafter :=
    resourceVersion?_described hnowLawful hfetched.wellFormed hbody hmapping hversion hobject
  have hnowSound : now.store.Sound := hnow ▸ hsound.after hlater
  have hkey := keyOf_described hobject
  generalize Key.ofContainer object = key at hkey ⊢
  rw [heldTo_iff hnowSound ⟨hfetched.wellFormed, hwhole⟩ hobject hfetched.version hafter hkey,
    hfetched.version, hfetched.gvk]
  by_cases hsame : version = Store.versionOf value
  · subst hsame
    rw [or_iff_right (fun h => h rfl), or_iff_right (fun h => h rfl)]
    cases hfound : now.store.items.get? key with
    | none => exact iff_of_true nofun (Or.inl rfl)
    | some found =>
      have hsince := hsound.versionOf_eq_iff hlater hfetched.stored (hnow ▸ hfound)
      constructor
      · intro hall
        obtain ⟨rfl, huntouched⟩ := hsince.mp (hall found rfl)
        exact Or.inr ⟨rfl, huntouched⟩
      · rintro (hnone | ⟨rfl, huntouched⟩) other hother
        · contradiction
        · rw [← Option.some.inj hother]
          exact hsince.mpr ⟨rfl, huntouched⟩
  · exact iff_of_true (Or.inl hsame) (Or.inl fun h => hsame (Option.some.inj h).symm)

/-! ## A stale version -/

def configMaps : Gvr := ⟨"", "v1", "configmaps"⟩

/-- A config map in a namespace. -/
def placed : Container := Store.named.setText "namespace" "default"

theorem wellFormed_placed : placed.WellFormed :=
  Store.wellFormed_named.setText "namespace" "default" rfl rfl

/-- A hub after the config map has been created and then written some more. -/
def placedHub (later : List Write) : Hub :=
  .ofStore ((Store.builtin.after [.create placed]).after later) 1

/-- A patch of the data that states the version of the creation. -/
def firstVersionPatch : Json :=
  .obj [("data", .obj [("k", .str "3")]), ("metadata", .obj [("resourceVersion", .str "1")])]

/-- The config map as it is fetched after its creation, and what the patch makes of it. -/
def patchedFrom (now : Hub) : Option (Container × Container) :=
  (fetch configMaps "default" "a" (placedHub [])).1.toOption.bind fun current =>
    (described now.store configMaps "default" (some "a")
      (current.toJson.applyPatch firstVersionPatch)).toOption.map (current, ·)

theorem of_patchedFrom {now : Hub} {current object : Container}
    (h : patchedFrom now = some (current, object)) :
    (fetch configMaps "default" "a" (placedHub [])).1 = .ok current ∧
      described now.store configMaps "default" (some "a")
        (current.toJson.applyPatch firstVersionPatch) = .ok object := by
  obtain ⟨found, hfound, hdescribed⟩ := Option.bind_eq_some_iff.mp h
  obtain ⟨result, hresult, heq⟩ := Option.map_eq_some_iff.mp hdescribed
  obtain ⟨rfl, rfl⟩ := Prod.mk.inj heq
  exact ⟨eq_ok_of_toOption hfound, eq_ok_of_toOption hresult⟩

/-- If only another config map is created and updated in between, the patch is held to the
version. -/
theorem heldTo_patch_placed : ∃ current object,
    patchedFrom (placedHub Store.neighbourWrites) = some (current, object) ∧
    HeldTo (placedHub Store.neighbourWrites) configMaps "default" "a" firstVersionPatch current
      (.ofContainer object) "1" := by
  have hcreate : ∀ write ∈ [Write.create placed], write.WellFormed :=
    List.forall_mem_singleton.mpr wellFormed_placed
  have hpatched : ((patchedFrom (placedHub Store.neighbourWrites)).map fun found =>
      (found.1.gvk, Key.ofContainer found.2)) =
        some (⟨"", "v1", "ConfigMap"⟩, ⟨⟨"", "v1", "ConfigMap"⟩, "default", "a"⟩) := by
    decide +kernel
  have hkeys : ∀ key ∈ ((Store.builtin.after [.create placed]).log
      Store.neighbourWrites).map Change.key,
      key = ⟨⟨"", "v1", "ConfigMap"⟩, "", "b"⟩ := by decide +kernel
  obtain ⟨⟨current, object⟩, hfound, hread⟩ := Option.map_eq_some_iff.mp hpatched
  obtain ⟨hkind, hkey⟩ := Prod.mk.inj hread
  obtain ⟨hfetch, hobject⟩ := of_patchedFrom hfound
  have hbefore : (placedHub []).store = Store.builtin.after [.create placed] := rfl
  have hbody : firstVersionPatch.WellFormed := by decide
  have hversion : Stored.metadata? firstVersionPatch "resourceVersion" = some (.str "1") := rfl
  refine ⟨current, object, hfound, (heldTo_patch_iff Store.fresh_builtin
    (Scheme.lawful_ofRegistry Registry.lawful_builtin) hcreate
    Store.wellFormed_neighbourWrites hbefore rfl hbody hversion hfetch hobject).mpr
      (Or.inr (Or.inr ⟨?_, ?_⟩))⟩
  · rw [hkey, hkind]
  · rintro ⟨change, hchange, hsame⟩
    have hother := hkeys change.key (List.mem_map_of_mem hchange)
    rw [hsame, hkey] at hother
    exact absurd hother (by decide)

/-- If the config map is updated in between, the patch succeeds although the version that it
states is no longer the one stored. -/
theorem not_heldTo_stale : ∃ current object,
    patchedFrom (placedHub [.update placed]) = some (current, object) ∧
    ¬ HeldTo (placedHub [.update placed]) configMaps "default" "a" firstVersionPatch current
      (.ofContainer object) "1" := by
  have hrun : ((patchedFrom (placedHub [.update placed])).map fun found =>
      ((submitPatch configMaps "default" "a" firstVersionPatch found.1
          (placedHub [.update placed])).1.isOk,
        ((placedHub [.update placed]).store.items.get? (.ofContainer found.2)).map
          Store.versionOf)) = some (true, some "2") := by decide +kernel
  obtain ⟨⟨current, object⟩, hfound, houtcome⟩ := Option.map_eq_some_iff.mp hrun
  obtain ⟨hsucceeds, hstored⟩ := Prod.mk.inj houtcome
  refine ⟨current, object, hfound, fun h => ?_⟩
  cases hresult : (submitPatch configMaps "default" "a" firstVersionPatch current
      (placedHub [.update placed])).1 with
  | error e =>
    rw [hresult] at hsucceeds
    exact Bool.noConfusion hsucceeds
  | ok result =>
    obtain ⟨value, hvalue, hversion⟩ := h.succeeds result hresult
    rw [hvalue, Option.map_some, hversion] at hstored
    exact absurd hstored (by decide)

end Facade

end ClusterObjects
