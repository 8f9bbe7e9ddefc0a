import ClusterObjects.Proofs.Facade.Requests
import ClusterObjects.Proofs.Scheme
import ClusterObjects.Proofs.Store.Loading
import ClusterObjects.Proofs.Store.ReadBack

/-! # Objects and paths

What a request fetches is the object that the store keeps at the path, and what it
submits is well formed. The object that a body describes has the name of the path;
it has the namespace of the path too, unless the path leaves the namespace open.
-/

namespace ClusterObjects

namespace Facade

/-! ## The object at a path -/

theorem elementOf_cases (scheme : Scheme) (item : Gvk) :
    (∃ kind, scheme.kinds.get? item = some kind ∧ elementOf scheme item = .ofTyped kind) ∨
      elementOf scheme item = .generic item := by
  unfold elementOf
  cases hobject : scheme.newObject item with
  | none => exact Or.inr rfl
  | some object =>
    dsimp only
    split
    · unfold Scheme.newObject at hobject
      split at hobject
      · contradiction
      · obtain ⟨kind, hkind, rfl⟩ := Option.map_eq_some_iff.mp hobject
        exact Or.inl ⟨kind, hkind, rfl⟩
    · exact Or.inr rfl

theorem lawful_elementOf {scheme : Scheme} (h : scheme.Lawful) (item : Gvk) :
    (elementOf scheme item).Lawful := by
  rcases elementOf_cases scheme item with ⟨kind, hkind, heq⟩ | heq
  · rw [heq]
    exact Container.lawful_ofTyped (h item kind hkind).2
  · rw [heq]
    exact Container.lawful_generic item

theorem containerFor_eq_ok {store : Store} {gvr : Gvr} {container : Container}
    (h : containerFor store gvr = .ok container) :
    ∃ gvk, store.kindFor gvr = .ok gvk ∧ container = elementOf store.scheme gvk.toItem := by
  unfold containerFor at h
  split at h
  next gvk hgvk => exact ⟨gvk, hgvk, (Except.ok.inj h).symm⟩
  next => contradiction

theorem refusedByStore_eq_ok {α : Type} {result : Except StoreError α} {a : α}
    (h : refusedByStore result = .ok a) : result = .ok a := by
  cases result with
  | ok found => rw [Except.ok.inj h]
  | error e => contradiction

theorem fetched_eq_ok {store : Store} {gvr : Gvr} {namespaceName name : String}
    {current : Container} (h : fetched store gvr namespaceName name = .ok current) :
    ∃ container value, containerFor store gvr = .ok container ∧
      store.items.get? ⟨container.gvk, namespaceName, name⟩ = some value ∧
      container.load value = .ok current := by
  obtain ⟨container, hcontainer, hget⟩ := bind_eq_ok h
  have hload := refusedByStore_eq_ok hget
  unfold Store.get at hload
  split at hload
  next value hfind =>
    refine ⟨container, value, hcontainer, Store.find_eq_ok_iff.mp hfind, ?_⟩
    unfold Store.loadInto at hload
    split at hload
    next loaded hloaded => rw [hloaded, Except.ok.inj hload]
    next => contradiction
  next => contradiction

theorem fetched_of_load {store : Store} {gvr : Gvr} {namespaceName name : String}
    {container current : Container} {value : Json}
    (hcontainer : containerFor store gvr = .ok container)
    (hstored : store.items.get? ⟨container.gvk, namespaceName, name⟩ = some value)
    (hload : container.load value = .ok current) :
    fetched store gvr namespaceName name = .ok current := by
  unfold fetched
  rw [hcontainer]
  change refusedByStore (store.get namespaceName name container) = _
  rw [Store.get, Store.find_eq_ok_iff.mpr hstored]
  dsimp only
  rw [Store.loadInto, hload]
  rfl

/-- What is known about the object that a request has fetched. -/
structure Fetched (store : Store) (container : Container) (key : Key) (value : Json)
    (current : Container) : Prop where
  stored : store.items.get? key = some value
  loaded : container.Loaded value.fields current
  wellFormed : current.WellFormed
  coherent : current.Coherent
  gvk : current.gvk = key.gvk
  keyOf : Store.keyOf current = .ok key
  version : current.metadata.resourceVersion? = some (Store.versionOf value)

/-- What a request fetches is the object that is stored at the path. -/
theorem exists_fetched {store : Store} (hsound : store.Sound) (hscheme : store.scheme.Lawful)
    {gvr : Gvr} {namespaceName name : String} {current : Container}
    (h : fetched store gvr namespaceName name = .ok current) :
    ∃ container value, containerFor store gvr = .ok container ∧
      Fetched store container ⟨container.gvk, namespaceName, name⟩ value current := by
  obtain ⟨container, value, hcontainer, hstored, hload⟩ := fetched_eq_ok h
  obtain ⟨gvk, _, rfl⟩ := containerFor_eq_ok hcontainer
  have hlawful := lawful_elementOf hscheme gvk.toItem
  have hbelongs := hsound.belongs _ value hstored
  have hloaded := Container.loaded_of_load hlawful hbelongs.whole hload
  obtain ⟨fields, rfl, hstates, _⟩ := Container.load_eq_ok_iff.mp hload
  obtain ⟨hgvk, hcoherent⟩ := Container.coherent_emptyLike hbelongs.toDraft rfl hstates
  have hcurrent : current.gvk = (elementOf store.scheme gvk.toItem).gvk := by
    rw [Container.gvk_eq_of_representation hloaded.representation, hgvk]
  have hwhole := Container.wellFormed_of_load hlawful hbelongs.whole hload
  obtain ⟨n, _, hnumber⟩ := hsound.version _ _ hstored
  refine ⟨_, _, hcontainer, hstored, hloaded, hwhole,
    Container.coherent_of_representation hloaded.representation hcoherent, hcurrent,
    hbelongs.keyOf_of_load hlawful rfl hload, ?_⟩
  rw [Store.versionOf_of_hasVersion hnumber]
  exact hnumber.of_load hlawful hbelongs.whole hload

/-! ## The object that a body describes -/

theorem reconciled_eq_ok_iff {what stated path found : String} :
    reconciled what stated path = .ok found ↔ (stated = "" ∨ stated = path) ∧ found = path := by
  unfold reconciled
  split
  next hempty =>
    have hstated := String.isEmpty_iff.mp hempty
    exact ⟨fun h => ⟨Or.inl hstated, (Except.ok.inj h).symm⟩, fun h => congrArg _ h.2.symm⟩
  next hempty =>
    split
    next heq =>
      exact ⟨fun h => ⟨Or.inr heq, heq ▸ (Except.ok.inj h).symm⟩, fun h =>
        congrArg _ (heq.trans h.2.symm)⟩
    next hne =>
      refine ⟨nofun, fun h => ?_⟩
      rcases h.1 with hstated | hstated
      · exact absurd (String.isEmpty_iff.mpr hstated) hempty
      · exact absurd hstated hne

/-- An object in the namespace of a path, unless that is left open. -/
def inNamespace (namespaceName : String) (object : Container) : Container :=
  if namespaceName.isEmpty then object else object.setText "namespace" namespaceName

/-- An object under the name of a path, if it has one. -/
def underName (name : Option String) (object : Container) : Container :=
  name.elim object fun path => object.setText "name" path

/-- The object in the namespace and under the name of a path. -/
def atPath (namespaceName : String) (name : Option String) (object : Container) : Container :=
  underName name (inNamespace namespaceName object)

/-- What an object states of the path is the path, as far as that is not left open. -/
structure Agrees (namespaceName : String) (name : Option String) (object : Container) : Prop where
  namespaceName : namespaceName = "" ∨ object.namespaceName = "" ∨
    object.namespaceName = namespaceName
  name : ∀ path ∈ name, object.name = "" ∨ object.name = path

/-- An object loaded from a body, and the same at the path. -/
structure Reconciled (namespaceName : String) (name : Option String) (loaded object : Container) :
    Prop where
  agrees : Agrees namespaceName name loaded
  eq_atPath : object = atPath namespaceName name loaded
  named : object.name ≠ ""

theorem reconcileNamespace_eq_ok_iff {namespaceName : String} {loaded object : Container} :
    reconcileNamespace namespaceName loaded = .ok object ↔
      (namespaceName = "" ∨ loaded.namespaceName = "" ∨ loaded.namespaceName = namespaceName) ∧
        object = inNamespace namespaceName loaded := by
  unfold reconcileNamespace inNamespace
  by_cases hempty : namespaceName = ""
  · rw [if_pos (String.isEmpty_iff.mpr hempty), if_pos (String.isEmpty_iff.mpr hempty)]
    exact ⟨fun h => ⟨Or.inl hempty, (Except.ok.inj h).symm⟩, fun h => congrArg _ h.2.symm⟩
  · rw [if_neg fun h => hempty (String.isEmpty_iff.mp h),
      if_neg fun h => hempty (String.isEmpty_iff.mp h), or_iff_right hempty]
    cases hfound : reconciled "namespace" loaded.namespaceName namespaceName with
    | ok found =>
      obtain ⟨hstated, rfl⟩ := reconciled_eq_ok_iff.mp hfound
      exact ⟨fun h => ⟨hstated, (Except.ok.inj h).symm⟩, fun h => congrArg _ h.2.symm⟩
    | error e =>
      refine ⟨nofun, fun h => ?_⟩
      rw [reconciled_eq_ok_iff.mpr ⟨h.1, rfl⟩] at hfound
      contradiction

theorem reconcileName_eq_ok_iff {name : Option String} {loaded object : Container} :
    reconcileName name loaded = .ok object ↔
      (∀ path ∈ name, loaded.name = "" ∨ loaded.name = path) ∧ object = underName name loaded := by
  unfold reconcileName underName
  cases name with
  | none => exact ⟨fun h => ⟨nofun, (Except.ok.inj h).symm⟩, fun h => congrArg _ h.2.symm⟩
  | some path =>
    dsimp only [Option.elim]
    cases hfound : reconciled "name" loaded.name path with
    | ok found =>
      obtain ⟨hstated, rfl⟩ := reconciled_eq_ok_iff.mp hfound
      refine ⟨fun h => ⟨fun _ hpath => Option.some.inj hpath ▸ hstated, (Except.ok.inj h).symm⟩,
        fun h => congrArg _ h.2.symm⟩
    | error e =>
      refine ⟨nofun, fun h => ?_⟩
      rw [reconciled_eq_ok_iff.mpr ⟨h.1 path rfl, rfl⟩] at hfound
      contradiction

theorem name_inNamespace (namespaceName : String) (object : Container) :
    (inNamespace namespaceName object).name = object.name := by
  unfold inNamespace
  split
  · rfl
  · exact (object.metadata.textAt_setText _ _ _).trans (if_neg (by decide))

theorem reconcile_eq_ok_iff {namespaceName : String} {name : Option String}
    {loaded object : Container} :
    reconcile namespaceName name loaded = .ok object ↔
      Reconciled namespaceName name loaded object := by
  constructor
  · intro h
    obtain ⟨first, hfirst, h⟩ := bind_eq_ok h
    obtain ⟨second, hsecond, h⟩ := bind_eq_ok h
    obtain ⟨hnamespace, rfl⟩ := reconcileNamespace_eq_ok_iff.mp hfirst
    obtain ⟨hname, rfl⟩ := reconcileName_eq_ok_iff.mp hsecond
    rw [name_inNamespace] at hname
    unfold requireName at h
    split at h
    · contradiction
    next hnamed =>
      obtain rfl := Except.ok.inj h
      exact ⟨⟨hnamespace, hname⟩, rfl, fun hempty => hnamed (String.isEmpty_iff.mpr hempty)⟩
  · rintro ⟨⟨hnamespace, hname⟩, rfl, hnamed⟩
    have hfirst := reconcileNamespace_eq_ok_iff.mpr ⟨hnamespace, rfl⟩
    rw [← name_inNamespace namespaceName] at hname
    have hsecond := reconcileName_eq_ok_iff.mpr ⟨hname, rfl⟩
    unfold reconcile
    rw [hfirst]
    change (reconcileName name (inNamespace namespaceName loaded) >>= requireName) = _
    rw [hsecond]
    exact if_neg fun hempty => hnamed (String.isEmpty_iff.mp hempty)

namespace Reconciled

variable {namespaceName : String} {name : Option String} {loaded object : Container}

theorem representation (h : Reconciled namespaceName name loaded object) :
    object.representation = loaded.representation := by
  rw [h.eq_atPath, atPath, inNamespace]
  cases name <;> split <;> rfl

theorem body (h : Reconciled namespaceName name loaded object) : object.body = loaded.body := by
  rw [h.eq_atPath, atPath, inNamespace]
  cases name <;> split <;> rfl

theorem wellFormed (h : Reconciled namespaceName name loaded object) (hloaded : loaded.WellFormed) :
    object.WellFormed := by
  have hplaced : (inNamespace namespaceName loaded).WellFormed := by
    unfold inNamespace
    split
    · exact hloaded
    · exact hloaded.setText "namespace" namespaceName rfl rfl
  rw [h.eq_atPath, atPath]
  cases name with
  | none => exact hplaced
  | some path => exact hplaced.setText "name" path rfl rfl

theorem namespaceName_eq (h : Reconciled namespaceName name loaded object) :
    object.namespaceName =
      if namespaceName.isEmpty then loaded.namespaceName else namespaceName := by
  have hplaced : (inNamespace namespaceName loaded).namespaceName =
      if namespaceName.isEmpty then loaded.namespaceName else namespaceName := by
    unfold inNamespace
    split
    · rfl
    · exact (loaded.metadata.textAt_setText _ _ _).trans (if_pos rfl)
  rw [h.eq_atPath, atPath, ← hplaced]
  cases name with
  | none => rfl
  | some path =>
    exact ((inNamespace namespaceName loaded).metadata.textAt_setText _ _ _).trans
      (if_neg (by decide))

theorem name_eq {path : String} (h : Reconciled namespaceName (some path) loaded object) :
    object.name = path := by
  rw [h.eq_atPath]
  exact ((inNamespace namespaceName loaded).metadata.textAt_setText _ _ _).trans (if_pos rfl)

end Reconciled

/-- What a body describes is what a container of the resource loads from it, reconciled with
the path. -/
theorem described_eq_ok_iff {store : Store} {gvr : Gvr} {namespaceName : String}
    {name : Option String} {body : Json} {object : Container} :
    described store gvr namespaceName name body = .ok object ↔
      ∃ container loaded, containerFor store gvr = .ok container ∧
        container.load body = .ok loaded ∧ Reconciled namespaceName name loaded object := by
  constructor
  · intro h
    obtain ⟨container, hcontainer, hread⟩ := bind_eq_ok h
    unfold readBody at hread
    split at hread
    · contradiction
    next loaded hloaded =>
      exact ⟨container, loaded, hcontainer, hloaded, reconcile_eq_ok_iff.mp hread⟩
  · rintro ⟨container, loaded, hcontainer, hloaded, hreconciled⟩
    unfold described
    rw [hcontainer]
    change readBody container namespaceName name body = _
    rw [readBody, hloaded]
    exact reconcile_eq_ok_iff.mpr hreconciled

theorem wellFormed_described {store : Store} (hscheme : store.scheme.Lawful) {gvr : Gvr}
    {namespaceName : String} {name : Option String} {body : Json} (hbody : body.WellFormed)
    {object : Container} (h : described store gvr namespaceName name body = .ok object) :
    object.WellFormed := by
  obtain ⟨container, loaded, hcontainer, hload, hreconciled⟩ := described_eq_ok_iff.mp h
  obtain ⟨gvk, _, rfl⟩ := containerFor_eq_ok hcontainer
  exact hreconciled.wellFormed
    (Container.wellFormed_of_load (lawful_elementOf hscheme gvk.toItem) hbody hload)

/-! ## Submissions -/

/-- The body of the request is well formed. -/
def Request.WellFormed : Request → Prop
  | .create _ _ body | .update _ _ _ body | .patch _ _ _ body => body.WellFormed
  | .delete .. => True

theorem resourceVersion?_withVersionOf {object current : Container} {version : String}
    (h : current.metadata.resourceVersion? = some version) :
    (withVersionOf object current).metadata.resourceVersion? = some version := by
  unfold withVersionOf Metadata.setResourceVersion
  rw [h]
  change ((object.metadata.setText "resourceVersion" version).fields.get?
    "resourceVersion").bind Json.text? = _
  rw [Metadata.get?_setText, if_pos rfl]
  rfl

/-- The version that an object states has no part in its key. -/
theorem ofContainer_withVersionOf {object current : Container} {version : String}
    (h : current.metadata.resourceVersion? = some version) :
    Key.ofContainer (withVersionOf object current) = Key.ofContainer object := by
  have hget : ∀ field, "resourceVersion" ≠ field →
      (withVersionOf object current).metadata.fields.get? field =
        object.metadata.fields.get? field := by
    intro field hne
    unfold withVersionOf Metadata.setResourceVersion
    rw [h]
    change (object.metadata.setText "resourceVersion" version).fields.get? field = _
    rw [Metadata.get?_setText, if_neg hne]
  have hname : (withVersionOf object current).name = object.name :=
    congrArg (fun member => (member.bind Json.text?).getD "") (hget "name" (by decide))
  have hnamespace : (withVersionOf object current).namespaceName = object.namespaceName :=
    congrArg (fun member => (member.bind Json.text?).getD "") (hget "namespace" (by decide))
  rw [Key.ofContainer, hname, hnamespace]
  rfl

theorem wellFormed_withVersionOf {object current : Container} {version : String}
    (hobject : object.WellFormed)
    (hversion : current.metadata.resourceVersion? = some version) :
    (withVersionOf object current).WellFormed := by
  unfold withVersionOf
  rw [hversion]
  exact hobject.setText "resourceVersion" version rfl rfl

theorem submission_update_eq_ok {store : Store} {gvr : Gvr} {namespaceName name : String}
    {body : Json} {write : Write}
    (h : submission store (.update gvr namespaceName name body) = .ok write) :
    ∃ current object, fetched store gvr namespaceName name = .ok current ∧
      described store gvr namespaceName (some name) body = .ok object ∧
      write = .update (withVersionOf object current) := by
  obtain ⟨current, hcurrent, h⟩ := bind_eq_ok h
  obtain ⟨object, hobject, hwrite⟩ := bind_eq_ok h
  exact ⟨current, object, hcurrent, hobject, (Except.ok.inj hwrite).symm⟩

theorem submission_patch_eq_ok {store : Store} {gvr : Gvr} {namespaceName name : String}
    {body : Json} {write : Write}
    (h : submission store (.patch gvr namespaceName name body) = .ok write) :
    body.isObject = true ∧ ∃ current object, fetched store gvr namespaceName name = .ok current ∧
      described store gvr namespaceName (some name) (current.toJson.applyPatch body) = .ok object ∧
      write = .patch current object := by
  rw [submission] at h
  split at h
  next hbody =>
    obtain ⟨current, hcurrent, h⟩ := bind_eq_ok h
    obtain ⟨object, hobject, hwrite⟩ := bind_eq_ok h
    exact ⟨hbody, current, object, hcurrent, hobject, (Except.ok.inj hwrite).symm⟩
  next => contradiction

section

variable {earlier store : Store} (hearlier : earlier.Sound) (hlawful : earlier.scheme.Lawful)
  (hscheme : store.scheme.Lawful) {gvr : Gvr} {namespaceName name : String}
  {current object : Container} (hcurrent : fetched earlier gvr namespaceName name = .ok current)
  {body : Json} (hbody : body.WellFormed)

include hearlier hlawful hscheme hcurrent hbody

theorem wellFormed_update
    (hobject : described store gvr namespaceName (some name) body = .ok object) :
    (Write.update (withVersionOf object current)).WellFormed := by
  obtain ⟨_, _, _, hfetched⟩ := exists_fetched hearlier hlawful hcurrent
  exact wellFormed_withVersionOf (wellFormed_described hscheme hbody hobject) hfetched.version

theorem wellFormed_patch
    (hobject : described store gvr namespaceName (some name) (current.toJson.applyPatch body) =
      .ok object) : (Write.patch current object).WellFormed := by
  obtain ⟨_, _, _, hfetched⟩ := exists_fetched hearlier hlawful hcurrent
  have hmerged := hfetched.wellFormed.toJson.applyPatch hbody
  exact ⟨hfetched.wellFormed, wellFormed_described hscheme hmerged hobject⟩

end

/-- A request with a well-formed body submits a well-formed write. -/
theorem wellFormed_submission {store : Store} (hsound : store.Sound)
    (hscheme : store.scheme.Lawful) {request : Request} (hrequest : request.WellFormed)
    {write : Write} (h : submission store request = .ok write) : write.WellFormed := by
  cases request with
  | create gvr namespaceName body =>
    obtain ⟨object, hobject, hwrite⟩ := bind_eq_ok h
    obtain rfl := Except.ok.inj hwrite
    exact wellFormed_described hscheme hrequest hobject
  | update gvr namespaceName name body =>
    obtain ⟨current, object, hcurrent, hobject, rfl⟩ := submission_update_eq_ok h
    exact wellFormed_update hsound hscheme hscheme hcurrent hrequest hobject
  | patch gvr namespaceName name body =>
    obtain ⟨_, current, object, hcurrent, hobject, rfl⟩ := submission_patch_eq_ok h
    exact wellFormed_patch hsound hscheme hscheme hcurrent hrequest hobject
  | delete gvr namespaceName name =>
    obtain ⟨object, hobject, hwrite⟩ := bind_eq_ok h
    obtain rfl := Except.ok.inj hwrite
    obtain ⟨_, _, _, hfetched⟩ := exists_fetched hsound hscheme hobject
    exact hfetched.wellFormed

end Facade

end ClusterObjects
