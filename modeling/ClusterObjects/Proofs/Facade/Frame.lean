import ClusterObjects.Proofs.Facade.Paths
import ClusterObjects.Proofs.Store.Concurrency

/-! # What a request leaves alone

A request on one object changes no other object, with one exception: a patch whose
path leaves the namespace open is about the object that the body names, which may be
in another namespace than the object fetched.
-/

namespace ClusterObjects

namespace Facade

/-- The key is the one that a request addresses; a creation addresses no stored object. -/
def Request.Addresses (store : Store) (key : Key) : Request → Prop
  | .create .. => False
  | .update gvr namespaceName name _ | .patch gvr namespaceName name _
  | .delete gvr namespaceName name =>
    ∃ container, containerFor store gvr = .ok container ∧
      key = ⟨container.gvk, namespaceName, name⟩

/-- A request leaves every stored object as it is, except for the one that it addresses. -/
def Frames (hub : Hub) (request : Request) : Prop :=
  ∀ key value, hub.store.items.get? key = some value → ¬ request.Addresses hub.store key →
    (serve request hub).2.store.items.get? key = some value

/-- The namespace that a body states, empty if it states none. -/
def statedNamespace (body : Json) : String :=
  ((Stored.metadata? body "namespace").bind Json.text?).getD ""

/-- A patch that the store carries out, whose path leaves the namespace open and whose body
states one. -/
def Escapes (store : Store) : Request → Prop
  | .patch gvr namespaceName name body =>
    namespaceName = "" ∧ statedNamespace body ≠ "" ∧
      ∃ write change, submission store (.patch gvr namespaceName name body) = .ok write ∧
        store.admitWrite write = .ok change
  | _ => False

/-! ## The object that a patch is about -/

/-- A patch of an object without a namespace puts it into the namespace that the patch states. -/
theorem statedNamespace_applyPatch {current : Container} (hcurrent : current.WellFormed)
    (hnone : current.namespaceName = "") {body : Json} (hbody : body.WellFormed)
    (hobject : body.isObject = true) :
    statedNamespace (current.toJson.applyPatch body) = statedNamespace body := by
  rw [Json.eq_obj_of_isObject hobject] at hbody ⊢
  unfold statedNamespace Stored.metadata?
  rw [Json.get?_applyPatch hcurrent.toJson hbody, current.get?_toJson, if_pos rfl]
  change _ = ((Option.bind (body.fields.get? "metadata") _).bind _).getD _
  cases hfound : body.fields.get? "metadata" with
  | none => exact hnone
  | some metadata =>
    have hmetadata := hbody.member hfound
    cases metadata with
    | obj members =>
      dsimp only [Json.patched, Option.bind_some, Option.getD_some]
      rw [Json.get?_applyPatch hcurrent.metadata.whole hmetadata]
      change _ = ((Entries.get? members "namespace").bind _).getD _
      cases hstated : Entries.get? members "namespace" with
      | none => exact hnone
      | some stated => cases stated <;> rfl
    | _ => rfl

/-- A patch that is submitted is about the object of the name in the path; its namespace is
that of the path, or the one of the body if the path leaves it open. -/
theorem keyOf_patch {store : Store} (hsound : store.Sound) (hscheme : store.scheme.Lawful)
    {gvr : Gvr} {namespaceName name : String} {body : Json} (hbody : body.WellFormed)
    {write : Write}
    (h : submission store (.patch gvr namespaceName name body) = .ok write) :
    ∃ container, containerFor store gvr = .ok container ∧ Store.keyOf write.object =
      .ok ⟨container.gvk, if namespaceName = "" then statedNamespace body else namespaceName,
        name⟩ := by
  obtain ⟨hobject, current, object, hcurrent, hdescribed, rfl⟩ := submission_patch_eq_ok h
  obtain ⟨container, value, hcontainer, hfetched⟩ := exists_fetched hsound hscheme hcurrent
  obtain ⟨other, loaded, hother, hload, hreconciled⟩ := described_eq_ok_iff.mp hdescribed
  obtain rfl := Except.ok.inj (hcontainer.symm.trans hother)
  obtain ⟨gvk, _, rfl⟩ := containerFor_eq_ok hcontainer
  have hloaded := Container.loaded_of_load (lawful_elementOf hscheme gvk.toItem)
    (hfetched.wellFormed.toJson.applyPatch hbody) hload
  have hgvk : object.gvk = (elementOf store.scheme gvk.toItem).gvk := by
    refine (Container.gvk_eq_of_representation ?_).trans hfetched.gvk
    rw [hreconciled.representation, hloaded.representation, hfetched.loaded.representation]
  have hnamespace : object.namespaceName =
      if namespaceName = "" then statedNamespace body else namespaceName := by
    rw [hreconciled.namespaceName_eq]
    by_cases hopen : namespaceName = ""
    · rw [if_pos hopen, if_pos (String.isEmpty_iff.mpr hopen)]
      have hkey := (Store.keyOf_eq_ok_iff.mp hfetched.keyOf).2
      have hnone : current.namespaceName = "" := (Key.mk.inj hkey).2.1.trans hopen
      rw [← statedNamespace_applyPatch hfetched.wellFormed hnone hbody hobject]
      exact congrArg (·.getD "") (Stored.text?_of_loaded hloaded "namespace" rfl)
    · rw [if_neg hopen, if_neg fun hempty => hopen (String.isEmpty_iff.mp hempty)]
  refine ⟨_, hcontainer, ?_⟩
  refine Store.keyOf_eq_ok_iff.mpr ⟨hreconciled.named, ?_⟩
  change Key.ofContainer object = _
  rw [Key.ofContainer, hgvk, hnamespace, hreconciled.name_eq]

/-- A patch that is carried out and does not escape is about the object of its path. -/
theorem keyOf_patch_of_not_escapes {store : Store} (hsound : store.Sound)
    (hscheme : store.scheme.Lawful) {gvr : Gvr} {namespaceName name : String} {body : Json}
    (hbody : body.WellFormed) (hescapes : ¬ Escapes store (.patch gvr namespaceName name body))
    {write : Write}
    (hsubmission : submission store (.patch gvr namespaceName name body) = .ok write)
    {change : Change} (hadmits : store.admitWrite write = .ok change) :
    ∃ container, containerFor store gvr = .ok container ∧
      Store.keyOf write.object = .ok ⟨container.gvk, namespaceName, name⟩ := by
  obtain ⟨container, hcontainer, hkey⟩ := keyOf_patch hsound hscheme hbody hsubmission
  refine ⟨container, hcontainer, ?_⟩
  rw [hkey]
  split
  next hopen =>
    by_cases hstated : statedNamespace body = ""
    · rw [hopen, hstated]
    · exact absurd ⟨hopen, hstated, write, change, hsubmission, hadmits⟩ hescapes
  next => rfl

/-! ## The store after a request -/

/-- A request leaves the store as it is or carries out the change of the write it submits. -/
theorem store_serve_cases (request : Request) (hub : Hub) :
    (serve request hub).2.store = hub.store ∨ ∃ write change,
      submission hub.store request = .ok write ∧ hub.store.admitWrite write = .ok change ∧
        (serve request hub).2.store = hub.store.commit change := by
  rw [store_serve]
  cases hsubmission : submission hub.store request with
  | error e => exact Or.inl rfl
  | ok write =>
    dsimp only
    rw [Store.write_eq]
    cases hadmits : hub.store.admitWrite write with
    | error e => exact Or.inl rfl
    | ok change => exact Or.inr ⟨write, change, rfl, hadmits, rfl⟩

/-- The change that a request makes is about the object it addresses; a creation makes it where
nothing is stored. -/
theorem addresses_of_admitWrite {store : Store} (hsound : store.Sound)
    (hscheme : store.scheme.Lawful) {request : Request} (hrequest : request.WellFormed)
    (hescapes : ¬ Escapes store request) {write : Write}
    (hsubmission : submission store request = .ok write) {change : Change}
    (hadmits : store.admitWrite write = .ok change) :
    store.items.get? change.key = none ∨ request.Addresses store change.key := by
  have hkey := Store.keyOf_of_admitWrite hadmits
  cases request with
  | create gvr namespaceName body =>
    obtain ⟨object, _, hwrite⟩ := bind_eq_ok hsubmission
    obtain rfl := Except.ok.inj hwrite
    obtain ⟨key, _, hnone, rfl⟩ := Store.admitCreate_eq_ok hadmits
    exact Or.inl hnone
  | update gvr namespaceName name body =>
    obtain ⟨current, object, hcurrent, _, rfl⟩ := submission_update_eq_ok hsubmission
    obtain ⟨container, value, hcontainer, hfetched⟩ := exists_fetched hsound hscheme hcurrent
    have hcarries := @resourceVersion?_withVersionOf object _ _ hfetched.version
    -- The version fetched is stored under no other key.
    have hsame := hsound.untouched_of_admitUpdate (List.forall_mem_nil _) hfetched.stored
      hcarries hadmits
    exact Or.inr ⟨container, hcontainer, hsame.1⟩
  | patch gvr namespaceName name body =>
    obtain ⟨container, hcontainer, hpatched⟩ :=
      keyOf_patch_of_not_escapes hsound hscheme hrequest hescapes hsubmission hadmits
    exact Or.inr ⟨container, hcontainer, Except.ok.inj (hkey.symm.trans hpatched)⟩
  | delete gvr namespaceName name =>
    obtain ⟨object, hobject, hwrite⟩ := bind_eq_ok hsubmission
    obtain rfl := Except.ok.inj hwrite
    obtain ⟨container, _, hcontainer, hfetched⟩ := exists_fetched hsound hscheme hobject
    exact Or.inr ⟨container, hcontainer, Except.ok.inj (hkey.symm.trans hfetched.keyOf)⟩

theorem frames_of_not_escapes {hub : Hub} (hsound : hub.store.Sound)
    (hscheme : hub.store.scheme.Lawful) {request : Request} (hrequest : request.WellFormed)
    (hescapes : ¬ Escapes hub.store request) : Frames hub request := by
  intro key value hstored hother
  rcases store_serve_cases request hub with hsame | ⟨write, change, hsubmission, hadmits, hcommit⟩
  · rw [hsame]
    exact hstored
  · rw [hcommit, Store.get?_items_commit hsound.ascending]
    split
    next hkey =>
      subst hkey
      rcases addresses_of_admitWrite hsound hscheme hrequest hescapes hsubmission hadmits with
        hnone | haddresses
      · rw [hnone] at hstored
        contradiction
      · exact absurd haddresses hother
    next => exact hstored

/-- A patch that is carried out in a namespace other than that of its path gives the object
there a new version. -/
theorem not_frames_of_escapes {hub : Hub} (hsound : hub.store.Sound)
    (hscheme : hub.store.scheme.Lawful) {request : Request} (hrequest : request.WellFormed)
    (hescapes : Escapes hub.store request) : ¬ Frames hub request := by
  intro hframes
  cases request with
  | patch gvr namespaceName name body =>
    obtain ⟨hopen, hstated, write, change, hsubmission, hadmits⟩ := hescapes
    obtain ⟨container, hcontainer, hpatched⟩ := keyOf_patch hsound hscheme hrequest hsubmission
    have hkey := Except.ok.inj (hpatched.symm.trans (Store.keyOf_of_admitWrite hadmits))
    rw [if_pos hopen] at hkey
    have hwrite := wellFormed_submission hsound hscheme hrequest hsubmission
    obtain ⟨_, current, object, _, _, rfl⟩ := submission_patch_eq_ok hsubmission
    obtain ⟨htype, stored, hstored, _⟩ := hsound.seals_patch hadmits
    have hother :
        ¬ Request.Addresses hub.store change.key (.patch gvr namespaceName name body) := by
      rintro ⟨other, hother, haddressed⟩
      rw [← hkey, ← Except.ok.inj (hcontainer.symm.trans hother)] at haddressed
      exact hstated ((Key.mk.inj haddressed).2.1.trans hopen)
    have hafter := hframes change.key stored hstored hother
    rw [store_serve, hsubmission] at hafter
    dsimp only at hafter
    rw [Store.write_eq, hadmits] at hafter
    change (hub.store.commit change).items.get? change.key = _ at hafter
    rw [Store.get?_items_commit_of_modified hsound.ascending htype] at hafter
    obtain rfl := Option.some.inj hafter
    obtain ⟨n, hn, hversion⟩ := hsound.version _ _ hstored
    rcases hsound.admitted hwrite hadmits with ⟨hdeleted, _⟩ | ⟨_, _, hnext⟩
    · rw [htype] at hdeleted
      contradiction
    · -- The object there would have its old number and the next one.
      have hequal := (Store.versionOf_of_hasVersion hversion).symm.trans
        (Store.versionOf_of_hasVersion hnext)
      have := Store.versionText_injective hequal
      omega
  | _ => exact hescapes

/-- After any run of writes, a request leaves every stored object but the one that it addresses
as it is, unless it is a patch that the store carries out, whose path leaves the namespace
open and whose body states one. -/
theorem frames_iff {start : Store} (hstart : start.Fresh) (hscheme : start.scheme.Lawful)
    {writes : List Write} (hwrites : ∀ write ∈ writes, write.WellFormed) {hub : Hub}
    (hhub : hub.store = start.after writes) {request : Request} (hrequest : request.WellFormed) :
    Frames hub request ↔ ¬ Escapes hub.store request := by
  have hsound : hub.store.Sound := by
    rw [hhub]
    exact hstart.sound.after hwrites
  have hlawful : hub.store.scheme.Lawful := by
    rwa [hhub, Store.scheme_after]
  constructor
  · intro hframes hescapes
    exact not_frames_of_escapes hsound hlawful hrequest hescapes hframes
  · exact frames_of_not_escapes hsound hlawful hrequest

/-- A hub with two config maps. -/
def neighbours : Hub :=
  .ofStore (Store.builtin.after (.create Store.named :: Store.neighbourWrites)) 1

/-- A patch of the first that states no namespace. -/
def immutablePatch : Request :=
  .patch ⟨"", "v1", "configmaps"⟩ "" "a" (.obj [("immutable", .bool true)])

/-- The patch changes no other object: the second config map stays as it is. -/
theorem frames_patch_named : Frames neighbours immutablePatch ∧ ∃ value,
    neighbours.store.items.get? ⟨⟨"", "v1", "ConfigMap"⟩, "", "b"⟩ = some value ∧
    (serve immutablePatch neighbours).2.store.items.get? ⟨⟨"", "v1", "ConfigMap"⟩, "", "b"⟩ =
      some value := by
  have hwrites : ∀ write ∈ Write.create Store.named :: Store.neighbourWrites,
      write.WellFormed :=
    List.forall_mem_cons.mpr ⟨Store.wellFormed_named, Store.wellFormed_neighbourWrites⟩
  have hrequest : immutablePatch.WellFormed := by
    change (Json.obj [("immutable", .bool true)]).WellFormed
    decide
  have hscheme := Scheme.lawful_ofRegistry Registry.lawful_builtin
  have hhub : neighbours.store =
      Store.builtin.after (.create Store.named :: Store.neighbourWrites) := rfl
  have hframes := (frames_iff Store.fresh_builtin hscheme hwrites hhub hrequest).mpr fun h =>
    h.2.1 rfl
  have hstored : (neighbours.store.items.get?
      ⟨⟨"", "v1", "ConfigMap"⟩, "", "b"⟩).isSome = true := by decide +kernel
  obtain ⟨value, hvalue⟩ := Option.isSome_iff_exists.mp hstored
  refine ⟨hframes, value, hvalue, hframes _ value hvalue ?_⟩
  rintro ⟨container, _, hkey⟩
  exact absurd (Key.mk.inj hkey).2.2 (by decide)

/-- A hub with two config maps of one name, the first in no namespace. -/
def namesakes : Hub :=
  [Request.create ⟨"", "v1", "configmaps"⟩ "" (.obj [("metadata", .obj [("name", .str "n")])]),
    .create ⟨"", "v1", "configmaps"⟩ "other" (.obj [("metadata", .obj [("name", .str "n")])])].foldl
    (fun hub request => (serve request hub).2) (.ofStore Store.builtin 1)

/-- A patch that is addressed to the first of them changes the second if its body says so. -/
theorem not_frames_namesakes : ¬ Frames namesakes
    (.patch ⟨"", "v1", "configmaps"⟩ "" "n" (.obj [("data", .obj [("x", .str "1")]),
      ("metadata", .obj [("namespace", .str "other")])])) := by
  intro h
  have hbefore : (namesakes.store.items.get? ⟨⟨"", "v1", "ConfigMap"⟩, "other", "n"⟩).map
      Store.versionOf = some "2" := by decide +kernel
  obtain ⟨value, hstored, hversion⟩ := Option.map_eq_some_iff.mp hbefore
  have hafter := congrArg (Option.map Store.versionOf) (h _ value hstored fun haddresses => by
    obtain ⟨container, _, hkey⟩ := haddresses
    exact absurd (Key.mk.inj hkey).2.1 (by decide))
  have hpatched : ((serve (.patch ⟨"", "v1", "configmaps"⟩ "" "n" (.obj
      [("data", .obj [("x", .str "1")]), ("metadata", .obj [("namespace", .str "other")])]))
      namesakes).2.store.items.get? ⟨⟨"", "v1", "ConfigMap"⟩, "other", "n"⟩).map
      Store.versionOf = some "3" := by decide +kernel
  rw [hpatched, Option.map_some, hversion] at hafter
  exact absurd hafter (by decide)

end Facade

end ClusterObjects
