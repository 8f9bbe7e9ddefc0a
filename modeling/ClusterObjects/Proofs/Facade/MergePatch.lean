import ClusterObjects.Proofs.Facade.Frame
import ClusterObjects.Proofs.Facade.Service

/-! # Patches merge into what is stored

A patch merges its body into what it has fetched and submits the object that results,
and the store applies what sets this object apart from the one fetched. Both together
are one merge into the value stored, provided that this value is what its container
prints; and if it is not, the empty patch already tells.
-/

namespace ClusterObjects

namespace Facade

/-- What a patch should do. If it succeeds, what is stored afterwards is what the container of
the resource prints after loading the merged value, in the namespace and under the name of
the path, with the identifier and the creation time of the value before and the next version.
If the body states another version than the one stored, and the merged value could be loaded
and agrees with the path, it fails with a conflict and nothing changes. -/
structure Merges (hub : Hub) (gvr : Gvr) (namespaceName name : String) (container : Container)
    (stored body : Json) : Prop where
  merged : ∀ result, (patch gvr namespaceName name body hub).1 = .ok result →
    ∃ loaded uid created value, container.load (stored.applyPatch body) = .ok loaded ∧
      Agrees namespaceName (some name) loaded ∧
      Stored.metadata? stored "uid" = some (.str uid) ∧
      Stored.metadata? stored "creationTimestamp" = some (.str created) ∧
      (patch gvr namespaceName name body hub).2.store.items.get?
        ⟨container.gvk, namespaceName, name⟩ = some value ∧
      value.same (Stored.sealed uid created hub.store.nextVersion
        (atPath namespaceName (some name) loaded).toJson) = true
  conflict : ∀ object version,
    readBody container namespaceName (some name) (stored.applyPatch body) = .ok object →
    Stored.metadata? body "resourceVersion" = some (.str version) →
    version ≠ Store.versionOf stored →
    ∃ text, patch gvr namespaceName name body hub = (.error (.conflict text), hub)

theorem patch_apply {hub : Hub} {gvr : Gvr} {namespaceName name : String} {body : Json}
    (hmapping : body.isObject = true) {current : Container}
    (hcurrent : fetched hub.store gvr namespaceName name = .ok current) :
    patch gvr namespaceName name body hub =
      submitPatch gvr namespaceName name body current hub := by
  rw [patch, if_pos hmapping, bind_apply, fetch_apply, hcurrent]

/-! ## Versions in patches -/

/-- A version that a body states is the one of the merged value. -/
theorem version_applyPatch {stored body : Json} (hstored : stored.WellFormed)
    (hbody : body.WellFormed) (hmapping : body.isObject = true) {version : String}
    (hversion : Stored.metadata? body "resourceVersion" = some (.str version)) :
    Stored.metadata? (stored.applyPatch body) "resourceVersion" = some (.str version) := by
  rw [Json.eq_obj_of_isObject hmapping] at hbody hversion ⊢
  obtain ⟨metadata, hmetadata, hfield⟩ := Option.bind_eq_some_iff.mp hversion
  rw [Stored.metadata?, Json.get?_applyPatch hstored hbody]
  change Entries.get? body.fields "metadata" = some metadata at hmetadata
  rw [hmetadata]
  cases metadata with
  | obj members =>
    dsimp only [Json.patched, Option.bind_some]
    rw [Json.get?_applyPatch (hstored.getD_get? "metadata") (hbody.member hmetadata)]
    change Entries.get? members "resourceVersion" = some (.str version) at hfield
    rw [hfield]
    rfl
  | _ => contradiction

/-- The version of a well-formed container is a text among its metadata. -/
theorem get?_resourceVersion {c : Container} (hc : c.WellFormed) {version : String}
    (hversion : c.metadata.resourceVersion? = some version) :
    c.metadata.toJson.get? "resourceVersion" = some (.str version) := by
  obtain ⟨value, hvalue, htext⟩ := Option.bind_eq_some_iff.mp hversion
  obtain ⟨stated, rfl⟩ := hc.metadata.eq_str rfl hvalue
  rw [← Option.some.inj htext]
  exact hvalue

/-- Under its metadata the patch between two containers holds the change of the metadata. -/
theorem get?_metadata_patchDocument {current object : Container} (hcurrent : current.WellFormed)
    (hobject : object.WellFormed) :
    (Store.patchDocument current object).get? "metadata" =
      Json.change? (some current.metadata.toJson) object.metadata.toJson := by
  have hfound : Entries.get? object.toJson.fields "metadata" = some object.metadata.toJson :=
    object.get?_toJson "metadata"
  have hget := @Json.get?_diff current.toJson object.toJson.fields
    hcurrent.toJson.ascending_fields hobject.toJson.ascending_fields "metadata"
  rw [hfound, current.get?_toJson, if_pos rfl] at hget
  exact hget

/-- The patch between two containers states the version of the second if it is another one,
and no version otherwise. -/
theorem version_patchDocument {current object : Container} (hcurrent : current.WellFormed)
    (hobject : object.WellFormed) {before after : String}
    (hbefore : current.metadata.resourceVersion? = some before)
    (hafter : object.metadata.resourceVersion? = some after) :
    (Stored.metadata? (Store.patchDocument current object) "resourceVersion").bind Json.text? =
      if after = before then none else some after := by
  have hold := get?_resourceVersion hcurrent hbefore
  have hnew := get?_resourceVersion hobject hafter
  rw [Stored.metadata?, get?_metadata_patchDocument hcurrent hobject]
  split
  next heq =>
    subst heq
    cases hchange : Json.change? (some current.metadata.toJson) object.metadata.toJson with
    | none => rfl
    | some patch =>
      rw [Option.bind_some, Json.get?_of_change?_of_text_eq hcurrent.metadata.whole
        hobject.metadata.whole hold hnew hchange]
      rfl
  next hne =>
    obtain ⟨patch, hpatch, hfield⟩ := Json.change?_of_text_ne hcurrent.metadata.whole
      hobject.metadata.whole hold hnew hne
    rw [hpatch, Option.bind_some, hfield]
    rfl

theorem resourceVersion?_atPath (namespaceName name : String) (object : Container) :
    (atPath namespaceName (some name) object).metadata.resourceVersion? =
      object.metadata.resourceVersion? := by
  have hname := ((inNamespace namespaceName object).metadata.get?_setText "name" name
    "resourceVersion").trans (if_neg (by decide))
  have hnamespace : (inNamespace namespaceName object).metadata.fields.get? "resourceVersion" =
      object.metadata.fields.get? "resourceVersion" := by
    unfold inNamespace
    split
    · rfl
    · exact (object.metadata.get?_setText "namespace" namespaceName "resourceVersion").trans
        (if_neg (by decide))
  exact congrArg (Option.bind · Json.text?) (hname.trans hnamespace)

/-- The version that a body states passes through the merge and the loading. -/
theorem resourceVersion?_described {store : Store} (hscheme : store.scheme.Lawful) {gvr : Gvr}
    {namespaceName name : String} {current object : Container} {body : Json}
    (hcurrent : current.WellFormed) (hbody : body.WellFormed) (hmapping : body.isObject = true)
    {version : String} (hversion : Stored.metadata? body "resourceVersion" = some (.str version))
    (hobject : described store gvr namespaceName (some name) (current.toJson.applyPatch body) =
      .ok object) : object.metadata.resourceVersion? = some version := by
  obtain ⟨container, loaded, hcontainer, hload, hreconciled⟩ := described_eq_ok_iff.mp hobject
  obtain ⟨gvk, _, rfl⟩ := containerFor_eq_ok hcontainer
  have hloaded := Container.loaded_of_load (lawful_elementOf hscheme gvk.toItem)
    (hcurrent.toJson.applyPatch hbody) hload
  rw [hreconciled.eq_atPath, resourceVersion?_atPath]
  refine (Stored.text?_of_loaded hloaded "resourceVersion" rfl).trans ?_
  rw [version_applyPatch hcurrent.toJson hbody hmapping hversion]
  rfl

/-! ## Values that are printed as they are stored -/

section

variable {hub : Hub} {gvr : Gvr} {namespaceName name : String} {container current : Container}
  {stored : Json}

/-- What is known about an object at a path that a container can load. -/
structure Found (hub : Hub) (gvr : Gvr) (namespaceName name : String) (container : Container)
    (stored : Json) (current : Container) : Prop where
  serviceable : Serviceable hub.store
  path : namespaceName ≠ ""
  resolved : containerFor hub.store gvr = .ok container
  kept : hub.store.items.get? ⟨container.gvk, namespaceName, name⟩ = some stored
  loads : container.load stored = .ok current

namespace Found

theorem fetched (h : Found hub gvr namespaceName name container stored current) :
    fetched hub.store gvr namespaceName name = .ok current :=
  fetched_of_load h.resolved h.kept h.loads

theorem lawful (h : Found hub gvr namespaceName name container stored current) :
    container.Lawful := by
  obtain ⟨gvk, _, heq⟩ := containerFor_eq_ok h.resolved
  rw [heq]
  exact lawful_elementOf h.serviceable.scheme gvk.toItem

theorem belongs (h : Found hub gvr namespaceName name container stored current) :
    Stored.Belongs ⟨container.gvk, namespaceName, name⟩ stored :=
  h.serviceable.sound.belongs _ _ h.kept

theorem known (h : Found hub gvr namespaceName name container stored current) :
    Fetched hub.store container ⟨container.gvk, namespaceName, name⟩ stored current := by
  obtain ⟨other, value, hother, hfetched⟩ :=
    exists_fetched h.serviceable.sound h.serviceable.scheme h.fetched
  obtain rfl := Except.ok.inj (h.resolved.symm.trans hother)
  obtain rfl := Option.some.inj (h.kept.symm.trans hfetched.stored)
  exact hfetched

theorem representation (h : Found hub gvr namespaceName name container stored current) :
    container.emptyLike.representation = container.representation :=
  (containerFor_eq_elementOf h.serviceable.scheme h.serviceable.kinds h.resolved).2.2

/-- An object that a body describes at the path is written to the key of the path. -/
theorem keyOf_described (h : Found hub gvr namespaceName name container stored current)
    {loaded object : Container} {body : Json} (hbody : body.WellFormed)
    (hload : container.load body = .ok loaded)
    (hobject : Reconciled namespaceName (some name) loaded object) :
    Store.keyOf object = .ok ⟨container.gvk, namespaceName, name⟩ := by
  have hloaded := Container.loaded_of_load h.lawful hbody hload
  have hgvk : object.gvk = container.gvk := by
    refine Container.gvk_eq_of_representation ?_
    rw [hobject.representation, hloaded.representation, h.representation]
  refine Store.keyOf_eq_ok_iff.mpr ⟨hobject.named, ?_⟩
  rw [Key.ofContainer, hgvk, hobject.name_eq, hobject.namespaceName_eq,
    if_neg fun hempty => h.path (String.isEmpty_iff.mp hempty)]

/-- A patch that succeeds carries out what the object described by the merge asks for. -/
theorem exists_change (h : Found hub gvr namespaceName name container stored current) {body : Json}
    (hmapping : body.isObject = true) {result : Container}
    (hresult : (patch gvr namespaceName name body hub).1 = .ok result) :
    ∃ object change, described hub.store gvr namespaceName (some name)
        (current.toJson.applyPatch body) = .ok object ∧
      hub.store.admitPatch current object = .ok change ∧
      (patch gvr namespaceName name body hub).2.store = hub.store.commit change := by
  rw [patch_apply hmapping h.fetched, submitPatch_apply] at hresult ⊢
  cases hobject : described hub.store gvr namespaceName (some name)
      (current.toJson.applyPatch body) with
  | error e =>
    rw [hobject] at hresult
    contradiction
  | ok object =>
    rw [hobject] at hresult
    dsimp only at hresult ⊢
    cases hadmits : hub.store.admitPatch current object with
    | error e =>
      rw [Store.patch, hadmits] at hresult
      contradiction
    | ok change =>
      refine ⟨object, change, rfl, hadmits, ?_⟩
      rw [Hub.store_absorb, Store.patch, hadmits]
      rfl

/-- Where the container prints what is stored, patches do what they should. -/
theorem merges (h : Found hub gvr namespaceName name container stored current)
    (hprints : current.toJson = stored) {body : Json} (hbody : body.WellFormed)
    (hmapping : body.isObject = true) :
    Merges hub gvr namespaceName name container stored body := by
  have hknown := h.known
  have hmerged := hknown.wellFormed.toJson.applyPatch hbody
  subst hprints
  refine ⟨fun result hresult => ?_, fun object version hread hversion hne => ?_⟩
  · obtain ⟨object, change, hobject, hadmits, hcommit⟩ := h.exists_change hmapping hresult
    obtain ⟨other, loaded, hother, hload, hreconciled⟩ := described_eq_ok_iff.mp hobject
    obtain rfl := Except.ok.inj (h.resolved.symm.trans hother)
    have hkey := h.keyOf_described hmerged hload hreconciled
    obtain ⟨key, found, hfoundKey, hfound, _, rfl⟩ := Store.admitPatch_eq_ok hadmits
    obtain rfl := Except.ok.inj (hkey.symm.trans hfoundKey)
    obtain rfl := Option.some.inj (h.kept.symm.trans hfound)
    obtain ⟨uid, created, huid, hcreated, htext, hseal⟩ :=
      Stored.exists_keepServerFields h.belongs
    -- The patch was computed from what is stored, so it leads to a twin of the object.
    obtain ⟨twin, htwin, hsame, heq⟩ := exists_twin_applyPatch h.serviceable.scheme
      hknown.wellFormed hbody hmapping hobject
    have hwhole := wellFormed_described h.serviceable.scheme hmerged hobject
    have hafter : (patch gvr namespaceName name body hub).2.store.items.get?
        ⟨container.gvk, namespaceName, name⟩ =
          some (Stored.sealed uid created hub.store.nextVersion twin.toJson) := by
      rw [hcommit, ← heq, ← hseal]
      exact Store.get?_items_commit_of_modified h.serviceable.sound.ascending rfl
    refine ⟨loaded, uid, created, _, hload, hreconciled.agrees, huid, hcreated, hafter, ?_⟩
    rw [← hreconciled.eq_atPath, Stored.sealed_toJson htwin uid hub.store.nextVersion htext,
      Stored.sealed_toJson hwhole uid hub.store.nextVersion htext]
    have hsealed := ((hsame.setText "uid" uid).setText "creationTimestamp" created).setText
      "resourceVersion" hub.store.nextVersion
    exact hsealed.same_toJson (Stored.wellFormed_sealed htwin uid _ htext)
      (Stored.wellFormed_sealed hwhole uid _ htext)
  · unfold readBody at hread
    split at hread
    · contradiction
    next loaded hload =>
      have hreconciled := reconcile_eq_ok_iff.mp hread
      have hobject := described_eq_ok_iff.mpr ⟨container, loaded, h.resolved, hload, hreconciled⟩
      have hwhole := wellFormed_described h.serviceable.scheme hmerged hobject
      have hafter := resourceVersion?_described h.serviceable.scheme hknown.wellFormed hbody
        hmapping hversion hobject
      have hdocument := version_patchDocument hknown.wellFormed hwhole hknown.version hafter
      rw [if_neg hne] at hdocument
      have hkey := h.keyOf_described hmerged hload hreconciled
      rw [patch_apply hmapping h.fetched, submitPatch_apply, hobject]
      dsimp only
      simp only [Store.patch, Store.admitPatch, hkey, Store.find_eq_ok_iff.mpr h.kept, hdocument,
        if_neg hne]
      exact ⟨_, rfl⟩

/-- An object that has the namespace and the name of a path stays as it is there. -/
theorem atPath_self {object : Container} (hobject : object.WellFormed) {key : Key}
    (hkey : Store.keyOf object = .ok key) (hpath : key.namespaceName ≠ "") :
    atPath key.namespaceName (some key.name) object = object := by
  obtain ⟨hnamed, rfl⟩ := Store.keyOf_eq_ok_iff.mp hkey
  change object.namespaceName ≠ "" at hpath
  have hnamespace : inNamespace object.namespaceName object = object := by
    unfold inNamespace
    rw [if_neg fun hempty => hpath (String.isEmpty_iff.mp hempty)]
    exact hobject.setText_self rfl rfl hpath
  change underName (some object.name) (inNamespace object.namespaceName object) = object
  rw [hnamespace]
  exact hobject.setText_self rfl rfl hnamed

/-- Containers of one kind that print the same have the same key. -/
theorem keyOf_eq_of_toJson_eq {left right : Container}
    (hrep : left.representation = right.representation) (hprints : left.toJson = right.toJson) :
    Store.keyOf left = Store.keyOf right := by
  have hmetadata := congrArg (Json.get? · "metadata") hprints
  rw [left.get?_toJson, right.get?_toJson, if_pos rfl, if_pos rfl] at hmetadata
  have hfields : left.metadata.fields = right.metadata.fields :=
    Json.obj.inj (Option.some.inj hmetadata)
  have htext : ∀ field, left.metadata.textAt field = right.metadata.textAt field := by
    intro field
    unfold Metadata.textAt
    rw [hfields]
  have hname : left.name = right.name := htext "name"
  have hnamespace : left.namespaceName = right.namespaceName := htext "namespace"
  rw [Store.keyOf, Store.keyOf, Key.ofContainer, Key.ofContainer, hname, hnamespace,
    Container.gvk_eq_of_representation hrep]

/-- What was fetched describes itself. -/
theorem exists_again (h : Found hub gvr namespaceName name container stored current) :
    ∃ again, again.WellFormed ∧ again.representation = container.representation ∧
      again.toJson = current.toJson ∧
      Store.keyOf again = .ok ⟨container.gvk, namespaceName, name⟩ ∧
      described hub.store gvr namespaceName (some name) current.toJson = .ok again := by
  have hknown := h.known
  obtain ⟨hslash, helement, hempty⟩ :=
    containerFor_eq_elementOf h.serviceable.scheme h.serviceable.kinds h.resolved
  have hrep := hknown.loaded.representation.trans hempty
  have hcoherent : container.Coherent := by
    rw [helement]
    exact coherent_elementOf hslash
  obtain ⟨again, hload⟩ := (Container.exists_load_iff h.lawful hknown.wellFormed.toJson).mpr
    (Container.accepts_toJson hknown.wellFormed hcoherent hrep)
  have hloaded := Container.loaded_of_load h.lawful hknown.wellFormed.toJson hload
  have hwhole := Container.wellFormed_of_load h.lawful hknown.wellFormed.toJson hload
  have hprints := hloaded.toJson_eq hknown.wellFormed hknown.loaded.representation
  have hagainRep : again.representation = container.representation :=
    hloaded.representation.trans hempty
  have hkey := (keyOf_eq_of_toJson_eq (hagainRep.trans hrep.symm) hprints).trans hknown.keyOf
  obtain ⟨hagainNamed, hagainKey⟩ := Store.keyOf_eq_ok_iff.mp hkey
  have hnamespace : again.namespaceName = namespaceName := congrArg Key.namespaceName hagainKey
  have hname : again.name = name := congrArg Key.name hagainKey
  have hreconciled : Reconciled namespaceName (some name) again again :=
    ⟨⟨Or.inr (Or.inr hnamespace), fun path hpath => Or.inr (hname.trans (Option.some.inj hpath))⟩,
      (atPath_self hwhole hkey h.path).symm, hagainNamed⟩
  exact ⟨again, hwhole, hagainRep, hprints, hkey,
    described_eq_ok_iff.mpr ⟨container, again, h.resolved, hload, hreconciled⟩⟩

/-- The empty patch succeeds and gives the value stored the next version. -/
theorem exists_emptyPatch (h : Found hub gvr namespaceName name container stored current) :
    ∃ result, (patch gvr namespaceName name (.obj []) hub).1 = .ok result ∧
      (patch gvr namespaceName name (.obj []) hub).2.store.items.get?
          ⟨container.gvk, namespaceName, name⟩ =
        some (hub.store.setVersion (Stored.keepServerFields stored stored)) := by
  have hknown := h.known
  obtain ⟨again, hwhole, hrep, hprints, hkey, hdescribed⟩ := h.exists_again
  have hdocument : Store.patchDocument current again = .obj [] := by
    rw [Store.patchDocument, hprints]
    exact Json.diff_self hknown.wellFormed.toJson
  have hadmits : hub.store.admitPatch current again = .ok
      ⟨⟨container.gvk, namespaceName, name⟩, .modified,
        hub.store.setVersion (Stored.keepServerFields stored stored)⟩ := by
    simp only [Store.admitPatch, hkey, Store.find_eq_ok_iff.mpr h.kept, hdocument,
      Json.applyPatch_nil h.belongs.isObject]
    rfl
  have hloads : ∃ result, Store.loadInto again
      (hub.store.setVersion (Stored.keepServerFields stored stored)) = .ok result := by
    obtain ⟨uid, created, _, _, htext, hseal⟩ := Stored.exists_keepServerFields h.belongs
    have hdraft := h.belongs.toDraft
    rw [hseal, Store.exists_loadInto_iff hwhole (hdraft.sealed uid _ htext).1.whole,
      Stored.accepts_sealed_iff hwhole.lawful hdraft uid _ htext, Container.accepts_congr hrep,
      ← Container.exists_load_iff h.lawful h.belongs.whole]
    exact ⟨current, h.loads⟩
  obtain ⟨result, hresult⟩ := hloads
  refine ⟨result, ?_⟩
  rw [patch_apply rfl h.fetched, submitPatch_apply, Json.applyPatch_nil rfl, hdescribed]
  dsimp only
  rw [Hub.store_absorb, Store.patch, hadmits]
  refine ⟨congrArg refusedByStore hresult, ?_⟩
  exact Store.get?_items_commit_of_modified h.serviceable.sound.ascending rfl

/-- If the empty patch does what it should, the container prints what is stored. -/
theorem toJson_eq (h : Found hub gvr namespaceName name container stored current)
    (hmerges : Merges hub gvr namespaceName name container stored (.obj [])) :
    current.toJson = stored := by
  have hknown := h.known
  obtain ⟨result, hresult, hafter⟩ := h.exists_emptyPatch
  obtain ⟨loaded, uid, created, value, hload, _, huid, hcreated, hvalue, hsame⟩ :=
    hmerges.merged result hresult
  rw [Json.applyPatch_nil h.belongs.isObject] at hload
  obtain rfl := Except.ok.inj (h.loads.symm.trans hload)
  rw [atPath_self hknown.wellFormed hknown.keyOf h.path] at hsame
  obtain ⟨storedUid, storedCreated, hstoredUid, hstoredCreated, htext, hseal⟩ :=
    Stored.exists_keepServerFields h.belongs
  obtain rfl := Json.str.inj (Option.some.inj (hstoredUid.symm.trans huid))
  obtain rfl := Json.str.inj (Option.some.inj (hstoredCreated.symm.trans hcreated))
  rw [hafter, hseal] at hvalue
  rw [← Option.some.inj hvalue] at hsame
  -- The members that the store states are loaded as they are stored.
  have hstamped : ∀ field ∈ Stored.stampedFields,
      Stored.metadata? stored field = Stored.metadata? current.toJson field := by
    obtain ⟨n, _, hversion⟩ := h.serviceable.sound.version _ _ h.kept
    intro field hfield
    simp only [Stored.stampedFields, List.mem_cons, List.not_mem_nil, or_false] at hfield
    rw [Stored.metadata?_toJson]
    rcases hfield with rfl | rfl | rfl
    · rw [huid]
      exact (Stored.get?_of_loaded hknown.loaded rfl huid Json.str_ne_null rfl).symm
    · rw [hcreated]
      exact (Stored.get?_of_loaded hknown.loaded rfl hcreated Json.str_ne_null htext).symm
    · rw [hversion]
      exact (Stored.get?_of_loaded hknown.loaded rfl hversion Json.str_ne_null rfl).symm
  refine hknown.loaded.eq_of_same hknown.wellFormed h.belongs.whole ?_
  exact Stored.same_of_same_sealed h.belongs.toDraft
    (Stored.draft_toJson hknown.wellFormed hknown.keyOf) _ _ htext hsame hstamped

end Found

end

/-! ## Runs -/

theorem Served.serve {P : Store → Write → Prop} {start : Store} {hub : Hub}
    (h : Served P start hub.store) {request : Request} (hrequest : request.WellFormed)
    (hwrite : ∀ write change, submission hub.store request = .ok write →
      hub.store.admitWrite write = .ok change → P hub.store write) :
    Served P start (serve request hub).2.store := by
  rcases store_serve_cases request hub with hsame | ⟨write, change, hsubmission, hadmits, hcommit⟩
  · rw [hsame]
    exact h
  · have hwritten : (hub.store.write write).store = hub.store.commit change := by
      rw [Store.write_eq, hadmits]
      rfl
    rw [hcommit, ← hwritten]
    exact .write h h (submits_of_submission hrequest hsubmission)
      (hwrite write change hsubmission hadmits)

/-- Requests that are served one after another lead to such a state. -/
theorem Served.serveAll {start : Store} {hub : Hub}
    (h : Served (fun _ _ => True) start hub.store) {requests : List Request}
    (hrequests : ∀ request ∈ requests, request.WellFormed) :
    Served (fun _ _ => True) start
      (requests.foldl (fun hub request => (Facade.serve request hub).2) hub).store := by
  induction requests generalizing hub with
  | nil => exact h
  | cons request rest ih =>
    obtain ⟨hrequest, hrest⟩ := List.forall_mem_cons.mp hrequests
    exact ih (h.serve hrequest fun _ _ _ _ => trivial) hrest

/-- In a settled store the write of a request that stays in its namespace is in place. -/
theorem inPlace_of_not_escapes {store : Store} (h : Settled store) {request : Request}
    (hrequest : request.WellFormed) (hescapes : ¬ Escapes store request) {write : Write}
    {change : Change} (hsubmission : submission store request = .ok write)
    (hadmits : store.admitWrite write = .ok change) : InPlace store write := by
  cases request with
  | create gvr namespaceName body =>
    obtain ⟨object, _, hwrite⟩ := bind_eq_ok hsubmission
    exact Except.ok.inj hwrite ▸ trivial
  | update gvr namespaceName name body =>
    obtain ⟨_, _, _, _, rfl⟩ := submission_update_eq_ok hsubmission
    trivial
  | patch gvr namespaceName name body =>
    obtain ⟨container, hcontainer, hpatched⟩ :=
      keyOf_patch_of_not_escapes h.sound h.scheme hrequest hescapes hsubmission hadmits
    obtain ⟨_, current, object, hcurrent, _, rfl⟩ := submission_patch_eq_ok hsubmission
    obtain ⟨other, _, hother, hfetched⟩ := exists_fetched h.sound h.scheme hcurrent
    obtain rfl := Except.ok.inj (hcontainer.symm.trans hother)
    intro key hkey
    rw [← Except.ok.inj (hpatched.symm.trans hkey), ← h.toJson_fetched hcurrent, hfetched.gvk]
  | delete gvr namespaceName name =>
    obtain ⟨object, _, hwrite⟩ := bind_eq_ok hsubmission
    exact Except.ok.inj hwrite ▸ trivial

/-- In every state that requests lead to, whatever the order of their parts, an object at a path
can be loaded, and every patch of it does what it should exactly if loading and printing
gives back what is stored. It does if each patch before started from what was stored under
the key that it wrote to; so do all patches that are served at one go and do not escape. -/
theorem merges_iff {start : Store} (hstart : start.Fresh) (hscheme : start.scheme.Lawful)
    (hkinds : start.SlashFree) :
    (∀ (hub : Hub) (gvr : Gvr) (namespaceName name : String) (container : Container)
      (stored : Json), Served (fun _ _ => True) start hub.store → namespaceName ≠ "" →
      containerFor hub.store gvr = .ok container →
      hub.store.items.get? ⟨container.gvk, namespaceName, name⟩ = some stored →
      ∃ current, container.load stored = .ok current ∧
        ((∀ body : Json, body.WellFormed → body.isObject = true →
          Merges hub gvr namespaceName name container stored body) ↔ current.toJson = stored)) ∧
    (∀ (hub : Hub) (gvr : Gvr) (namespaceName name : String) (container : Container)
      (stored body : Json), Served InPlace start hub.store → namespaceName ≠ "" →
      containerFor hub.store gvr = .ok container →
      hub.store.items.get? ⟨container.gvk, namespaceName, name⟩ = some stored →
      body.WellFormed → body.isObject = true →
      Merges hub gvr namespaceName name container stored body) ∧
    ∀ (hub : Hub) (request : Request), Served InPlace start hub.store → request.WellFormed →
      ¬ Escapes hub.store request → Served InPlace start (serve request hub).2.store := by
  have hloads : ∀ {P : Store → Write → Prop} {hub : Hub} {gvr : Gvr}
      {namespaceName name : String} {container : Container} {stored : Json},
      Served P start hub.store → namespaceName ≠ "" →
      containerFor hub.store gvr = .ok container →
      hub.store.items.get? ⟨container.gvk, namespaceName, name⟩ = some stored →
      ∃ current, Found hub gvr namespaceName name container stored current := by
    intro P hub gvr namespaceName name container stored hserved hpath hcontainer hstored
    have hloadable := loadable_of_served hstart hscheme hkinds hserved
    have helement :=
      (containerFor_eq_elementOf hloadable.scheme hloadable.kinds hcontainer).2.1
    have hlawful : container.Lawful := helement ▸ lawful_elementOf hloadable.scheme container.gvk
    have haccepts := hloadable.accepts _ _ hstored
    rw [← helement] at haccepts
    obtain ⟨current, hload⟩ := (Container.exists_load_iff hlawful
      (hloadable.sound.belongs _ _ hstored).whole).mpr haccepts
    exact ⟨current, hloadable.toServiceable, hpath, hcontainer, hstored, hload⟩
  refine ⟨?_, ?_, ?_⟩
  · intro hub gvr namespaceName name container stored hserved hpath hcontainer hstored
    obtain ⟨current, hfound⟩ := hloads hserved hpath hcontainer hstored
    refine ⟨current, hfound.loads, fun h => ?_, fun h body hbody hmapping => ?_⟩
    · exact hfound.toJson_eq (h (.obj []) .nil rfl)
    · exact hfound.merges h hbody hmapping
  · intro hub gvr namespaceName name container stored body hserved hpath hcontainer hstored hbody
      hmapping
    obtain ⟨current, hfound⟩ := hloads hserved hpath hcontainer hstored
    have hprints := (settled_of_served hstart hscheme hkinds hserved).toJson_fetched hfound.fetched
    rw [hfound.known.gvk, hstored] at hprints
    exact hfound.merges (Option.some.inj hprints).symm hbody hmapping
  · intro hub request hserved hrequest hescapes
    have hsettled := settled_of_served hstart hscheme hkinds hserved
    exact hserved.serve hrequest fun write change hsubmission hadmits =>
      inPlace_of_not_escapes hsettled hrequest hescapes hsubmission hadmits

/-! ## Pods -/

/-- The state that requests lead to from an empty store. -/
def served (requests : List Request) : Hub :=
  requests.foldl (fun hub request => (serve request hub).2) (.ofStore Store.builtin 1)

theorem served_served {requests : List Request}
    (hrequests : ∀ request ∈ requests, request.WellFormed) :
    Served (fun _ _ => True) Store.builtin (served requests).store :=
  @Served.serveAll _ (.ofStore Store.builtin 1) .start _ hrequests

theorem loadable_served {requests : List Request}
    (hrequests : ∀ request ∈ requests, request.WellFormed) : Loadable (served requests).store :=
  loadable_of_served Store.fresh_builtin (Scheme.lawful_ofRegistry Registry.lawful_builtin)
    Store.slashFree_builtin (served_served hrequests)

def pods : Gvr := ⟨"", "v1", "pods"⟩

theorem kindFor_pods : Store.builtin.kindFor pods = .ok ⟨"", "v1", "Pod"⟩ :=
  eq_ok_of_toOption (by decide +kernel)

/-- What describes a pod. -/
def pod (metadata spec : Json.Fields) : Json :=
  .obj [("metadata", .obj metadata), ("spec", .obj spec)]

/-- The container of the pods and the value that it is to load at a path. -/
def podAt (hub : Hub) (namespaceName name : String) : Option (Container × Json) :=
  (containerFor hub.store pods).toOption.bind fun container =>
    (hub.store.items.get? ⟨container.gvk, namespaceName, name⟩).map (container, ·)

theorem of_podAt {hub : Hub} {namespaceName name : String} {container : Container} {stored : Json}
    (h : podAt hub namespaceName name = some (container, stored)) :
    containerFor hub.store pods = .ok container ∧
      hub.store.items.get? ⟨container.gvk, namespaceName, name⟩ = some stored := by
  obtain ⟨other, hother, hvalue⟩ := Option.bind_eq_some_iff.mp h
  obtain ⟨value, hstored, heq⟩ := Option.map_eq_some_iff.mp hvalue
  obtain ⟨rfl, rfl⟩ := Prod.mk.inj heq
  exact ⟨eq_ok_of_toOption hother, hstored⟩

/-- A hub with a pod. -/
def populated : Hub :=
  served [.create pods "a" (pod [("name", .str "n")] [("containers", .arr [])])]

/-- The pod can be patched to run on a node. -/
theorem merges_populated : ∃ container stored,
    podAt populated "a" "n" = some (container, stored) ∧
    Merges populated pods "a" "n" container stored (pod [] [("nodeName", .str "x")]) := by
  obtain ⟨_, hmerges, hserves⟩ := merges_iff Store.fresh_builtin
    (Scheme.lawful_ofRegistry Registry.lawful_builtin) Store.slashFree_builtin
  have hrequest : (Request.create pods "a"
      (pod [("name", .str "n")] [("containers", .arr [])])).WellFormed := by
    change (pod _ _).WellFormed
    decide
  have hserved := hserves (.ofStore Store.builtin 1) _ .start hrequest (fun hescapes => hescapes)
  have hpod : (podAt populated "a" "n").isSome = true := by decide +kernel
  obtain ⟨⟨container, stored⟩, hpod⟩ := Option.isSome_iff_exists.mp hpod
  obtain ⟨hcontainer, hstored⟩ := of_podAt hpod
  exact ⟨container, stored, hpod, hmerges populated pods "a" "n" container stored _ hserved
    (by decide) hcontainer hstored (by decide) rfl⟩

/-- Two pods of one name are created, and then a patch of the first is applied to the second. -/
def misplacing : List Request :=
  [.create pods "" (pod [("name", .str "n")] [("containers", .arr []), ("nodeName", .str "a")]),
    .create pods "other" (.obj [("metadata", .obj [("name", .str "n")])]),
    .patch pods "" "n" (pod [("namespace", .str "other")] [("nodeName", .str "b")])]

theorem wellFormed_misplacing : ∀ request ∈ misplacing, request.WellFormed := by
  refine List.forall_mem_cons.mpr ⟨?_, List.forall_mem_cons.mpr ⟨?_,
    List.forall_mem_singleton.mpr ?_⟩⟩
  all_goals
    change Json.WellFormed _
    decide

/-- The second of the pods then has no containers, and the empty patch gives it some. -/
theorem not_merges_misplacing : ∃ container stored,
    podAt (served misplacing) "other" "n" = some (container, stored) ∧
    ¬ Merges (served misplacing) pods "other" "n" container stored (.obj []) := by
  have hdiffers : ((podAt (served misplacing) "other" "n").map fun found =>
      (found.1.load found.2).toOption.map (·.toJson.same found.2)) = some (some false) := by
    decide +kernel
  obtain ⟨⟨container, stored⟩, hpod, hloaded⟩ := Option.map_eq_some_iff.mp hdiffers
  obtain ⟨current, hcurrent, hsame⟩ := Option.map_eq_some_iff.mp hloaded
  obtain ⟨hcontainer, hstored⟩ := of_podAt hpod
  refine ⟨container, stored, hpod, fun hmerges => ?_⟩
  have hfound : Found (served misplacing) pods "other" "n" container stored current :=
    ⟨(loadable_served wellFormed_misplacing).toServiceable, by decide, hcontainer, hstored,
      eq_ok_of_toOption hcurrent⟩
  rw [hfound.toJson_eq hmerges, Json.same_refl] at hsame
  exact Bool.noConfusion hsame

end Facade

end ClusterObjects
