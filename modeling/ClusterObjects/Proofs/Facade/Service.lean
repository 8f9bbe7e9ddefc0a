import ClusterObjects.Proofs.Facade.Paths
import ClusterObjects.Proofs.Identity.Kind
import ClusterObjects.Proofs.Object.Printing

/-! # States that requests lead to

A request that fetches an object submits its write later: other requests may come in
between. Whatever their order, the container of a kind can load every value that they
store. If moreover each patch starts from what is stored under the key that it writes
to, every value stored is what its container prints.
-/

namespace ClusterObjects

/-- No kind that a resource is mapped to has a slash in its group or version. -/
def Store.SlashFree (store : Store) : Prop :=
  ∀ gvr gvk, store.kindFor gvr = .ok gvk → gvk.SlashFree

theorem Store.slashFree_of_forall_kinds {store : Store}
    (h : ∀ entry ∈ store.kinds, entry.2.SlashFree) : store.SlashFree := by
  intro gvr gvk hkind
  unfold Store.kindFor at hkind
  split at hkind
  next hlookup =>
    obtain ⟨before, after, hkinds, _⟩ := List.lookup_eq_some_iff.mp hlookup
    rw [← Except.ok.inj hkind]
    refine h (gvr, _) ?_
    rw [hkinds]
    exact List.mem_append_right _ List.mem_cons_self
  · contradiction

theorem Store.slashFree_builtin : Store.builtin.SlashFree :=
  slashFree_of_forall_kinds (by decide +kernel)

namespace Container

theorem accepts_congr {c d : Container} (hrep : c.representation = d.representation)
    {value : Json} : c.Accepts value ↔ d.Accepts value := by
  have hmembers : c.decodedMembers = d.decodedMembers := by
    unfold decodedMembers
    rw [hrep]
  have hgvk := gvk_eq_of_representation hrep
  constructor
  · intro h
    exact ⟨h.object, hgvk ▸ h.statesKind, hmembers ▸ h.members⟩
  · intro h
    exact ⟨h.object, hgvk ▸ h.statesKind, hmembers ▸ h.members⟩

end Container

namespace Facade

/-! ## Containers of a kind -/

variable {scheme : Scheme} {item : Gvk}

theorem gvk_elementOf_of_identified (hscheme : scheme.Identified) (hitem : item.SlashFree) :
    (elementOf scheme item).gvk = item := by
  rcases elementOf_cases scheme item with ⟨kind, hkind, heq⟩ | heq
  · rw [heq]
    exact hscheme item kind hkind
  · rw [heq]
    exact Gvk.ofApiVersion_apiVersion hitem

theorem gvk_elementOf (hscheme : scheme.Lawful) (hitem : item.SlashFree) :
    (elementOf scheme item).gvk = item :=
  gvk_elementOf_of_identified hscheme.identified hitem

theorem coherent_elementOf (hitem : item.SlashFree) : (elementOf scheme item).Coherent := by
  rcases elementOf_cases scheme item with ⟨kind, _, heq⟩ | heq
  · rw [heq]
    rfl
  · rw [heq]
    exact congrArg Gvk.apiVersion (Gvk.ofApiVersion_apiVersion hitem).symm

theorem emptyLike_elementOf (hitem : item.SlashFree) :
    (elementOf scheme item).emptyLike.representation = (elementOf scheme item).representation := by
  rcases elementOf_cases scheme item with ⟨kind, _, heq⟩ | heq
  · rw [heq]
    rfl
  · rw [heq]
    have hgvk : (Container.generic item).gvk = item := Gvk.ofApiVersion_apiVersion hitem
    change Representation.generic (Container.generic item).gvk.apiVersion
      (Container.generic item).gvk.kind = _
    rw [hgvk]
    rfl

/-- The container of a resource is the one of the kind that it has. -/
theorem containerFor_eq_elementOf {store : Store} (hscheme : store.scheme.Lawful)
    (hkinds : store.SlashFree) {gvr : Gvr} {container : Container}
    (h : containerFor store gvr = .ok container) :
    container.gvk.SlashFree ∧ container = elementOf store.scheme container.gvk ∧
      container.emptyLike.representation = container.representation := by
  obtain ⟨gvk, hgvk, rfl⟩ := containerFor_eq_ok h
  have hitem := (hkinds gvr gvk hgvk).toItem
  rw [gvk_elementOf hscheme hitem]
  exact ⟨hitem, rfl, emptyLike_elementOf hitem⟩

/-- A well-formed container of the representation that its kind has. -/
structure Native (scheme : Scheme) (object : Container) : Prop where
  wellFormed : object.WellFormed
  slashFree : object.gvk.SlashFree
  representation : object.representation = (elementOf scheme object.gvk).representation

theorem Native.withMetadata {object : Container} (h : Native scheme object) {metadata : Metadata}
    (hmetadata : metadata.WellFormed) : Native scheme { object with metadata } :=
  ⟨h.wellFormed.withMetadata hmetadata, h.slashFree, h.representation⟩

theorem Native.coherent {object : Container} (h : Native scheme object) : object.Coherent :=
  Container.coherent_of_representation h.representation (coherent_elementOf h.slashFree)

/-- What a body describes is an object in the representation of the container of the resource. -/
theorem representation_described {store : Store} (hscheme : store.scheme.Lawful)
    (hkinds : store.SlashFree) {gvr : Gvr} {namespaceName : String} {name : Option String}
    {body : Json} (hbody : body.WellFormed) {object : Container}
    (h : described store gvr namespaceName name body = .ok object) :
    ∃ container, containerFor store gvr = .ok container ∧
      object.representation = container.representation := by
  obtain ⟨container, loaded, hcontainer, hload, hreconciled⟩ := described_eq_ok_iff.mp h
  obtain ⟨_, helement, hempty⟩ := containerFor_eq_elementOf hscheme hkinds hcontainer
  have hlawful : container.Lawful := helement ▸ lawful_elementOf hscheme container.gvk
  refine ⟨container, hcontainer, ?_⟩
  rw [hreconciled.representation, (Container.loaded_of_load hlawful hbody hload).representation,
    hempty]

theorem native_described {store : Store} (hscheme : store.scheme.Lawful)
    (hkinds : store.SlashFree) {gvr : Gvr} {namespaceName : String} {name : Option String}
    {body : Json} (hbody : body.WellFormed) {object : Container}
    (h : described store gvr namespaceName name body = .ok object) :
    Native store.scheme object := by
  obtain ⟨container, hcontainer, hrep⟩ := representation_described hscheme hkinds hbody h
  obtain ⟨hslash, helement, _⟩ := containerFor_eq_elementOf hscheme hkinds hcontainer
  have hgvk := Container.gvk_eq_of_representation hrep
  refine ⟨wellFormed_described hscheme hbody h, hgvk ▸ hslash, ?_⟩
  rw [hrep, hgvk, ← helement]

/-! ## Submitted writes -/

/-- The write that a request submits to a store, on the grounds of what it has fetched from an
earlier one. -/
inductive Submits (earlier now : Store) : Write → Prop
  | create {gvr : Gvr} {namespaceName : String} {body : Json} {object : Container}
      (hbody : body.WellFormed) (hobject : described now gvr namespaceName none body = .ok object) :
      Submits earlier now (.create object)
  | update {gvr : Gvr} {namespaceName name : String} {body : Json} {current object : Container}
      (hbody : body.WellFormed) (hcurrent : fetched earlier gvr namespaceName name = .ok current)
      (hobject : described now gvr namespaceName (some name) body = .ok object) :
      Submits earlier now (.update (withVersionOf object current))
  | patch {gvr : Gvr} {namespaceName name : String} {body : Json} {current object : Container}
      (hbody : body.WellFormed) (hmapping : body.isObject = true)
      (hcurrent : fetched earlier gvr namespaceName name = .ok current)
      (hobject : described now gvr namespaceName (some name) (current.toJson.applyPatch body) =
        .ok object) :
      Submits earlier now (.patch current object)
  | delete {gvr : Gvr} {namespaceName name : String} {object : Container}
      (hobject : fetched earlier gvr namespaceName name = .ok object) :
      Submits earlier now (.delete object)

/-- A patch starts from what is stored under the key that it writes to. -/
def InPlace (store : Store) : Write → Prop
  | .patch base object => ∀ key, Store.keyOf object = .ok key →
    store.items.get? key = some base.toJson
  | _ => True

/-- A state that requests lead to whose submitted writes have a property, in any order of
their parts. -/
inductive Served (P : Store → Write → Prop) (start : Store) : Store → Prop
  | start : Served P start start
  | write {earlier now : Store} {write : Write} (hearlier : Served P start earlier)
      (hnow : Served P start now) (hsubmits : Submits earlier now write) (hwrite : P now write) :
      Served P start (now.write write).store

/-- What the façade relies on. -/
structure Serviceable (store : Store) : Prop where
  sound : store.Sound
  scheme : store.scheme.Lawful
  kinds : store.SlashFree

/-- The container of the kind can load every value stored. -/
structure Loadable (store : Store) : Prop extends Serviceable store where
  accepts : ∀ key value, store.items.get? key = some value →
    (elementOf store.scheme key.gvk).Accepts value

/-- A well-formed container of the kind prints the value. -/
def Printed (scheme : Scheme) (key : Key) (value : Json) : Prop :=
  ∃ object : Container, object.WellFormed ∧
    object.representation = (elementOf scheme key.gvk).representation ∧ value = object.toJson

/-- Every value stored is what its container prints. -/
structure Settled (store : Store) : Prop extends Serviceable store where
  printed : ∀ key value, store.items.get? key = some value → Printed store.scheme key value

/-- What is known about a submitted write. -/
structure Submitted (scheme : Scheme) (write : Write) : Prop where
  wellFormed : write.WellFormed
  native : (∃ object, write = .delete object) ∨ Native scheme write.object

theorem submitted_of_submits {earlier now : Store} (hearlier : Serviceable earlier)
    (hnow : Serviceable now) {write : Write} (h : Submits earlier now write) :
    Submitted now.scheme write := by
  cases h with
  | create hbody hobject =>
    have hnative := native_described hnow.scheme hnow.kinds hbody hobject
    exact ⟨hnative.wellFormed, Or.inr hnative⟩
  | update hbody hcurrent hobject =>
    have hnative := native_described hnow.scheme hnow.kinds hbody hobject
    have hwrite :=
      wellFormed_update hearlier.sound hearlier.scheme hnow.scheme hcurrent hbody hobject
    have hwhole : (withVersionOf _ _).WellFormed := hwrite
    exact ⟨hwrite, Or.inr (hnative.withMetadata hwhole.metadata)⟩
  | patch hbody _ hcurrent hobject =>
    have hwrite :=
      wellFormed_patch hearlier.sound hearlier.scheme hnow.scheme hcurrent hbody hobject
    have hmerged := hwrite.1.toJson.applyPatch hbody
    exact ⟨hwrite, Or.inr (native_described hnow.scheme hnow.kinds hmerged hobject)⟩
  | delete hobject =>
    obtain ⟨_, _, _, hfetched⟩ := exists_fetched hearlier.sound hearlier.scheme hobject
    exact ⟨hfetched.wellFormed, Or.inl ⟨_, rfl⟩⟩

theorem Serviceable.write {store : Store} (h : Serviceable store) {write : Write}
    (hwrite : write.WellFormed) : Serviceable (store.write write).store := by
  refine ⟨h.sound.write hwrite, ?_, ?_⟩
  · rw [Store.scheme_write]
    exact h.scheme
  · intro gvr gvk hgvk
    unfold Store.kindFor at hgvk
    rw [Store.kinds_write] at hgvk
    exact h.kinds gvr gvk hgvk

/-- A write leaves it as it is which container a resource has. -/
theorem containerFor_write (store : Store) (write : Write) (gvr : Gvr) :
    containerFor (store.write write).store gvr = containerFor store gvr := by
  unfold containerFor Store.kindFor
  rw [Store.kinds_write, Store.scheme_write]

/-- What is stored comes from a container of the kind that it is stored under. -/
theorem Submitted.native_of_admitWrite {store : Store} {write : Write}
    (h : Submitted store.scheme write) {change : Change}
    (hadmits : store.admitWrite write = .ok change) (htype : change.type ≠ .deleted) :
    Native store.scheme write.object ∧
      write.object.representation = (elementOf store.scheme change.key.gvk).representation := by
  rcases h.native with ⟨object, rfl⟩ | hnative
  · exact absurd (Store.type_of_admitDelete hadmits) htype
  · have hkey := (Store.keyOf_eq_ok_iff.mp (Store.keyOf_of_admitWrite hadmits)).2
    refine ⟨hnative, ?_⟩
    rw [hnative.representation, ← hkey]
    rfl

/-! ## Values that can be loaded -/

/-- A submitted write keeps every value stored loadable. -/
theorem Loadable.write {store : Store} (h : Loadable store) {write : Write}
    (hwrite : Submitted store.scheme write) : Loadable (store.write write).store := by
  refine ⟨h.toServiceable.write hwrite.wellFormed, ?_⟩
  rw [Store.scheme_write]
  refine h.sound.forall_items_write h.accepts fun change hadmits htype => ?_
  obtain ⟨hnative, hrep⟩ := hwrite.native_of_admitWrite hadmits htype
  have hlawful := lawful_elementOf h.scheme change.key.gvk
  have hkey := Store.keyOf_of_admitWrite hadmits
  have hdraft := Stored.draft_toJson hnative.wellFormed hkey
  have hprinted := (Container.accepts_congr hrep).mp
    ((Container.accepts_toJson_iff hnative.wellFormed).mpr hnative.coherent)
  cases write with
  | create object =>
    obtain ⟨uid, created, hcreated, heq⟩ := (h.sound.seals_create hnative.wellFormed hadmits).2
    rw [heq]
    exact (Stored.accepts_sealed_iff hlawful hdraft uid _ hcreated).mpr hprinted
  | update object =>
    obtain ⟨uid, created, hcreated, heq⟩ := (h.sound.seals_update hadmits).2
    rw [heq]
    exact (Stored.accepts_sealed_iff hlawful hdraft uid _ hcreated).mpr hprinted
  | patch base object =>
    obtain ⟨_, stored, hstored, uid, created, hcreated, heq⟩ := h.sound.seals_patch hadmits
    have hbelongs := h.sound.belongs change.key stored hstored
    have hpatched := Stored.draft_applyPatch hbelongs hwrite.wellFormed.1 hwrite.wellFormed.2 hkey
    rw [heq]
    refine (Stored.accepts_sealed_iff hlawful hpatched uid _ hcreated).mpr ?_
    refine (Container.accepts_congr hrep).mp ?_
    exact Container.accepts_applyPatch hwrite.wellFormed.1 hwrite.wellFormed.2 hnative.coherent
      hbelongs.whole ((Container.accepts_congr hrep).mpr (h.accepts change.key stored hstored))
  | delete object =>
    exact absurd (Store.type_of_admitDelete hadmits) htype

/-! ## Values that are printed -/

theorem printed_of_seals {store : Store} {object : Container} {value : Json}
    (hobject : object.WellFormed) (hseals : store.Seals object.toJson value) {scheme : Scheme}
    {key : Key} (hrep : object.representation = (elementOf scheme key.gvk).representation) :
    Printed scheme key value := by
  obtain ⟨uid, created, hcreated, rfl⟩ := hseals
  exact ⟨_, Stored.wellFormed_sealed hobject uid store.nextVersion hcreated, hrep,
    Stored.sealed_toJson hobject uid store.nextVersion hcreated⟩

/-- What is fetched from a settled store prints what is stored. -/
theorem Settled.toJson_fetched {store : Store} (h : Settled store) {gvr : Gvr}
    {namespaceName name : String} {current : Container}
    (hcurrent : fetched store gvr namespaceName name = .ok current) :
    store.items.get? ⟨current.gvk, namespaceName, name⟩ = some current.toJson := by
  obtain ⟨container, value, hcontainer, hfetched⟩ := exists_fetched h.sound h.scheme hcurrent
  obtain ⟨_, helement, hempty⟩ := containerFor_eq_elementOf h.scheme h.kinds hcontainer
  obtain ⟨object, hobject, hrep, rfl⟩ := h.printed _ _ hfetched.stored
  have hsame : object.representation = container.emptyLike.representation :=
    hrep.trans ((congrArg Container.representation helement.symm).trans hempty.symm)
  rw [hfetched.gvk, hfetched.stored, hfetched.loaded.toJson_eq hobject hsame]

/-- The patch from a container to what a merge of its document describes leads to a twin of
the latter. -/
theorem exists_twin_applyPatch {store : Store} (hscheme : store.scheme.Lawful) {gvr : Gvr}
    {namespaceName : String} {name : Option String} {current object : Container} {body : Json}
    (hcurrent : current.WellFormed) (hbody : body.WellFormed) (hmapping : body.isObject = true)
    (hobject : described store gvr namespaceName name (current.toJson.applyPatch body) =
      .ok object) :
    ∃ twin : Container, twin.WellFormed ∧ twin.Twin object ∧
      current.toJson.applyPatch (Store.patchDocument current object) = twin.toJson := by
  have hmerged := hcurrent.toJson.applyPatch hbody
  have hwhole := wellFormed_described hscheme hmerged hobject
  obtain ⟨container, loaded, hcontainer, hload, hreconciled⟩ := described_eq_ok_iff.mp hobject
  obtain ⟨gvk, _, rfl⟩ := containerFor_eq_ok hcontainer
  have hloaded :=
    Container.loaded_of_load (lawful_elementOf hscheme gvk.toItem) hmerged hload
  have hnulls := hloaded.nullsWithin hwhole hreconciled.representation hreconciled.body
    (Json.nullsWithin_applyPatch hcurrent.toJson hbody hmapping)
  have hdiff := hcurrent.toJson.diff hwhole.toJson
  exact Container.exists_twin hwhole (hcurrent.toJson.applyPatch hdiff)
    (Json.applyPatch_diff hcurrent.toJson hwhole.toJson hnulls)

/-- A submitted write keeps a store settled if it is in place. -/
theorem Settled.write {earlier now : Store} (hearlier : Settled earlier) (hnow : Settled now)
    {write : Write} (hsubmits : Submits earlier now write) (hplace : InPlace now write) :
    Settled (now.write write).store := by
  have hwrite := submitted_of_submits hearlier.toServiceable hnow.toServiceable hsubmits
  refine ⟨hnow.toServiceable.write hwrite.wellFormed, ?_⟩
  rw [Store.scheme_write]
  refine hnow.sound.forall_items_write hnow.printed fun change hadmits htype => ?_
  obtain ⟨hnative, hrep⟩ := hwrite.native_of_admitWrite hadmits htype
  cases hsubmits with
  | create =>
    exact printed_of_seals hnative.wellFormed
      (hnow.sound.seals_create hnative.wellFormed hadmits).2 hrep
  | update => exact printed_of_seals hnative.wellFormed (hnow.sound.seals_update hadmits).2 hrep
  | patch hbody hmapping hcurrent hobject =>
    -- What is patched is what the base prints, so the patch leads to what the object prints.
    obtain ⟨_, stored, hstored, hseals⟩ := hnow.sound.seals_patch hadmits
    rw [hplace change.key (Store.keyOf_of_admitWrite hadmits)] at hstored
    obtain ⟨_, _, _, hfetched⟩ := exists_fetched hearlier.sound hearlier.scheme hcurrent
    obtain ⟨twin, htwin, hsame, heq⟩ :=
      exists_twin_applyPatch hnow.scheme hfetched.wellFormed hbody hmapping hobject
    rw [← Option.some.inj hstored, heq] at hseals
    exact printed_of_seals htwin hseals (hsame.representation.trans hrep)
  | delete =>
    exact absurd (Store.type_of_admitDelete hadmits) htype

/-! ## Runs -/

/-- In every state that requests lead to, the containers can load what is stored. -/
theorem loadable_of_served {start store : Store} (hstart : start.Fresh)
    (hscheme : start.scheme.Lawful) (hkinds : start.SlashFree) {P : Store → Write → Prop}
    (h : Served P start store) : Loadable store := by
  induction h with
  | start => exact ⟨⟨hstart.sound, hscheme, hkinds⟩, fun key value hvalue =>
      absurd hvalue (hstart.get?_items key value)⟩
  | write _ _ hsubmits _ hearlier hnow =>
    exact hnow.write (submitted_of_submits hearlier.toServiceable hnow.toServiceable hsubmits)

/-- Requests leave it as it is which kind a resource has. -/
theorem kindFor_of_served {start store : Store} {P : Store → Write → Prop}
    (h : Served P start store) (gvr : Gvr) : store.kindFor gvr = start.kindFor gvr := by
  induction h with
  | start => rfl
  | @write _ now write _ _ _ _ _ hnow =>
    rw [← hnow]
    unfold Store.kindFor
    rw [Store.kinds_write]

/-- If all patches are in place, the containers print what is stored. -/
theorem settled_of_served {start store : Store} (hstart : start.Fresh)
    (hscheme : start.scheme.Lawful) (hkinds : start.SlashFree)
    (h : Served InPlace start store) : Settled store := by
  induction h with
  | start => exact ⟨⟨hstart.sound, hscheme, hkinds⟩, fun key value hvalue =>
      absurd hvalue (hstart.get?_items key value)⟩
  | write _ _ hsubmits hplace hearlier hnow => exact hearlier.write hnow hsubmits hplace

/-! ## Requests one after another -/

theorem submits_of_submission {store : Store} {request : Request} (hrequest : request.WellFormed)
    {write : Write} (h : submission store request = .ok write) : Submits store store write := by
  cases request with
  | create gvr namespaceName body =>
    obtain ⟨object, hobject, hwrite⟩ := bind_eq_ok h
    obtain rfl := Except.ok.inj hwrite
    exact .create hrequest hobject
  | update gvr namespaceName name body =>
    obtain ⟨current, object, hcurrent, hobject, rfl⟩ := submission_update_eq_ok h
    exact .update hrequest hcurrent hobject
  | patch gvr namespaceName name body =>
    obtain ⟨hmapping, current, object, hcurrent, hobject, rfl⟩ := submission_patch_eq_ok h
    exact .patch hrequest hmapping hcurrent hobject
  | delete gvr namespaceName name =>
    obtain ⟨object, hobject, hwrite⟩ := bind_eq_ok h
    obtain rfl := Except.ok.inj hwrite
    exact .delete hobject

end Facade

end ClusterObjects
