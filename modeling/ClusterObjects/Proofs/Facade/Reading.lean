import ClusterObjects.Proofs.Facade.Listing
import ClusterObjects.Proofs.Store.ServerFields

/-! # Reading what has been written

Every stored value can be loaded into the container of its kind, whatever requests have led to
it, and a request that writes gives back what a get of the object gives right after it. Whether
the container prints what is stored is another matter: a patch of another object than the one
fetched can leave a value that is not in the form in which its container would print it.
-/

namespace ClusterObjects

namespace Facade

/-! ## What a write gives back -/

/-- The address of the resource that a request is about. -/
def Request.gvr : Request → Gvr
  | .create gvr .. | .update gvr .. | .patch gvr .. | .delete gvr .. => gvr

/-- An object that a request gives back is what a get of its namespace and name gives right after
it. -/
def Echoes (gvr : Gvr) (answer : Except ApiError (Option Container) × Hub) : Prop :=
  ∀ object, answer.1 = .ok (some object) →
    fetch gvr object.namespaceName object.name answer.2 = (.ok object, answer.2)

section

variable {hub : Hub} {gvr : Gvr}

theorem echoes_error (e : ApiError) : Echoes gvr (.error e, hub) := nofun

variable (h : Serviceable hub.store)

include h

/-- The write of an object that a body describes gives back what a get finds after it. -/
theorem echoes_submit {namespaceName : String} {name : Option String} {body : Json}
    (hbody : body.WellFormed) {described : Container}
    (hdescribed : Facade.described hub.store gvr namespaceName name body = .ok described)
    {write : Write} (hwrite : write.WellFormed)
    (hrep : write.object.representation = described.representation) :
    Echoes gvr (submit hub write) := by
  obtain ⟨container, hcontainer, hsame⟩ :=
    representation_described h.scheme h.kinds hbody hdescribed
  have hown := hrep.trans hsame
  intro object hresult
  obtain ⟨change, hadmits, hback⟩ := Store.admitted_of_succeeds (refusedByStore_eq_ok hresult)
  obtain ⟨htype, hkey⟩ := h.sound.keyOf_of_readBack hwrite hadmits hback
  have hload := (Store.load_of_readBack hback).2
  rw [(Container.kin_of_representation hown).load_eq] at hload
  -- The object is read back from under the key of the container's kind.
  have hpath : change.key = ⟨container.gvk, object.namespaceName, object.name⟩ := by
    have hwritten := (Store.keyOf_eq_ok_iff.mp (Store.keyOf_of_admitWrite hadmits)).2
    have hread := (Store.keyOf_eq_ok_iff.mp hkey).2
    have hgvk : change.key.gvk = container.gvk :=
      (congrArg Key.gvk hwritten).symm.trans (Container.gvk_eq_of_representation hown)
    rw [← hread] at hgvk ⊢
    exact congrArg (Key.mk · object.namespaceName object.name) hgvk
  have hstored : (hub.store.write write).store.items.get?
      ⟨container.gvk, object.namespaceName, object.name⟩ = some change.value := by
    rw [Store.write_of_admitted hadmits, ← hpath, Store.get?_items_commit h.sound.ascending,
      if_pos rfl, if_neg htype]
  have hstore : (submit hub write).2.store = (hub.store.write write).store := hub.store_absorb _
  rw [fetch_apply, hstore]
  have hsameContainer := (containerFor_write hub.store write gvr).trans hcontainer
  rw [fetched_of_load hsameContainer hstored hload]

theorem echoes_serve {request : Request} (hrequest : request.WellFormed) :
    Echoes request.gvr (serve request hub) := by
  refine serve_cases echoes_error fun write hsubmission => ?_
  have hwrite := wellFormed_submission h.sound h.scheme hrequest hsubmission
  cases request with
  | create gvr namespaceName body =>
    obtain ⟨object, hobject, heq⟩ := bind_eq_ok hsubmission
    obtain rfl := Except.ok.inj heq
    exact echoes_submit h hrequest hobject hwrite rfl
  | update gvr namespaceName name body =>
    obtain ⟨_, object, _, hobject, rfl⟩ := submission_update_eq_ok hsubmission
    exact echoes_submit h hrequest hobject hwrite rfl
  | patch gvr namespaceName name body =>
    obtain ⟨_, current, object, hcurrent, hobject, rfl⟩ := submission_patch_eq_ok hsubmission
    exact echoes_submit h (hwrite.1.toJson.applyPatch hrequest) hobject hwrite rfl
  | delete gvr namespaceName name =>
    -- A deletion gives nothing back.
    obtain ⟨current, _, heq⟩ := bind_eq_ok hsubmission
    obtain rfl := Except.ok.inj heq
    intro object hresult
    obtain ⟨change, _, hback⟩ := Store.admitted_of_succeeds (refusedByStore_eq_ok hresult)
    exact absurd rfl (Store.load_of_readBack hback).1

variable {earlier : Store} (hearlier : Serviceable earlier) {namespaceName name : String}
  {body : Json} (hbody : body.WellFormed) {current : Container}
  (hcurrent : fetched earlier gvr namespaceName name = .ok current)

include hearlier hbody hcurrent

theorem echoes_submitUpdate :
    Echoes gvr ((some <$> submitUpdate gvr namespaceName name body current) hub) := by
  refine submitUpdate_cases echoes_error fun object hobject => ?_
  have hwrite :=
    wellFormed_update hearlier.sound hearlier.scheme h.scheme hcurrent hbody hobject
  exact echoes_submit h hbody hobject hwrite rfl

theorem echoes_submitPatch :
    Echoes gvr ((some <$> submitPatch gvr namespaceName name body current) hub) := by
  refine submitPatch_cases echoes_error fun object hobject => ?_
  have hwrite :=
    wellFormed_patch hearlier.sound hearlier.scheme h.scheme hcurrent hbody hobject
  exact echoes_submit h (hwrite.1.toJson.applyPatch hbody) hobject hwrite rfl

end

/-! ## What can be loaded -/

section

variable {scheme : Scheme} {item : Gvk}

theorem kind_elementOf (hscheme : scheme.Lawful) :
    (elementOf scheme item).gvk.kind = item.kind := by
  rcases elementOf_cases scheme item with ⟨kind, hkind, heq⟩ | heq
  · rw [heq]
    exact congrArg Gvk.kind (hscheme item kind hkind).1
  · rw [heq]
    exact Gvk.kind_ofApiVersion _ _

/-- A stored value that states a kind is not loaded as one of another kind. -/
theorem kind_eq_of_load (hscheme : scheme.Lawful) {key : Key} {value : Json}
    (hvalue : Stored.Draft key value) (hnamed : key.gvk.kind ≠ "") {object : Container}
    (hload : (elementOf scheme item).load value = .ok object) : key.gvk.kind = item.kind := by
  obtain ⟨_, rfl, hstates, _⟩ := Container.load_eq_ok_iff.mp hload
  rw [hvalue.kind_eq_of_statesKind hnamed hstates, kind_elementOf hscheme]

end

/-- The container of the kind can load every value stored, and no kind has a slash in it. -/
structure Readable (store : Store) : Prop extends Loadable store where
  slashFree : ∀ key value, store.items.get? key = some value → key.gvk.SlashFree

/-- In every state that requests lead to, what is stored can be read. -/
theorem readable_of_served {start store : Store} (hstart : start.Fresh)
    (hscheme : start.scheme.Lawful) (hkinds : start.SlashFree) {P : Store → Write → Prop}
    (h : Served P start store) : Readable store := by
  refine ⟨loadable_of_served hstart hscheme hkinds h, ?_⟩
  induction h with
  | start => exact fun key value hvalue => absurd hvalue (hstart.get?_items key value)
  | write hearlier hnow hsubmits _ _ hslash =>
    have hbefore := loadable_of_served hstart hscheme hkinds hearlier
    have hloadable := loadable_of_served hstart hscheme hkinds hnow
    have hwrite := submitted_of_submits hbefore.toServiceable hloadable.toServiceable hsubmits
    refine hloadable.sound.forall_items_write hslash fun change hadmits htype => ?_
    have hnative := (hwrite.native_of_admitWrite hadmits htype).1
    rw [← (Store.keyOf_eq_ok_iff.mp (Store.keyOf_of_admitWrite hadmits)).2]
    exact hnative.slashFree

/-- The object that is read from a stored value: the container of its kind loads it, and every
resource whose elements are of this kind has it at its path. The container that is made for
the kind as that of a resource loads it too, unless the name of the kind ends like that of a
collection. The object prints the value again exactly if some object prints it. -/
structure Reads (hub : Hub) (key : Key) (value : Json) (object : Container) : Prop where
  keyOf : Store.keyOf object = .ok key
  loads : (elementOf hub.store.scheme key.gvk).load value = .ok object
  materialized : ∀ found, (containerOf hub key.gvk).load value = .ok found ↔
    key.gvk.toItem = key.gvk ∧ found = object
  fetched : ∀ gvr container, containerFor hub.store gvr = .ok container →
    container.gvk = key.gvk → fetch gvr key.namespaceName key.name hub = (.ok object, hub)
  printed : object.toJson = value ↔ Printed hub.store.scheme key value

section

variable {hub : Hub} (h : Readable hub.store)

include h

theorem Readable.exists_reads {key : Key} {value : Json}
    (hvalue : hub.store.items.get? key = some value) : ∃ object, Reads hub key value object := by
  have hslash := h.slashFree key value hvalue
  have hlawful := lawful_elementOf h.scheme key.gvk
  have hbelongs := h.sound.belongs key value hvalue
  obtain ⟨object, hload⟩ :=
    (Container.exists_load_iff hlawful hbelongs.whole).mpr (h.accepts key value hvalue)
  have hloaded := Container.loaded_of_load hlawful hbelongs.whole hload
  have hempty := @emptyLike_elementOf hub.store.scheme key.gvk hslash
  refine ⟨object, h.keyOf_of_load hslash hvalue rfl hload, hload, fun found => ?_, ?_, ?_⟩
  · have hcontainer : containerOf hub key.gvk = elementOf hub.store.scheme key.gvk.toItem := rfl
    rw [hcontainer]
    constructor
    · intro hfound
      have hself : key.gvk.toItem = key.gvk := by
        by_cases hnamed : key.gvk.kind = ""
        · exact Gvk.toItem_of_kind_eq_empty hnamed
        · exact Gvk.toItem_eq_of_kind_eq (kind_eq_of_load h.scheme hbelongs.toDraft hnamed hfound)
      rw [hself, hload] at hfound
      exact ⟨hself, (Except.ok.inj hfound).symm⟩
    · rintro ⟨hself, rfl⟩
      rw [hself, hload]
  · intro gvr container hcontainer hkind
    obtain ⟨_, helement, _⟩ := containerFor_eq_elementOf h.scheme h.kinds hcontainer
    rw [hkind] at helement
    rw [fetch_apply, fetched_of_load hcontainer (by rwa [hkind]) (helement ▸ hload)]
  · constructor
    · intro hsame
      exact ⟨object, Container.wellFormed_of_load hlawful hbelongs.whole hload,
        hloaded.representation.trans hempty, hsame.symm⟩
    · rintro ⟨other, hother, hrep, rfl⟩
      exact hloaded.toJson_eq hother (hrep.trans hempty.symm)

end

/-! ## What can be listed -/

/-- A list of a resource succeeds, if its selector can be read, unless the collection names
another kind than the resource and the store shows something of that; and it is refused
otherwise only because its selector cannot be read. -/
structure Listable (hub : Hub) (gvr : Gvr) (item : Gvk) (namespaceName : String) (query : Query) :
    Prop where
  succeeds : ∀ requirements, query.Requires requirements →
    ((∃ listing, list gvr namespaceName query hub = (.ok listing, hub)) ↔
      item.toList.toItem = item ∨ ∀ key value, hub.store.items.get? key = some value →
        ¬ Selects item.toList.toItem namespaceName requirements key value)
  refused : ∀ selector e, query.labelSelector = some selector →
    LabelSelector.parse selector = .error e →
    list gvr namespaceName query hub = (.error (.ofStoreError (.invalid e.message)), hub)

/-- A list succeeds exactly if the container of the resource loads every value that it shows. -/
theorem exists_listed_iff {store : Store} {gvr : Gvr} {gvk : Gvk}
    (hgvk : store.kindFor gvr = .ok gvk) (hscheme : store.scheme.Lawful)
    (hitem : gvk.toItem.SlashFree) {namespaceName : String} {query : Query}
    {requirements : List LabelRequirement}
    (hrequirements : ((ListOptions.inNamespace namespaceName).select
      query.labelSelector).requirements = .ok requirements) :
    (∃ listing, listed store gvr namespaceName query = .ok listing) ↔
      ∀ value ∈ store.selected ⟨gvk.toItem.toList.toItem, namespaceName, requirements⟩,
        ∃ object, (elementOf store.scheme gvk.toItem).load value = .ok object := by
  have hloads := @Collection.exists_loadAll_iff (.ofPrototype (elementOf store.scheme gvk.toItem))
    (store.selected ⟨gvk.toItem.toList.toItem, namespaceName, requirements⟩)
  rw [newItem_elementOf hitem] at hloads
  rw [listed_of_selects hgvk hscheme hitem hrequirements, ← hloads]
  cases (Collection.ofPrototype (elementOf store.scheme gvk.toItem)).loadAll
      (store.selected ⟨gvk.toItem.toList.toItem, namespaceName, requirements⟩) with
  | error e => exact iff_of_false nofun nofun
  | ok items => exact iff_of_true ⟨_, rfl⟩ ⟨_, rfl⟩

theorem Readable.listable {hub : Hub} (h : Readable hub.store) {gvr : Gvr} {gvk : Gvk}
    (hgvk : hub.store.kindFor gvr = .ok gvk) (namespaceName : String) (query : Query) :
    Listable hub gvr gvk.toItem namespaceName query := by
  have hitem := (h.kinds gvr gvk hgvk).toItem
  refine ⟨fun requirements hrequires => ?_, fun selector e hselector he => ?_⟩
  · have hrequirements := hrequires.requirements namespaceName
    have hlists : (∃ listing, list gvr namespaceName query hub = (.ok listing, hub)) ↔
        ∃ listing, listed hub.store gvr namespaceName query = .ok listing := by
      rw [list_apply]
      exact exists_congr fun listing => ⟨fun heq => congrArg Prod.fst heq, fun heq => heq ▸ rfl⟩
    rw [hlists]
    by_cases hself : gvk.toItem.toList.toItem = gvk.toItem
    · exact iff_of_true ⟨_, h.listed_eq hgvk hself hrequirements⟩ (Or.inl hself)
    · rw [or_iff_right hself, exists_listed_iff hgvk h.scheme hitem hrequirements]
      constructor
      · intro hloads key value hvalue hselects
        -- The value states the kind that the collection names, which the container has not.
        obtain ⟨object, hload⟩ :=
          hloads value ((mem_selected_iff h.sound.ascending).mpr ⟨key, hvalue, hselects⟩)
        obtain ⟨hgroup, hversion, hnamed⟩ := gvk.toItem.toItem_toList
        rw [← hselects.kind] at hgroup hversion hnamed hself
        have hdraft := (h.sound.belongs key value hvalue).toDraft
        exact hself (Gvk.eq_of_parts hgroup hversion
          (kind_eq_of_load h.scheme hdraft hnamed hload))
      · intro hnone value hmem
        obtain ⟨key, hvalue, hselects⟩ := (mem_selected_iff h.sound.ascending).mp hmem
        exact absurd hselects (hnone key value hvalue)
  · rw [list_apply, listed_of_refused hgvk (Query.requirements_of_refused hselector he _)]

/-! ## Runs -/

/-- In every state that requests lead to, whatever the order of their parts, every stored value can
be loaded, got and listed, and an object that a request gives back is what a get gives right
after it. A stored value is printed again exactly if it is what some object of its kind
prints; so is every stored value if each patch started from what was stored under the key that
it wrote to, as do all patches that are served at one go and do not escape. -/
theorem readable_and_echoed {start : Store} (hstart : start.Fresh) (hscheme : start.scheme.Lawful)
    (hkinds : start.SlashFree) {hub : Hub} (hserved : Served (fun _ _ => True) start hub.store) :
    (∀ key value, hub.store.items.get? key = some value → ∃ object, Reads hub key value object) ∧
    (∀ gvr gvk namespaceName query, hub.store.kindFor gvr = .ok gvk →
      Listable hub gvr gvk.toItem namespaceName query) ∧
    (∀ request : Request, request.WellFormed → Echoes request.gvr (serve request hub)) ∧
    (∀ before : Hub, Served (fun _ _ => True) start before.store →
      ∀ (gvr : Gvr) (namespaceName name : String) (body : Json) (current : Container),
        body.WellFormed → (fetch gvr namespaceName name before).1 = .ok current →
        Echoes gvr ((some <$> submitUpdate gvr namespaceName name body current) hub) ∧
        Echoes gvr ((some <$> submitPatch gvr namespaceName name body current) hub)) ∧
    (Served InPlace start hub.store →
      (∀ key value, hub.store.items.get? key = some value → Printed hub.store.scheme key value) ∧
      ∀ request : Request, request.WellFormed → ¬ Escapes hub.store request →
        Served InPlace start (serve request hub).2.store) := by
  have hreadable := readable_of_served hstart hscheme hkinds hserved
  have hserviceable := hreadable.toServiceable
  refine ⟨fun key value hvalue => hreadable.exists_reads hvalue,
    fun gvr gvk namespaceName query hgvk => hreadable.listable hgvk namespaceName query,
    fun request hrequest => echoes_serve hserviceable hrequest, ?_, fun hplace => ?_⟩
  · intro before hbefore gvr namespaceName name body current hbody hcurrent
    have hearlier := (loadable_of_served hstart hscheme hkinds hbefore).toServiceable
    rw [fetch_apply] at hcurrent
    exact ⟨echoes_submitUpdate hserviceable hearlier hbody hcurrent,
      echoes_submitPatch hserviceable hearlier hbody hcurrent⟩
  · have hsettled := settled_of_served hstart hscheme hkinds hplace
    refine ⟨hsettled.printed, fun request hrequest hescapes => ?_⟩
    exact hplace.serve hrequest fun write change hsubmission hadmits =>
      inPlace_of_not_escapes hsettled hrequest hescapes hsubmission hadmits

/-- The key of a pod. -/
def podKey (namespaceName name : String) : Key := ⟨⟨"", "v1", "Pod"⟩, namespaceName, name⟩

/-- A pod that has been created is got, listed and printed as it is stored. -/
theorem readable_and_echoed_populated : ∃ value object listing,
    populated.store.items.get? (podKey "a" "n") = some value ∧
    Reads populated (podKey "a" "n") value object ∧ object.toJson = value ∧
    list pods "a" .all populated = (.ok listing, populated) := by
  have hscheme := Scheme.lawful_ofRegistry Registry.lawful_builtin
  have hrequest : (Request.create pods "a"
      (pod [("name", .str "n")] [("containers", .arr [])])).WellFormed := by
    change (pod _ _).WellFormed
    decide
  have hserved : Served (fun _ _ => True) Store.builtin populated.store :=
    served_served (List.forall_mem_singleton.mpr hrequest)
  -- The empty store is settled, and the creation keeps it so.
  obtain ⟨_, _, _, _, hfresh⟩ := @readable_and_echoed Store.builtin Store.fresh_builtin hscheme
    Store.slashFree_builtin (.ofStore Store.builtin 1) .start
  have hplace : Served InPlace Store.builtin populated.store :=
    (hfresh .start).2 _ hrequest fun hescapes => hescapes
  obtain ⟨hreads, hlists, _, _, hsettled⟩ :=
    readable_and_echoed Store.fresh_builtin hscheme Store.slashFree_builtin hserved
  have hstored : (populated.store.items.get? (podKey "a" "n")).isSome = true := by decide +kernel
  obtain ⟨value, hvalue⟩ := Option.isSome_iff_exists.mp hstored
  obtain ⟨object, hobject⟩ := hreads _ value hvalue
  have hkind : populated.store.kindFor pods = .ok ⟨"", "v1", "Pod"⟩ :=
    (kindFor_of_served hserved pods).trans kindFor_pods
  obtain ⟨listing, hlisting⟩ := ((hlists pods _ "a" .all hkind).succeeds [] rfl).mpr
    (Or.inl (by decide))
  exact ⟨value, object, listing, hvalue, hobject,
    hobject.printed.mpr ((hsettled hplace).1 _ value hvalue), hlisting⟩

/-- A pod that was patched in place of another is loaded with containers but stored without. -/
theorem not_printed_misplacing : ∃ value object,
    Served (fun _ _ => True) Store.builtin (served misplacing).store ∧
    (served misplacing).store.items.get? (podKey "other" "n") = some value ∧
    (elementOf (served misplacing).store.scheme (podKey "other" "n").gvk).load value = .ok object ∧
    object.toJson ≠ value := by
  have hdiffers : ((served misplacing).store.items.get? (podKey "other" "n")).bind (fun value =>
      ((elementOf (served misplacing).store.scheme (podKey "other" "n").gvk).load
        value).toOption.map (·.toJson.same value)) = some false := by
    decide +kernel
  obtain ⟨value, hvalue, hloaded⟩ := Option.bind_eq_some_iff.mp hdiffers
  obtain ⟨object, hobject, hsame⟩ := Option.map_eq_some_iff.mp hloaded
  refine ⟨value, object, served_served wellFormed_misplacing, hvalue,
    eq_ok_of_toOption hobject, fun hprints => ?_⟩
  rw [hprints, Json.same_refl] at hsame
  exact Bool.noConfusion hsame

end Facade

end ClusterObjects
