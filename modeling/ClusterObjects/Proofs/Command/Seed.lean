import ClusterObjects.Command.Seed
import ClusterObjects.Proofs.Entries
import ClusterObjects.Proofs.Facade.Containers
import ClusterObjects.Proofs.Store.Creation

/-! # What a seed leaves behind

A seed that is sown in an empty store fills it with the documents of registered kinds and nothing
else: each has a place of its own, which is given by its kind, its namespace and its name, and is
stored there as the container of its kind loads it. A document that states no namespace is in the
one given. One that states an empty namespace stays outside of all namespaces, so the given one
stands in for a namespace left open exactly if it is empty itself or no document does so.
-/

namespace ClusterObjects

/-! ## Registered kinds -/

/-- The store serves every kind of a registry, each under its own name. -/
structure Store.Serves (store : Store) (registry : Registry) : Prop where
  lawful : store.scheme.Lawful
  kindFor : ∀ entry ∈ registry.entries, ∀ gvk ∈ entry.kind, store.kindFor entry.gvr = .ok gvk
  element : ∀ entry ∈ registry.entries, ∀ gvk ∈ entry.kind, gvk.toItem = gvk ∧ gvk.SlashFree

theorem Store.Serves.commit {store : Store} {registry : Registry} (h : store.Serves registry)
    (change : Change) : (store.commit change).Serves registry := by
  unfold Store.commit
  split <;> exact ⟨h.lawful, h.kindFor, h.element⟩

/-- A store of the program serves the kinds that it starts from. -/
theorem Store.serves_builtin (stamps : Nat → Stamp) :
    (Store.ofRegistry .builtin stamps).Serves .builtin := by
  have hkinds : ∀ entry ∈ Registry.builtin.entries, ∀ gvk ∈ entry.kind,
      (Store.ofRegistry .builtin fun _ => stillStamp).kinds.lookup entry.gvr = some gvk ∧
        gvk.toItem = gvk ∧ gvk.SlashFree := by decide +kernel
  refine ⟨Scheme.lawful_ofRegistry Registry.lawful_builtin, fun entry hentry gvk hgvk => ?_,
    fun entry hentry gvk hgvk => (hkinds entry hentry gvk hgvk).2⟩
  have hlookup : (Store.ofRegistry .builtin stamps).kinds.lookup entry.gvr = some gvk :=
    (hkinds entry hentry gvk hgvk).1
  rw [Store.kindFor, hlookup]

namespace Seed

/-- The kind of an object is registered. -/
def recognized (registry : Registry) (object : Json) : Bool :=
  registry.entries.any fun entry => entry.kind == some (statedKind object)

theorem isSome_registration? (registry : Registry) (object : Json) :
    (registration? registry (statedKind object)).isSome = recognized registry object := by
  rw [registration?, recognized, List.isSome_find?]

/-- The name that an object states. -/
def nameOf (object : Json) : String :=
  ((Stored.metadata? object "name").bind Json.text?).getD ""

/-- Where an object is created if a namespace is given. -/
def place (given : String) (object : Json) : Key :=
  ⟨statedKind object, namespaceOf object given, nameOf object⟩

theorem namespaceOf_eq (object : Json) (given : String) :
    namespaceOf object given =
      ((Stored.metadata? object "namespace").bind Json.text?).getD given := by
  unfold namespaceOf Stored.metadata?
  rw [Option.bind_assoc]
  rfl

theorem mem_of_registration? {registry : Registry} {gvk : Gvk} {entry : Registration}
    (h : registration? registry gvk = some entry) :
    entry ∈ registry.entries ∧ gvk ∈ entry.kind :=
  ⟨List.mem_of_find?_eq_some h, by simpa using List.find?_some h⟩

/-! ## One document -/

/-- The value of an object as it was loaded, at its place, with what the store adds. -/
structure Carries (key : Key) (loaded : Container) (value : Json) : Prop extends
    Stored.Amends ["namespace", "uid", "creationTimestamp", "resourceVersion"] loaded.toJson
      value where
  kept : ∀ field ∈ Stored.serverFields, (Stored.text? loaded.toJson field).isSome →
    Stored.metadata? value field = Stored.metadata? loaded.toJson field
  placed : ((Stored.metadata? value "namespace").bind Json.text?).getD "" = key.namespaceName

theorem amends_inNamespace (namespaceName : String) (loaded : Container) :
    Stored.Amends ["namespace"] loaded.toJson
      (Facade.inNamespace namespaceName loaded).toJson := by
  unfold Facade.inNamespace
  split
  · exact Stored.amends_self ⟨_, loaded.get?_toJson "metadata"⟩ _
  · refine ⟨⟨_, Container.get?_toJson _ "metadata"⟩, fun key hkey => ?_, fun field hfield => ?_⟩
    · rw [Container.get?_toJson, Container.get?_toJson, if_neg hkey.symm, if_neg hkey.symm]
      rfl
    · rw [Stored.metadata?_toJson, Stored.metadata?_toJson]
      exact (loaded.metadata.get?_setText _ _ _).trans (if_neg fun heq => hfield (by simp [heq]))

theorem carries_of_placed (store : Store) {namespaceName : String} {loaded : Container} {key : Key}
    (hkey : (Facade.inNamespace namespaceName loaded).namespaceName = key.namespaceName) :
    Carries key loaded
      (store.setVersion (store.stampNew (Facade.inNamespace namespaceName loaded).toJson)) := by
  have hplaced := amends_inNamespace namespaceName loaded
  have hcompletes := Store.completes_setVersion_stampNew hplaced.metadata store
  refine ⟨hplaced.trans hcompletes.toAmends, fun field hfield hstated => ?_, ?_⟩
  · have hserver : ∀ field ∈ Stored.serverFields, field ∉ ["namespace"] := by decide
    have hsame := hplaced.field field (hserver field hfield)
    rw [← hsame]
    refine hcompletes.kept field hfield ?_
    unfold Stored.text? at hstated ⊢
    rwa [hsame]
  · rw [hcompletes.field "namespace" (by decide), Stored.metadata?_toJson, ← hkey]
    rfl

/-- What a container loads from an object and the path completes has its place as its key. -/
theorem ofContainer_eq_place {container loaded described : Container} {object : Json}
    {given : String} (hcontainer : container.Lawful) (hobject : object.WellFormed)
    (hload : container.load object = .ok loaded)
    (hreconciled : Facade.Reconciled (namespaceOf object given) none loaded described)
    (hgvk : described.gvk = statedKind object) :
    Key.ofContainer described = place given object := by
  have hloaded := Container.loaded_of_load hcontainer hobject hload
  have hname : described.name = nameOf object := by
    have heq : described = Facade.inNamespace (namespaceOf object given) loaded :=
      hreconciled.eq_atPath
    rw [heq, Facade.name_inNamespace]
    exact congrArg (Option.getD · "") (Stored.text?_of_loaded hloaded "name" rfl)
  have hopen : loaded.namespaceName =
      ((Stored.metadata? object "namespace").bind Json.text?).getD "" :=
    congrArg (Option.getD · "") (Stored.text?_of_loaded hloaded "namespace" rfl)
  have hnamespace : described.namespaceName = namespaceOf object given := by
    rw [hreconciled.namespaceName_eq]
    split
    next hempty =>
      -- The path leaves the namespace open, and so does the object, or it states the empty one.
      rw [String.isEmpty_iff, namespaceOf_eq] at hempty
      rw [hopen, namespaceOf_eq]
      cases htext : (Stored.metadata? object "namespace").bind Json.text? with
      | none => rw [htext] at hempty; exact hempty.symm
      | some text => rfl
    next => rfl
  exact congr (congr (congrArg Key.mk hgvk) hnamespace) hname

/-- An object of a registered kind that is created is stored at its place, where nothing was. -/
theorem exists_commit_of_create {registry : Registry} {hub : Hub}
    (hserves : hub.store.Serves registry) {object : Json} (hobject : object.WellFormed)
    {entry : Registration} (hentry : registration? registry (statedKind object) = some entry)
    {given : String} {result : Container} {after : Hub}
    (hcreate : Facade.create entry.gvr (namespaceOf object given) object hub =
      (.ok result, after)) :
    ∃ loaded value,
      (Facade.elementOf hub.store.scheme (statedKind object)).load object = .ok loaded ∧
        Carries (place given object) loaded value ∧
        hub.store.items.get? (place given object) = none ∧
        after.store = hub.store.commit ⟨place given object, .added, value⟩ := by
  obtain ⟨hmem, hstated⟩ := mem_of_registration? hentry
  have hkind := hserves.kindFor entry hmem _ hstated
  obtain ⟨hitem, hfree⟩ := hserves.element entry hmem _ hstated
  rw [Facade.create_apply] at hcreate
  split at hcreate
  next described hdescribed =>
    have hgvk := Facade.gvk_of_described hserves.lawful.identified hkind (by rwa [hitem]) hdescribed
    obtain ⟨container, loaded, hcontainer, hload, hreconciled⟩ :=
      Facade.described_eq_ok_iff.mp hdescribed
    rw [Facade.containerFor_of_kindFor hkind, hitem] at hcontainer
    obtain rfl := Except.ok.inj hcontainer
    have hplace := ofContainer_eq_place (Facade.lawful_elementOf hserves.lawful _) hobject hload
      hreconciled (hgvk.trans hitem)
    obtain rfl : described = Facade.inNamespace (namespaceOf object given) loaded :=
      hreconciled.eq_atPath
    obtain ⟨hresult, hafter⟩ := Prod.mk.inj hcreate
    obtain ⟨hnew, hcommit⟩ := Store.create_eq_ok (Facade.refusedByStore_eq_ok hresult)
    rw [hplace] at hnew hcommit
    have hcarries := carries_of_placed hub.store (congrArg Key.namespaceName hplace)
    exact ⟨loaded, _, hload, hcarries, hnew, by rw [← hafter, Hub.store_absorb, hcommit]⟩
  next =>
    have hresult := (Prod.mk.inj hcreate).1
    contradiction

/-! ## All documents -/

/-- An object is stored at its place as the container of its kind loads it. -/
def IsStored (scheme : Scheme) (place : Json → Key) (store : Store) (object : Json) : Prop :=
  ∃ loaded value, (Facade.elementOf scheme (statedKind object)).load object = .ok loaded ∧
    store.items.get? (place object) = some value ∧ Carries (place object) loaded value

/-- Objects have been added to a store, each at its place, and nothing else has changed. -/
structure Adds (place : Json → Key) (objects : List Json) (before after : Store) : Prop where
  keys : (after.items.map Prod.fst).Perm (objects.map place ++ before.items.map Prod.fst)
  kept : ∀ key value, before.items.get? key = some value → after.items.get? key = some value
  stored : ∀ object ∈ objects, IsStored before.scheme place after object

theorem adds_nil (place : Json → Key) (store : Store) : Adds place [] store store :=
  ⟨.refl _, fun _ _ h => h, List.forall_mem_nil _⟩

theorem Adds.cons {place : Json → Key} {object : Json} {objects : List Json}
    {before after : Store} {loaded : Container} {value : Json}
    (hascending : before.items.Ascending) (hnew : before.items.get? (place object) = none)
    (hload : (Facade.elementOf before.scheme (statedKind object)).load object = .ok loaded)
    (hcarries : Carries (place object) loaded value)
    (h : Adds place objects (before.commit ⟨place object, .added, value⟩) after) :
    Adds place (object :: objects) before after := by
  have hget := Store.get?_items_commit hascending ⟨place object, .added, value⟩
  refine ⟨?_, fun key other hkey => h.kept key other ?_, ?_⟩
  · have hinsert := (Entries.perm_insert hnew value).map Prod.fst
    exact h.keys.trans ((hinsert.append_left _).trans List.perm_middle)
  · rw [hget, if_neg, hkey]
    rintro rfl
    rw [hnew] at hkey
    contradiction
  · refine List.forall_mem_cons.mpr ⟨⟨loaded, value, hload, h.kept _ _ ?_, hcarries⟩, h.stored⟩
    rw [hget, if_pos rfl]
    rfl

section

variable {registry : Registry} {given : String} {object : Json} {rest : List Json}

theorem sow_cons_of_none {σ : Type} [ObjectStore σ]
    (h : registration? registry (statedKind object) = none) :
    (sow registry given (object :: rest) : CommandM σ Nat) = sow registry given rest := by
  rw [sow, h]

theorem eq_ok_of_within {gvk : Gvk} {request : FacadeM Hub Container} {hub after : Hub}
    {result : Container} (h : within gvk request hub = (.ok result, after)) :
    request hub = (.ok result, after) := by
  unfold within at h
  cases hrequest : request hub with
  | mk answer middle =>
    rw [hrequest] at h
    cases answer with
    | error e =>
      have hresult := (Prod.mk.inj h).1
      contradiction
    | ok found =>
      obtain ⟨hfound, rfl⟩ := Prod.mk.inj h
      rw [Except.ok.inj hfound]

/-- If an object of a registered kind and those after it are sown, it has been created first. -/
theorem exists_create_of_sow {entry : Registration}
    (hentry : registration? registry (statedKind object) = some entry) {hub after : Hub}
    {count : Nat} (h : sow registry given (object :: rest) hub = (.ok count, after)) :
    ∃ result middle others,
      Facade.create entry.gvr (namespaceOf object given) object hub = (.ok result, middle) ∧
        sow registry given rest middle = (.ok others, after) ∧ count = others + 1 := by
  rw [sow, hentry] at h
  obtain ⟨result, middle, hcreate, h⟩ := eq_ok_of_bind_apply h
  obtain ⟨others, last, hrest, h⟩ := eq_ok_of_bind_apply h
  obtain ⟨hcount, rfl⟩ := Prod.mk.inj h
  exact ⟨result, middle, others, eq_ok_of_within hcreate, hrest, (Except.ok.inj hcount).symm⟩

end

/-- A seed that is sown adds the objects of registered kinds and counts them. -/
theorem adds_of_sow {registry : Registry} {given : String} {objects : List Json}
    (hobjects : ∀ object ∈ objects, object.WellFormed) {hub after : Hub}
    (hserves : hub.store.Serves registry) (hascending : hub.store.items.Ascending) {count : Nat}
    (hsow : sow registry given objects hub = (.ok count, after)) :
    count = (objects.filter (recognized registry)).length ∧
      Adds (place given) (objects.filter (recognized registry)) hub.store after.store := by
  induction objects generalizing hub count with
  | nil =>
    obtain ⟨hcount, rfl⟩ := Prod.mk.inj hsow
    exact ⟨(Except.ok.inj hcount).symm, adds_nil _ _⟩
  | cons object rest ih =>
    obtain ⟨hobject, hrest⟩ := List.forall_mem_cons.mp hobjects
    cases hentry : registration? registry (statedKind object) with
    | none =>
      rw [sow_cons_of_none hentry] at hsow
      rw [List.filter_cons_of_neg (by simp [← isSome_registration?, hentry])]
      exact ih hrest hserves hascending hsow
    | some entry =>
      rw [List.filter_cons_of_pos (by simp [← isSome_registration?, hentry])]
      obtain ⟨result, middle, others, hcreate, hothers, rfl⟩ := exists_create_of_sow hentry hsow
      obtain ⟨loaded, value, hload, hcarries, hnew, hmiddle⟩ :=
        exists_commit_of_create hserves hobject hentry hcreate
      obtain ⟨hcount, hadds⟩ := ih hrest (hmiddle ▸ hserves.commit _)
        (hmiddle ▸ Store.ascending_items_commit hascending _) hothers
      rw [hmiddle] at hadds
      exact ⟨congrArg (· + 1) hcount, hadds.cons hascending hnew hload hcarries⟩

/-! ## Sowing in an empty store -/

theorem wellFormed_of_mem_flatten {documents : List Json}
    (h : ∀ document ∈ documents, document.WellFormed) :
    ∀ object ∈ flatten documents, object.WellFormed := by
  intro object hobject
  obtain ⟨document, hdocument, hmem⟩ := List.mem_flatMap.mp hobject
  have hwhole := h document hdocument
  split at hmem
  next => contradiction
  next items => exact Json.wellFormedItems_iff.mp hwhole object hmem
  next => exact List.mem_singleton.mp hmem ▸ hwhole

/-- Where an object belongs if a given namespace stands in for one that is left open or empty. -/
def filledPlace (given : String) (object : Json) : Key :=
  ⟨statedKind object, (Stored.text? object "namespace").getD given, nameOf object⟩

/-- The object states its namespace, but as the empty one. -/
def Outside (object : Json) : Prop :=
  (Stored.metadata? object "namespace").bind Json.text? = some ""

/-- The objects, and nothing else, are what is stored, each at a place of its own. -/
structure Fills (scheme : Scheme) (place : Json → Key) (objects : List Json) (count : Nat)
    (store : Store) : Prop where
  counted : count = objects.length
  size : store.items.length = count
  keys : (store.items.map Prod.fst).Perm (objects.map place)
  stored : ∀ object ∈ objects, IsStored scheme place store object

theorem Adds.fills {place : Json → Key} {objects : List Json} {before after : Store}
    (h : Adds place objects before after) (hempty : before.items = []) :
    Fills before.scheme place objects objects.length after := by
  have hkeys : (after.items.map Prod.fst).Perm (objects.map place) := by
    simpa [hempty] using h.keys
  refine ⟨rfl, ?_, hkeys, h.stored⟩
  simpa using hkeys.length_eq

theorem Fills.congr {scheme : Scheme} {place other : Json → Key} {objects : List Json}
    {count : Nat} {store : Store} (h : Fills scheme place objects count store)
    (hsame : ∀ object ∈ objects, place object = other object) :
    Fills scheme other objects count store := by
  refine ⟨h.counted, h.size, List.map_congr_left hsame ▸ h.keys, fun object hobject => ?_⟩
  unfold IsStored
  rw [← hsame object hobject]
  exact h.stored object hobject

theorem place_eq_filledPlace {given : String} {object : Json} (h : given = "" ∨ ¬ Outside object) :
    place given object = filledPlace given object := by
  have hnamespace : namespaceOf object given = (Stored.text? object "namespace").getD given := by
    rw [namespaceOf_eq, Stored.text?]
    cases htext : (Stored.metadata? object "namespace").bind Json.text? with
    | none => rfl
    | some text =>
      by_cases hempty : text = ""
      · subst hempty
        exact (h.resolve_right (not_not_intro htext)).symm
      · simp [Option.filter_some, hempty]
  exact congrArg (Key.mk _ · _) hnamespace

theorem namespaceName_filledPlace_ne {given : String} (h : given ≠ "") (object : Json) :
    (filledPlace given object).namespaceName ≠ "" := by
  unfold filledPlace Stored.text?
  cases (Stored.metadata? object "namespace").bind Json.text? with
  | none => exact h
  | some text => by_cases hempty : text = "" <;> simp [Option.filter_some, hempty, h]

/-- What a seed leaves in an empty store are the objects of registered kinds, each at its place,
and their number is the result. The given namespace stands in for one that is left open or empty
exactly if it is empty itself or no object states an empty one. -/
theorem sow_fills_iff (given : String) (documents : List Json) (stamps : Nat → Stamp)
    (capacity count : Nat) (hdocuments : ∀ document ∈ documents, document.WellFormed)
    (hsow : (sow .builtin given (flatten documents)
      (Hub.ofStore (.ofRegistry .builtin stamps) capacity)).1 = .ok count) :
    let objects := (flatten documents).filter (recognized .builtin)
    let after := (sow .builtin given (flatten documents)
      (Hub.ofStore (.ofRegistry .builtin stamps) capacity)).2.store
    Fills (.ofRegistry .builtin) (place given) objects count after ∧
      (Fills (.ofRegistry .builtin) (filledPlace given) objects count after ↔
        given = "" ∨ ∀ object ∈ objects, ¬ Outside object) := by
  intro objects after
  have hascending : (Store.ofRegistry .builtin stamps).items.Ascending := List.Pairwise.nil
  obtain ⟨rfl, hadds⟩ := adds_of_sow (wellFormed_of_mem_flatten hdocuments)
    (Store.serves_builtin stamps) hascending (Prod.ext hsow rfl)
  have hfills : Fills (.ofRegistry .builtin) (place given) objects objects.length after :=
    hadds.fills rfl
  refine ⟨hfills, fun h => ?_, fun h => hfills.congr fun object hobject =>
    place_eq_filledPlace (h.imp_right fun hinside => hinside object hobject)⟩
  refine or_iff_not_imp_left.mpr fun hgiven object hobject houtside => ?_
  -- The place of such an object is outside of all namespaces, where no filled place is.
  have hmem : place given object ∈ objects.map (filledPlace given) :=
    (hfills.keys.symm.trans h.keys).mem_iff.mp (List.mem_map_of_mem hobject)
  obtain ⟨other, _, heq⟩ := List.mem_map.mp hmem
  refine namespaceName_filledPlace_ne hgiven other ?_
  rw [heq]
  change namespaceOf object given = ""
  rw [namespaceOf_eq, houtside]
  rfl

/-- A config map, an empty document, and a sequence with a guestbook and an object of a kind that
is not registered. -/
def mixedSeed : List Json :=
  [.obj [("apiVersion", .str "v1"), ("kind", .str "ConfigMap"),
      ("metadata", .obj [("name", .str "settings"), ("namespace", .str "apps")])],
    .null,
    .arr [.obj [("apiVersion", .str "samples.dtweave.io/v1"), ("kind", .str "Guestbook"),
        ("metadata", .obj [("name", .str "visitors")])],
      .obj [("apiVersion", .str "example.io/v1"), ("kind", .str "Widget")]]]

theorem sow_fills_mixedSeed :
    (∀ document ∈ mixedSeed, document.WellFormed) ∧
      (sow .builtin "default" (flatten mixedSeed)
        (Hub.ofStore (.ofRegistry .builtin fun _ => Store.stillStamp) 1)).1 = .ok 2 ∧
      Fills (.ofRegistry .builtin) (filledPlace "default")
        ((flatten mixedSeed).filter (recognized .builtin)) 2
        (sow .builtin "default" (flatten mixedSeed)
          (Hub.ofStore (.ofRegistry .builtin fun _ => Store.stillStamp) 1)).2.store := by
  have hwhole : ∀ document ∈ mixedSeed, document.WellFormed := by decide +kernel
  have hsow : (sow .builtin "default" (flatten mixedSeed)
      (Hub.ofStore (.ofRegistry .builtin fun _ => Store.stillStamp) 1)).1 = .ok 2 :=
    eq_ok_of_toOption (by decide +kernel)
  have hinside : ∀ object ∈ (flatten mixedSeed).filter (recognized .builtin),
      ¬ Outside object := by unfold Outside; decide +kernel
  obtain ⟨_, hiff⟩ := sow_fills_iff "default" mixedSeed (fun _ => Store.stillStamp) 1 2 hwhole hsow
  exact ⟨hwhole, hsow, hiff.mpr (.inr hinside)⟩

/-- A config map in an empty namespace. -/
def outsideSeed : List Json :=
  [.obj [("apiVersion", .str "v1"), ("kind", .str "ConfigMap"),
    ("metadata", .obj [("name", .str "settings"), ("namespace", .str "")])]]

/-- The given namespace does not stand in for the empty one: nothing is stored in it. -/
theorem not_fills_outsideSeed :
    (∀ document ∈ outsideSeed, document.WellFormed) ∧
      (sow .builtin "team" (flatten outsideSeed)
        (Hub.ofStore (.ofRegistry .builtin fun _ => Store.stillStamp) 1)).1 = .ok 1 ∧
      ¬ Fills (.ofRegistry .builtin) (filledPlace "team")
        ((flatten outsideSeed).filter (recognized .builtin)) 1
        (sow .builtin "team" (flatten outsideSeed)
          (Hub.ofStore (.ofRegistry .builtin fun _ => Store.stillStamp) 1)).2.store := by
  have hrun : (sow .builtin "team" (flatten outsideSeed)
        (Hub.ofStore (.ofRegistry .builtin fun _ => Store.stillStamp) 1)).1.toOption = some 1 ∧
      (sow .builtin "team" (flatten outsideSeed)
        (Hub.ofStore (.ofRegistry .builtin fun _ => Store.stillStamp) 1)).2.store.items.map
          Prod.fst = [⟨⟨"", "v1", "ConfigMap"⟩, "", "settings"⟩] := by decide +kernel
  obtain ⟨hcount, hkeys⟩ := hrun
  refine ⟨by decide +kernel, eq_ok_of_toOption hcount, fun h => ?_⟩
  have hfilled : ((flatten outsideSeed).filter (recognized .builtin)).map (filledPlace "team") =
      [⟨⟨"", "v1", "ConfigMap"⟩, "team", "settings"⟩] := by decide +kernel
  have hperm := h.keys
  rw [hkeys, hfilled] at hperm
  exact absurd (List.perm_singleton.mp hperm) (by decide)

end Seed

end ClusterObjects
