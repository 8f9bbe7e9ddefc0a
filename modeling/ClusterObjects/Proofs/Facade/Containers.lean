import ClusterObjects.Proofs.Facade.Listing

/-! # Containers of resources

A resource is served in containers of one kind: of its own, or of the elements if its kind is
that of a collection. Whatever has been registered, the container states this kind, a body that
states it is taken, and what is created is stored under it. Typed containers are given out where
the scheme has a shape for the kind. A list looks under the kind that it recovers from the kind
of the collection, which is the same if the elements are not named like a collection once more.
-/

namespace ClusterObjects

/-! ## Stores that serve more than a registry -/

namespace Store

/-- The store that serves the resources of a registry and some others. -/
def serving (registry : Registry) (others : List (Gvr × Gvk)) (stamps : Nat → Stamp) : Store :=
  others.foldl (fun store (gvr, gvk) => store.withKind gvr gvk) (.ofRegistry registry stamps)

/-- To serve another resource changes neither the scheme nor what is stored. -/
theorem scheme_serving (registry : Registry) (others : List (Gvr × Gvk)) (stamps : Nat → Stamp) :
    (serving registry others stamps).scheme = .ofRegistry registry ∧
      (serving registry others stamps).items = [] := by
  unfold serving
  suffices h : ∀ store : Store,
      (others.foldl (fun store (gvr, gvk) => store.withKind gvr gvk) store).scheme =
          store.scheme ∧
        (others.foldl (fun store (gvr, gvk) => store.withKind gvr gvk) store).items =
          store.items from h _
  induction others with
  | nil => exact fun _ => ⟨rfl, rfl⟩
  | cons other rest ih => exact fun store => ih (store.withKind other.1 other.2)

end Store

namespace Facade

variable {scheme : Scheme} {item : Gvk}

/-! ## What the containers are -/

/-- A container is typed if and only if the kind is recognized and not that of a collection. -/
theorem isTyped_elementOf :
    (elementOf scheme item).isTyped = true ↔
      item.isList = false ∧ scheme.recognizes item = true := by
  unfold elementOf Scheme.newObject
  cases hlist : item.isList with
  | true => exact iff_of_false Bool.false_ne_true nofun
  | false =>
    unfold Scheme.recognizes Entries.contains
    rw [Gvk.toItem_of_not_isList hlist]
    cases scheme.kinds.get? item with
    | none => exact iff_of_false Bool.false_ne_true nofun
    | some kind => exact iff_of_true rfl ⟨rfl, rfl⟩

/-- The containers of a resource: the one for an object and the items of the one for a list have
a kind, and a body that states it is refused for nothing but its members. -/
structure Materializes (hub : Hub) (gvr : Gvr) (item : Gvk) (container : Container)
    (collection : Collection) : Prop where
  objectFor_eq : objectFor gvr hub = (.ok container, hub)
  collectionFor_eq : collectionFor gvr hub = (.ok collection, hub)
  kind : container.gvk = item
  newItem : collection.newItem.gvk = item
  accepts : ∀ body e, body.textAt? "apiVersion" = some item.apiVersion →
    body.textAt? "kind" = some item.kind → container.load body = .error e →
    ∃ reason, e = .decode reason

/-- A value has been stored under a kind, where there was none, and a collection looks for it:
all options that it meets select it. -/
structure Gains (before after : Store) (item : Gvk) (collection : Collection) (key : Key)
    (value : Json) : Prop where
  kind : key.gvk = item
  new : before.items.get? key = none
  stored : after.items.get? key = some value
  found : ∀ options selection, Store.selectionOf collection options = .ok selection →
    (selection.namespaceName = "" ∨ key.namespaceName = selection.namespaceName) →
    (∀ requirement ∈ selection.requirements, requirement.isMetBy (Stored.labels value) = true) →
    value ∈ after.selected selection

/-- A collection names the kind of its elements, and what is created for the resource is stored
under this kind, where the collection looks for it, unless nothing is stored. -/
structure Meets (hub : Hub) (gvr : Gvr) (item : Gvk) (collection : Collection) : Prop where
  itemGvk : collection.itemGvk = item
  create : ∀ namespaceName body, (∃ e, create gvr namespaceName body hub = (.error e, hub)) ∨
    ∃ key value, Gains hub.store (create gvr namespaceName body hub).2.store item collection key
      value

theorem materializes_elementOf {hub : Hub} (hscheme : hub.store.scheme.Identified) {gvr : Gvr}
    {gvk : Gvk} (hgvk : hub.store.kindFor gvr = .ok gvk) (hitem : gvk.toItem.SlashFree) :
    Materializes hub gvr gvk.toItem (elementOf hub.store.scheme gvk.toItem)
      (.ofPrototype (elementOf hub.store.scheme gvk.toItem)) := by
  have hkind := gvk_elementOf_of_identified hscheme hitem
  constructor
  · rw [objectFor_apply, containerFor_of_kindFor hgvk]
  · rw [collectionFor_apply, containerFor_of_kindFor hgvk]
    rfl
  · exact hkind
  · rw [newItem_elementOf hitem]
    exact hkind
  · intro body e hversion hname hload
    rw [← hkind] at hversion hname
    have hobject : body.isObject = true := by
      cases body with
      | obj fields => rfl
      | _ => contradiction
    exact Container.exists_decode_of_load_eq_error hobject
      (Container.statesKind_of_textAt? hversion hname) hload

/-! ## What is created -/

/-- What a body describes has the kind of the container that it is read into. -/
theorem gvk_of_described {store : Store} (hscheme : store.scheme.Identified) {gvr : Gvr}
    {gvk : Gvk} (hgvk : store.kindFor gvr = .ok gvk) (hitem : gvk.toItem.SlashFree)
    {namespaceName : String} {name : Option String} {body : Json} {object : Container}
    (h : described store gvr namespaceName name body = .ok object) : object.gvk = gvk.toItem := by
  obtain ⟨container, loaded, hcontainer, hload, hreconciled⟩ := described_eq_ok_iff.mp h
  rw [containerFor_of_kindFor hgvk] at hcontainer
  obtain rfl := Except.ok.inj hcontainer
  rw [Container.gvk_eq_of_representation (hreconciled.representation.trans
    (Container.representation_of_load hload)), emptyLike_elementOf_eq hitem]
  exact gvk_elementOf_of_identified hscheme hitem

/-- A creation that is admitted stores a value where collections of its kind look for it. -/
theorem exists_gains_of_admitCreate {store : Store} (hascending : store.items.Ascending)
    {object : Container} (hobject : object.gvk = item) {collection : Collection}
    (hcollection : collection.itemGvk = item) {change : Change}
    (hadmits : store.admitCreate object = .ok change) :
    ∃ key value, Gains store (store.commit change) item collection key value := by
  obtain ⟨key, hkey, hnew, rfl⟩ := Store.admitCreate_eq_ok hadmits
  have hkind : key.gvk = item := by
    rw [← (Store.keyOf_eq_ok_iff.mp hkey).2]
    exact hobject
  have hadded : EventType.added ≠ .deleted := by decide
  have hstored : (store.commit ⟨key, .added, store.setVersion
      (store.stampNew object.toJson)⟩).items.get? key =
        some (store.setVersion (store.stampNew object.toJson)) := by
    rw [Store.get?_items_commit hascending, if_pos rfl, if_neg hadded]
  refine ⟨key, _, hkind, hnew, hstored, fun options selection hselection hinside hlabels => ?_⟩
  have hlooks := (Store.gvk_of_selectionOf hselection).trans hcollection
  exact (mem_selected_iff (Store.ascending_items_commit hascending _)).mpr
    ⟨key, hstored, hkind.trans hlooks.symm, hinside, hlabels⟩

theorem meets_ofPrototype {hub : Hub} (hscheme : hub.store.scheme.Identified)
    (hascending : hub.store.items.Ascending) {gvr : Gvr} {gvk : Gvk}
    (hgvk : hub.store.kindFor gvr = .ok gvk) (hitem : gvk.toItem.SlashFree)
    (hself : gvk.toItem.toList.toItem = gvk.toItem) :
    Meets hub gvr gvk.toItem (.ofPrototype (elementOf hub.store.scheme gvk.toItem)) := by
  have hcollection : (Collection.ofPrototype (elementOf hub.store.scheme gvk.toItem)).itemGvk =
      gvk.toItem := by
    rw [itemGvk_elementOf hitem hscheme, hself]
  refine ⟨hcollection, fun namespaceName body => ?_⟩
  rw [create_apply]
  cases hobject : described hub.store gvr namespaceName none body with
  | error e => exact Or.inl ⟨e, rfl⟩
  | ok object =>
    dsimp only
    rw [Store.create]
    cases hadmits : hub.store.admitCreate object with
    | error e => exact Or.inl ⟨.ofStoreError e, rfl⟩
    | ok change =>
      rw [Hub.store_absorb, Store.perform_ok]
      exact Or.inr (exists_gains_of_admitCreate hascending
        (gvk_of_described hscheme hgvk hitem hobject) hcollection hadmits)

/-- However a store came about, and whatever has been written to it, a resource whose kind can
be read back from its text is served in containers of the kind of its elements: the kind itself,
without the ending of a collection if there is something in front of it. Unless these are named
like a collection in turn, the container is typed where the kind is recognized, and lists look
where created objects are stored. -/
theorem exists_materializes {additions : List Registry.Addition} {others : List (Gvr × Gvk)}
    {stamps : Nat → Stamp} {writes : List Write} {hub : Hub}
    (hstore : hub.store = (Store.serving (.ofAdditions additions) others stamps).after writes)
    {gvr : Gvr} {gvk : Gvk} (hgvk : hub.store.kindFor gvr = .ok gvk) (hslash : gvk.SlashFree)
    (hnamed : gvk.kind ≠ "") :
    (gvk.isList = false ∨ gvk.kind = "List" → gvk.toItem = gvk) ∧
      (∀ stem, stem ≠ "" → gvk.kind = stem ++ "List" → gvk.toItem = { gvk with kind := stem }) ∧
      ∃ container collection, Materializes hub gvr gvk.toItem container collection ∧
        (container.isTyped = true ↔
          gvk.toItem.isList = false ∧ hub.store.scheme.recognizes gvk = true) ∧
        (gvk.toItem.isList = false ∨ gvk.toItem.kind = "List" →
          Meets hub gvr gvk.toItem collection) := by
  obtain ⟨hsame, hempty⟩ := Store.scheme_serving (.ofAdditions additions) others stamps
  have hscheme : hub.store.scheme.Identified := by
    rw [hstore, Store.scheme_after, hsame]
    exact Scheme.identified_ofRegistry (Registry.identified_ofAdditions additions)
  have hascending : hub.store.items.Ascending := by
    rw [hstore]
    refine Store.ascending_items_after ?_ writes
    rw [hempty]
    exact List.Pairwise.nil
  refine ⟨fun h => ?_, fun stem => Gvk.toItem_of_kind_eq_append, _, _,
    materializes_elementOf hscheme hgvk hslash.toItem, ?_, fun h => ?_⟩
  · rcases h with hlist | hending
    · exact Gvk.toItem_of_not_isList hlist
    · exact Gvk.toItem_of_kind_eq_list hending
  · rw [isTyped_elementOf]
    refine and_congr_right fun hlist => ?_
    unfold Scheme.recognizes
    rw [Gvk.toItem_of_not_isList hlist]
  · refine meets_ofPrototype hscheme hascending hgvk hslash.toItem ?_
    rcases h with hlist | hending
    · exact Gvk.toItem_toList_of_not_isList (Gvk.kind_toItem_ne_empty hnamed) hlist
    · exact Gvk.toItem_toList_of_kind_eq_list hending

/-! ## A resource of a collection -/

/-- The lists of pods as a resource of their own. -/
def podLists : Gvr := ⟨"", "v1", "podlists"⟩

/-- The store that serves them besides the resources that the program starts with. -/
def withPodLists : Hub :=
  .ofStore (.serving .builtin [(podLists, ⟨"", "v1", "PodList"⟩)] fun _ => Store.stillStamp) 1

/-- A pod that states its kind. -/
def statedPod : Json :=
  .obj [("apiVersion", .str "v1"), ("kind", .str "Pod"), ("metadata", .obj [("name", .str "n")])]

theorem exists_materializes_podLists :
    withPodLists.store.kindFor podLists = .ok ⟨"", "v1", "PodList"⟩ ∧
      ∃ container collection,
        Materializes withPodLists podLists ⟨"", "v1", "Pod"⟩ container collection ∧
          container.isTyped = true ∧
          Meets withPodLists podLists ⟨"", "v1", "Pod"⟩ collection ∧
          (create podLists "b" statedPod withPodLists).1.toOption.map Container.name =
            some "n" := by
  have hkind : withPodLists.store.kindFor podLists = .ok ⟨"", "v1", "PodList"⟩ := rfl
  have hstore : withPodLists.store = (Store.serving (.ofAdditions Registry.builtinAdditions)
      [(podLists, ⟨"", "v1", "PodList"⟩)] fun _ => Store.stillStamp).after [] := by
    rw [← Registry.builtin_eq_ofAdditions]
    rfl
  obtain ⟨_, hstem, container, collection, hmaterializes, htyped, hmeets⟩ :=
    exists_materializes hstore hkind (by decide) (by decide)
  rw [hstem "Pod" (by decide) (by decide)] at hmaterializes htyped hmeets
  exact ⟨hkind, container, collection, hmaterializes, htyped.mpr ⟨by decide, by decide +kernel⟩,
    hmeets (Or.inl (by decide)), by decide +kernel⟩

/-- The containers are those of pods, not of lists of pods. -/
theorem not_materializes_podLists :
    withPodLists.store.kindFor podLists = .ok ⟨"", "v1", "PodList"⟩ ∧
      Gvk.SlashFree ⟨"", "v1", "PodList"⟩ ∧
      ¬ ∃ container collection,
        Materializes withPodLists podLists ⟨"", "v1", "PodList"⟩ container collection := by
  refine ⟨rfl, by decide, fun ⟨container, collection, h⟩ => ?_⟩
  have hcontainer : containerFor withPodLists.store podLists = .ok container :=
    congrArg Prod.fst ((objectFor_apply podLists withPodLists).symm.trans h.objectFor_eq)
  have hpod : (containerFor withPodLists.store podLists).toOption.map Container.gvk =
      some ⟨"", "v1", "Pod"⟩ := by decide +kernel
  rw [hcontainer] at hpod
  exact absurd (h.kind.symm.trans (Option.some.inj hpod)) (by decide)

end Facade

end ClusterObjects
