import ClusterObjects.Proofs.Facade.MergePatch
import ClusterObjects.Proofs.Query.Listing
import ClusterObjects.Proofs.Store.Selected

/-! # Lists through the façade

In every state that requests lead to, a list gives the stored objects of its kind that lie in
the namespace, have the labels and pass the filters, each of them once, in the order of the
query. A namespace in the path and a filter on the namespace come to the same.
-/

namespace ClusterObjects

/-! ## What a list shows -/

/-- What a query requires of labels: what its selector says, and nothing without one. -/
def Query.Requires (query : Query) (requirements : List LabelRequirement) : Prop :=
  match query.labelSelector with
  | none => requirements = []
  | some selector => LabelSelector.parse selector = .ok requirements

/-- A selector that is not empty is parsed. -/
theorem ListOptions.requirements_select {selector : String} (hselector : selector ≠ "")
    (namespaceName : String) :
    ((inNamespace namespaceName).select (some selector)).requirements =
      (LabelSelector.parse selector).mapError fun e => .invalid e.message := by
  have hfilter : (some selector).filter (fun text => !text.isEmpty) = some selector := by
    rw [Option.filter_some, if_pos]
    simpa using hselector
  unfold select requirements
  rw [hfilter]
  dsimp only
  cases LabelSelector.parse selector <;> rfl

theorem LabelSelector.parse_empty : parse "" = .ok [] := rfl

theorem Query.Requires.requirements {query : Query} {requirements : List LabelRequirement}
    (h : query.Requires requirements) (namespaceName : String) :
    ((ListOptions.inNamespace namespaceName).select query.labelSelector).requirements =
      .ok requirements := by
  unfold Requires at h
  cases hselector : query.labelSelector with
  | none =>
    rw [hselector] at h
    exact congrArg Except.ok h.symm
  | some selector =>
    rw [hselector] at h
    by_cases hempty : selector = ""
    · subst hempty
      exact congrArg _ (Except.ok.inj (LabelSelector.parse_empty.symm.trans h))
    · rw [ListOptions.requirements_select hempty]
      exact congrArg (Except.mapError _) h

theorem Query.requirements_of_refused {query : Query} {selector : String} {e : LabelSelectorError}
    (hselector : query.labelSelector = some selector) (he : LabelSelector.parse selector = .error e)
    (namespaceName : String) :
    ((ListOptions.inNamespace namespaceName).select query.labelSelector).requirements =
      .error (.invalid e.message) := by
  have hempty : selector ≠ "" := by
    rintro rfl
    rw [LabelSelector.parse_empty] at he
    contradiction
  rw [hselector, ListOptions.requirements_select hempty, he]
  rfl

namespace Facade

variable {store : Store} {item : Gvk}

theorem emptyLike_elementOf_eq {scheme : Scheme} (hitem : item.SlashFree) :
    (elementOf scheme item).emptyLike = elementOf scheme item := by
  rcases elementOf_cases scheme item with ⟨kind, _, heq⟩ | heq
  · rw [heq]
    rfl
  · rw [heq]
    exact congrArg Container.generic (Gvk.ofApiVersion_apiVersion hitem)

theorem newItem_elementOf {scheme : Scheme} (hitem : item.SlashFree) :
    (Collection.ofPrototype (elementOf scheme item)).newItem = elementOf scheme item := by
  rw [Collection.newItem, Collection.ofPrototype]
  exact emptyLike_elementOf_eq hitem

theorem itemGvk_elementOf {scheme : Scheme} (hitem : item.SlashFree)
    (hscheme : scheme.Identified) :
    (Collection.ofPrototype (elementOf scheme item)).itemGvk = item.toList.toItem := by
  rw [Collection.itemGvk, Collection.gvk, Collection.ofPrototype,
    gvk_elementOf_of_identified hscheme hitem]

/-- Whether a stored value is of a kind, lies in a namespace, or in any if this is empty, and has
the labels required. -/
structure Selects (item : Gvk) (namespaceName : String) (requirements : List LabelRequirement)
    (key : Key) (value : Json) : Prop where
  kind : key.gvk = item
  inside : namespaceName = "" ∨ key.namespaceName = namespaceName
  labels : ∀ requirement ∈ requirements, requirement.isMetBy (Stored.labels value) = true

theorem includes_iff {namespaceName : String} {requirements : List LabelRequirement} {key : Key}
    {value : Json} :
    (Selection.mk item namespaceName requirements).includes key value = true ↔
      Selects item namespaceName requirements key value := by
  have hlabels : (requirements.isEmpty ||
      LabelSelector.selects requirements (Stored.labels value)) = true ↔
      ∀ requirement ∈ requirements, requirement.isMetBy (Stored.labels value) = true := by
    rw [Bool.or_eq_true, List.isEmpty_iff, LabelSelector.selects, List.all_eq_true]
    refine ⟨fun h => ?_, Or.inr⟩
    rcases h with rfl | h
    · exact List.forall_mem_nil _
    · exact h
  rw [Selection.includes, Bool.and_eq_true, Bool.and_eq_true, hlabels, Bool.or_eq_true,
    beq_iff_eq, beq_iff_eq, String.isEmpty_iff]
  exact ⟨fun h => ⟨h.1.1, h.1.2, h.2⟩, fun h => ⟨⟨h.kind, h.inside⟩, h.labels⟩⟩

theorem mem_selected_iff (h : store.items.Ascending) {namespaceName : String}
    {requirements : List LabelRequirement} {value : Json} :
    value ∈ store.selected ⟨item, namespaceName, requirements⟩ ↔
      ∃ key, store.items.get? key = some value ∧
        Selects item namespaceName requirements key value := by
  rw [Store.mem_selected h]
  refine exists_congr fun key => ?_
  rw [Store.shown?_eq_some_iff, includes_iff]

/-- The objects that a store shows of a selection, in the order of their keys. -/
def objectsOf (store : Store) (selection : Selection) : List Container :=
  (store.shown selection).filterMap fun entry =>
    ((elementOf store.scheme selection.gvk).load entry.2).toOption

section

variable (h : Loadable store) {namespaceName : String} {requirements : List LabelRequirement}

include h

/-- What is loaded from under a key of the kind is an object with a name and with that key. -/
theorem Loadable.keyOf_of_load (hitem : item.SlashFree) {key : Key} {value : Json}
    (hvalue : store.items.get? key = some value) (hkind : key.gvk = item) {object : Container}
    (hload : (elementOf store.scheme item).load value = .ok object) :
    Store.keyOf object = .ok key := by
  refine (h.sound.belongs key value hvalue).toDraft.keyOf_of_load
    (lawful_elementOf h.scheme item) ?_ hload
  rw [gvk_elementOf h.scheme hitem, hkind]

theorem Loadable.mem_objectsOf_iff {object : Container} :
    object ∈ objectsOf store ⟨item, namespaceName, requirements⟩ ↔ ∃ key value,
      store.items.get? key = some value ∧ Selects item namespaceName requirements key value ∧
        (elementOf store.scheme item).load value = .ok object := by
  unfold objectsOf Store.shown
  rw [List.mem_filterMap]
  constructor
  · rintro ⟨⟨key, value⟩, hentry, hload⟩
    obtain ⟨hmem, hincludes⟩ := List.mem_filter.mp hentry
    exact ⟨key, value, (Entries.get?_eq_some_iff h.sound.ascending).mpr hmem,
      includes_iff.mp hincludes, eq_ok_of_toOption hload⟩
  · rintro ⟨key, value, hvalue, hselects, hload⟩
    refine ⟨(key, value), List.mem_filter.mpr
      ⟨(Entries.get?_eq_some_iff h.sound.ascending).mp hvalue, includes_iff.mpr hselects⟩, ?_⟩
    rw [hload]
    rfl

/-- The objects shown have names and the kind of the selection. -/
theorem Loadable.isNamed_of_mem (hitem : item.SlashFree) {object : Container}
    (hobject : object ∈ objectsOf store ⟨item, namespaceName, requirements⟩) :
    object.isNamed = true ∧ object.gvk = item := by
  obtain ⟨key, value, hvalue, hselects, hload⟩ := h.mem_objectsOf_iff.mp hobject
  obtain ⟨hname, hkey⟩ :=
    Store.keyOf_eq_ok_iff.mp (h.keyOf_of_load hitem hvalue hselects.kind hload)
  refine ⟨?_, (congrArg Key.gvk hkey).trans hselects.kind⟩
  simpa [Container.isNamed, String.isEmpty_iff] using hname

/-- They are shown in the order of the keys that they are stored under. -/
theorem Loadable.pairwise_objectsOf (hitem : item.SlashFree) :
    (objectsOf store ⟨item, namespaceName, requirements⟩).Pairwise fun x y =>
      compare (Key.ofContainer x) (Key.ofContainer y) = .lt := by
  have hkeys : ∀ entry ∈ store.shown ⟨item, namespaceName, requirements⟩, ∀ object,
      ((elementOf store.scheme item).load entry.2).toOption = some object →
        Key.ofContainer object = entry.1 := by
    rintro ⟨key, value⟩ hentry object hload
    obtain ⟨hmem, hincludes⟩ := List.mem_filter.mp hentry
    have hvalue := (Entries.get?_eq_some_iff h.sound.ascending).mpr hmem
    exact (Store.keyOf_eq_ok_iff.mp (h.keyOf_of_load hitem hvalue (includes_iff.mp hincludes).kind
      (eq_ok_of_toOption hload))).2
  have hascending : (store.shown ⟨item, namespaceName, requirements⟩).Ascending :=
    h.sound.ascending.sublist List.filter_sublist
  refine List.pairwise_filterMap.mpr (hascending.imp_of_mem fun hx hy hlt => ?_)
  intro x hloadX y hloadY
  rw [hkeys _ hx x hloadX, hkeys _ hy y hloadY]
  exact hlt

/-- The objects of a namespace are those of all namespaces that lie in it. -/
theorem Loadable.objectsOf_inNamespace (hitem : item.SlashFree) (hinside : namespaceName ≠ "") :
    objectsOf store ⟨item, namespaceName, requirements⟩ =
      (objectsOf store ⟨item, "", requirements⟩).filter fun object =>
        object.namespaceName == namespaceName := by
  unfold objectsOf Store.shown
  rw [List.filter_filterMap, List.filterMap_filter, List.filterMap_filter]
  refine List.filterMap_congr fun entry hentry => ?_
  obtain ⟨key, value⟩ := entry
  have hvalue := (Entries.get?_eq_some_iff h.sound.ascending).mpr hentry
  have hsplit : (Selection.mk item namespaceName requirements).includes key value =
      ((Selection.mk item "" requirements).includes key value &&
        key.namespaceName == namespaceName) := by
    rw [Bool.eq_iff_iff, Bool.and_eq_true, includes_iff, includes_iff, beq_iff_eq]
    exact ⟨fun h => ⟨⟨h.kind, Or.inl rfl, h.labels⟩, h.inside.resolve_left hinside⟩,
      fun h => ⟨h.1.kind, Or.inr h.2, h.1.labels⟩⟩
  dsimp only
  rw [hsplit]
  cases hall : (Selection.mk item "" requirements).includes key value with
  | false => rfl
  | true =>
    rw [Bool.true_and, if_pos rfl]
    cases hload : ((elementOf store.scheme item).load value).toOption with
    | none => exact ite_self none
    | some object =>
      have hkey := h.keyOf_of_load hitem hvalue (includes_iff.mp hall).kind
        (eq_ok_of_toOption hload)
      have hsame : object.namespaceName = key.namespaceName :=
        congrArg Key.namespaceName (Store.keyOf_eq_ok_iff.mp hkey).2
      rw [Option.filter_some, hsame]

end

/-! ## What a list request gives -/

/-- What a list of a resource gives. -/
def listed (store : Store) (gvr : Gvr) (namespaceName : String) (query : Query) :
    Except ApiError (Listing Container) := do
  let container ← containerFor store gvr
  let collection ← refusedByStore (store.list (.ofPrototype container)
    ((ListOptions.inNamespace namespaceName).select query.labelSelector))
  return listObjects collection.items query

theorem collectionFor_apply (gvr : Gvr) (hub : Hub) :
    collectionFor gvr hub = ((containerFor hub.store gvr).map .ofPrototype, hub) := by
  have hkind : (kindOf gvr : FacadeM Hub Gvk) hub =
    (refusedByStore (hub.store.kindFor gvr), hub) := rfl
  unfold collectionFor containerFor
  rw [bind_apply, hkind]
  cases hub.store.kindFor gvr <;> rfl

theorem list_apply (gvr : Gvr) (namespaceName : String) (query : Query) (hub : Hub) :
    list gvr namespaceName query hub = (listed hub.store gvr namespaceName query, hub) := by
  have hask : ∀ collection options, (ask (ObjectStore.list collection options) :
      FacadeM Hub Collection) hub = (refusedByStore (hub.store.list collection options), hub) :=
    fun _ _ => rfl
  unfold list listed
  rw [bind_apply, collectionFor_apply]
  cases containerFor hub.store gvr with
  | error e => rfl
  | ok container =>
    dsimp only [Except.map]
    rw [bind_apply, hask]
    change _ = (refusedByStore (hub.store.list (.ofPrototype container) _) >>= _, hub)
    cases refusedByStore (hub.store.list (.ofPrototype container)
      ((ListOptions.inNamespace namespaceName).select query.labelSelector)) <;> rfl

section

variable {gvr : Gvr} {gvk : Gvk} (hgvk : store.kindFor gvr = .ok gvk) {namespaceName : String}
  {query : Query}

include hgvk

theorem containerFor_of_kindFor :
    containerFor store gvr = .ok (elementOf store.scheme gvk.toItem) := by
  rw [containerFor, hgvk]

/-- A list loads what is stored of the kind that its collection names, in containers of the kind
of the resource. -/
theorem listed_of_selects (hscheme : store.scheme.Lawful) (hitem : gvk.toItem.SlashFree)
    {requirements : List LabelRequirement}
    (hrequirements : ((ListOptions.inNamespace namespaceName).select
      query.labelSelector).requirements = .ok requirements) :
    listed store gvr namespaceName query =
      match (Collection.ofPrototype (elementOf store.scheme gvk.toItem)).loadAll
          (store.selected ⟨gvk.toItem.toList.toItem, namespaceName, requirements⟩) with
      | .error e => .error (.ofStoreError (.ofObjectError e))
      | .ok items => .ok (listObjects items query) := by
  have hselection : Store.selectionOf (.ofPrototype (elementOf store.scheme gvk.toItem))
      ((ListOptions.inNamespace namespaceName).select query.labelSelector) =
        .ok ⟨gvk.toItem.toList.toItem, namespaceName, requirements⟩ := by
    rw [Store.selectionOf, hrequirements, itemGvk_elementOf hitem hscheme.identified]
    rfl
  unfold listed
  rw [containerFor_of_kindFor hgvk]
  change (refusedByStore (store.list _ _) >>= _) = _
  rw [Store.list, Store.listUntil, hselection]
  dsimp only
  rw [if_neg (by exact Bool.false_ne_true)]
  cases (Collection.ofPrototype (elementOf store.scheme gvk.toItem)).loadAll
    (store.selected ⟨gvk.toItem.toList.toItem, namespaceName, requirements⟩) <;> rfl

/-- If the collection names the kind of the resource, the list gives the objects that the store
shows of it. -/
theorem Loadable.listed_eq (h : Loadable store)
    (hself : gvk.toItem.toList.toItem = gvk.toItem) {requirements : List LabelRequirement}
    (hrequirements : ((ListOptions.inNamespace namespaceName).select
      query.labelSelector).requirements = .ok requirements) :
    listed store gvr namespaceName query =
      .ok (listObjects (objectsOf store ⟨gvk.toItem, namespaceName, requirements⟩) query) := by
  have hitem := (h.kinds gvr gvk hgvk).toItem
  have hnewItem := @newItem_elementOf gvk.toItem store.scheme hitem
  have hload : (Collection.ofPrototype (elementOf store.scheme gvk.toItem)).loadAll
      (store.selected ⟨gvk.toItem, namespaceName, requirements⟩) =
        .ok (objectsOf store ⟨gvk.toItem, namespaceName, requirements⟩) := by
    rw [Collection.loadAll_eq_ok, hnewItem, Store.selected_eq, List.filterMap_map]
    · rfl
    · intro value hvalue
      obtain ⟨key, hstored, hselects⟩ := (mem_selected_iff h.sound.ascending).mp hvalue
      rw [hnewItem, Container.exists_load_iff (lawful_elementOf h.scheme _)
        (h.sound.belongs key value hstored).whole]
      exact hselects.kind ▸ h.accepts key value hstored
  rw [listed_of_selects hgvk h.scheme hitem hrequirements, hself, hload]

/-- A list whose selector cannot be read is refused for that reason. -/
theorem listed_of_refused {e : StoreError}
    (hrequirements : ((ListOptions.inNamespace namespaceName).select
      query.labelSelector).requirements = .error e) :
    listed store gvr namespaceName query = .error (.ofStoreError e) := by
  unfold listed
  rw [containerFor_of_kindFor hgvk]
  change (refusedByStore (store.list _ _) >>= _) = _
  rw [Store.list, Store.listUntil, Store.selectionOf, hrequirements]
  rfl

end

/-! ## Lists are exact and ordered -/

/-- The object passes every filter of the query. -/
def Passes (query : Query) (object : Container) : Prop :=
  ∀ filter ∈ query.filters,
    Filter.accepts (Filter.selectorOf query) object filter.1 filter.2 = true

/-- A listing of the stored values of a kind that lie in a namespace, have the labels required
and pass the filters: each of them is loaded as an object that is listed, nothing else is
listed and nothing twice, and the objects come in the order of the query. -/
structure Lists (store : Store) (item : Gvk) (namespaceName : String) (query : Query)
    (requirements : List LabelRequirement) (listing : Listing Container) : Prop where
  total : listing.total = listing.items.length
  complete : ∀ key value, store.items.get? key = some value →
    Selects item namespaceName requirements key value →
    ∃ object, (elementOf store.scheme item).load value = .ok object ∧
      Key.ofContainer object = key ∧ (object ∈ listing.items ↔ Passes query object)
  stored : ∀ object ∈ listing.items, ∃ value,
    store.items.get? (.ofContainer object) = some value ∧
      Selects item namespaceName requirements (.ofContainer object) value ∧
      (elementOf store.scheme item).load value = .ok object
  once : (listing.items.map Key.ofContainer).Nodup
  ordered : listing.items.Pairwise query.Before

/-- Of two keys of one kind and one name the smaller one has the smaller namespace. -/
theorem namespaceName_lt_of_compare {left right : Key} (hgvk : left.gvk = right.gvk)
    (hname : left.name = right.name) (h : compare left right = .lt) :
    left.namespaceName < right.namespaceName := by
  change (compare left.gvk right.gvk).then
    ((compare left.namespaceName right.namespaceName).then (compare left.name right.name)) = .lt
    at h
  have hsameGvk : compare left.gvk right.gvk = .eq := hgvk ▸ Std.ReflCmp.compare_self
  have hsameName : compare left.name right.name = .eq := hname ▸ Std.ReflCmp.compare_self
  rw [hsameGvk, hsameName, Ordering.then_eq] at h
  exact compare_lt_iff_lt.mp h

theorem Loadable.lists (h : Loadable store) (hitem : item.SlashFree) {namespaceName : String}
    {query : Query} (hpage : query.page = none) {requirements : List LabelRequirement} :
    Lists store item namespaceName query requirements
      (listObjects (objectsOf store ⟨item, namespaceName, requirements⟩) query) := by
  have hperm := @perm_listObjects query (objectsOf store ⟨item, namespaceName, requirements⟩) hpage
  have hpairwise := @Loadable.pairwise_objectsOf store item h namespaceName requirements hitem
  refine ⟨(listObjects_eq hpage).2, ?_, ?_, ?_, ?_⟩
  · intro key value hvalue hselects
    obtain ⟨object, hload⟩ := (Container.exists_load_iff (lawful_elementOf h.scheme item)
      (h.sound.belongs key value hvalue).whole).mpr (hselects.kind ▸ h.accepts key value hvalue)
    have hkey := h.keyOf_of_load hitem hvalue hselects.kind hload
    refine ⟨object, hload, (Store.keyOf_eq_ok_iff.mp hkey).2, ?_⟩
    have hshown := h.mem_objectsOf_iff.mpr ⟨key, value, hvalue, hselects, hload⟩
    rw [hperm.mem_iff, mem_chosen_iff]
    exact ⟨fun hobject => hobject.2.2,
      fun hpasses => ⟨hshown, (h.isNamed_of_mem hitem hshown).1, hpasses⟩⟩
  · intro object hobject
    have hshown := (chosen_sublist query _).subset (hperm.mem_iff.mp hobject)
    obtain ⟨key, value, hvalue, hselects, hload⟩ := h.mem_objectsOf_iff.mp hshown
    have hkey := (Store.keyOf_eq_ok_iff.mp (h.keyOf_of_load hitem hvalue hselects.kind hload)).2
    rw [hkey]
    exact ⟨value, hvalue, hselects, hload⟩
  · have hdistinct : ((query.chosen
        (objectsOf store ⟨item, namespaceName, requirements⟩)).map Key.ofContainer).Nodup := by
      refine List.pairwise_map.mpr ((hpairwise.sublist (chosen_sublist query _)).imp ?_)
      intro x y hlt heq
      have hsame : compare (Key.ofContainer x) (Key.ofContainer y) = .eq :=
        heq ▸ Std.ReflCmp.compare_self
      rw [hsame] at hlt
      contradiction
    exact (hperm.map Key.ofContainer).nodup_iff.mpr hdistinct
  · refine pairwise_listObjects hpage (hpairwise.imp_of_mem fun hx hy hlt hname => ?_)
    refine namespaceName_lt_of_compare ?_ hname hlt
    exact (h.isNamed_of_mem hitem hx).2.trans (h.isNamed_of_mem hitem hy).2.symm

/-- In every state that requests lead to, and for every resource whose kind has a name that does
not end like that of a collection, a list succeeds and gives exactly the stored objects that are
asked for, each once and in the order of the query. A list of a namespace is the list of all
namespaces with one more filter, if the query has none on the namespace yet. -/
theorem list_exact {start : Store} (hstart : start.Fresh) (hscheme : start.scheme.Lawful)
    (hkinds : start.SlashFree) {hub : Hub} (hserved : Served (fun _ _ => True) start hub.store)
    {gvr : Gvr} {gvk : Gvk} (hgvk : hub.store.kindFor gvr = .ok gvk) (hnamed : gvk.kind ≠ "")
    (hlist : gvk.isList = false) :
    (∀ (namespaceName : String) (query : Query) (requirements : List LabelRequirement),
      query.page = none → query.Requires requirements →
      ∃ listing, list gvr namespaceName query hub = (.ok listing, hub) ∧
        Lists hub.store gvk namespaceName query requirements listing) ∧
    ∀ (namespaceName : String) (query : Query), namespaceName ≠ "" →
      query.filters.get? .namespaceName = none →
      list gvr namespaceName query hub =
        list gvr "" (query.filter .namespaceName namespaceName) hub := by
  have hloadable := loadable_of_served hstart hscheme hkinds hserved
  have hself := Gvk.toItem_of_not_isList hlist
  have hslash : gvk.SlashFree := hloadable.kinds gvr gvk hgvk
  have hlisted : ∀ {namespaceName : String} {query : Query} {requirements},
      ((ListOptions.inNamespace namespaceName).select query.labelSelector).requirements =
        .ok requirements →
      listed hub.store gvr namespaceName query =
        .ok (listObjects (objectsOf hub.store ⟨gvk, namespaceName, requirements⟩) query) := by
    intro namespaceName query requirements hrequirements
    have hcollection : gvk.toItem.toList.toItem = gvk.toItem := by
      rw [hself, Gvk.toItem_toList_of_not_isList hnamed hlist]
    have heq := hloadable.listed_eq hgvk hcollection hrequirements
    rwa [hself] at heq
  constructor
  · intro namespaceName query requirements hpage hrequires
    refine ⟨_, ?_, hloadable.lists hslash hpage⟩
    rw [list_apply, hlisted (hrequires.requirements namespaceName)]
  · intro namespaceName query hinside hfree
    rw [list_apply, list_apply]
    refine congrArg (·, hub) ?_
    -- The selector is the same in both, and so is what becomes of it.
    have hsame : ((ListOptions.inNamespace "").select
        (query.filter .namespaceName namespaceName).labelSelector).requirements =
      ((ListOptions.inNamespace namespaceName).select query.labelSelector).requirements := rfl
    cases hrequirements : ((ListOptions.inNamespace namespaceName).select
        query.labelSelector).requirements with
    | error e =>
      rw [listed_of_refused hgvk hrequirements,
        listed_of_refused hgvk (hsame.trans hrequirements)]
    | ok requirements =>
      rw [hlisted hrequirements, hlisted (hsame.trans hrequirements),
        hloadable.objectsOf_inNamespace hslash hinside, listObjects_filter_namespace hfree]

/-- Pods of one name are created in two namespaces at one instant. -/
def paired : List Request :=
  [.create pods "b" (pod [("name", .str "n")] []), .create pods "a" (pod [("name", .str "n")] [])]

/-- They are listed by their namespaces. -/
theorem list_exact_paired : ∃ listing,
    list pods "" .all (served paired) = (.ok listing, served paired) ∧
    Lists (served paired).store ⟨"", "v1", "Pod"⟩ "" .all [] listing ∧
    listing.items.map Container.namespaceName = ["a", "b"] := by
  have hrequests : ∀ request ∈ paired, request.WellFormed := by
    refine List.forall_mem_cons.mpr ⟨?_, List.forall_mem_singleton.mpr ?_⟩
    all_goals
      change (pod _ _).WellFormed
      decide
  have hserved := served_served hrequests
  have hkind : (served paired).store.kindFor pods = .ok ⟨"", "v1", "Pod"⟩ :=
    (kindFor_of_served hserved pods).trans kindFor_pods
  obtain ⟨hexact, _⟩ := list_exact Store.fresh_builtin
    (Scheme.lawful_ofRegistry Registry.lawful_builtin) Store.slashFree_builtin hserved hkind
    (by decide) (by decide)
  obtain ⟨listing, hlisted, hlists⟩ := hexact "" .all [] rfl rfl
  have hnamespaces : (list pods "" .all (served paired)).1.toOption.map
      (fun listing => listing.items.map Container.namespaceName) = some ["a", "b"] := by
    decide +kernel
  rw [hlisted] at hnamespaces
  exact ⟨listing, hlisted, hlists, Option.some.inj hnamespaces⟩

end Facade

end ClusterObjects
