import ClusterObjects.Json.MergePatch
import ClusterObjects.Scheme
import ClusterObjects.Store.Change

/-! # The store

The store keeps the values of objects by key and counts its writes. Each write
is first admitted, which yields the change it makes or the reason for refusing
it, and then committed, which carries the change out: so a refused write changes
nothing, and the state is determined by the changes committed so far.

Every value stored carries a version: the number of the write that stored it.
An update that states a version is admitted only if it is the version stored,
and the identifier and the creation time of an object stay what they were when
it was created. The identifiers and times that the store gives to new objects
come from outside, one stamp per write.
-/

namespace ClusterObjects

/-- What the surroundings supply for a new object. -/
structure Stamp where
  uid : String
  now : Instant

/-- The stored objects and what is known about their kinds. The revision counts the writes so
far, deletions apart. It is a number without a bound; a counter of 64 bits shows the same for
fewer than 2 ^ 64 writes. -/
structure Store where
  scheme : Scheme
  kinds : List (Gvr × Gvk)
  items : Entries Key Json
  revision : Nat
  stamps : Nat → Stamp

/-- What a store operation did: the store after it, the change it published, and
its result. -/
structure Outcome (α : Type) where
  store : Store
  published : Option Change
  result : Except StoreError α

namespace Store

/-- The empty store that serves the resources of a registry whose kind is known. -/
def ofRegistry (registry : Registry) (stamps : Nat → Stamp) : Store :=
  { scheme := .ofRegistry registry
    kinds := (registry.entries.filterMap fun entry =>
      entry.kind.map fun kind => (entry.gvr, kind)).reverse
    items := []
    revision := 0
    stamps }

/-- The store that also serves another resource. -/
def withKind (store : Store) (gvr : Gvr) (gvk : Gvk) : Store :=
  { store with kinds := (gvr, gvk) :: store.kinds }

def kindFor (store : Store) (gvr : Gvr) : Except StoreError Gvk :=
  match store.kinds.lookup gvr with
  | some gvk => .ok gvk
  | none => .error (.kindNotSupported gvr.text)

/-- The text of the version that the next write gets. -/
def nextVersion (store : Store) : String := String.ofList (Text.decimal (store.revision + 1))

/-- The key of the object that a container holds; it must have a name. -/
def keyOf (object : Container) : Except StoreError Key :=
  if object.name.isEmpty then .error (.invalid "metadata.name is required")
  else .ok (.ofContainer object)

def find (store : Store) (key : Key) : Except StoreError Json :=
  match store.items.get? key with
  | some value => .ok value
  | none => .error (.notFound key.text)

/-- A value with the version of the next write. -/
def setVersion (store : Store) (value : Json) : Json :=
  Stored.setMetadata "resourceVersion" (.str store.nextVersion) value

/-- A new value with an identifier and a creation time, if it states none. -/
def stampNew (store : Store) (value : Json) : Json :=
  let stamp := store.stamps (store.revision + 1)
  let value :=
    if (Stored.text? value "uid").isSome then value
    else Stored.setMetadata "uid" (.str stamp.uid) value
  if (Stored.text? value "creationTimestamp").isSome then value
  else Stored.setMetadata "creationTimestamp" (.str (Rfc3339.write stamp.now)) value

def admitCreate (store : Store) (object : Container) : Except StoreError Change :=
  match keyOf object with
  | .error e => .error e
  | .ok key =>
    if store.items.contains key then .error (.conflict (key.text ++ " already exists"))
    else .ok ⟨key, .added, store.setVersion (store.stampNew object.toJson)⟩

def versionOf (value : Json) : String := (Stored.text? value "resourceVersion").getD ""

/-- The change that replaces an object. A version that the object states must be
the one stored. -/
def admitUpdate (store : Store) (object : Container) : Except StoreError Change :=
  match keyOf object with
  | .error e => .error e
  | .ok key =>
    match store.find key with
    | .error e => .error e
    | .ok stored =>
      let value := object.toJson
      let change : Change :=
        ⟨key, .modified, store.setVersion (Stored.keepServerFields stored value)⟩
      match Stored.text? value "resourceVersion" with
      | none => .ok change
      | some version =>
        if version = versionOf stored then .ok change
        else .error (.conflict (key.text ++ ": resourceVersion " ++ version ++
          " is stale (current " ++ versionOf stored ++ ")"))

def patchDocument (base object : Container) : Json := base.toJson.diff object.toJson

/-- The change that applies the difference between a base and an object to what is
stored under the object's key. A version in that difference must be the one
stored. -/
def admitPatch (store : Store) (base object : Container) : Except StoreError Change :=
  match keyOf object with
  | .error e => .error e
  | .ok key =>
    match store.find key with
    | .error e => .error e
    | .ok stored =>
      let document := patchDocument base object
      let change : Change :=
        ⟨key, .modified,
          store.setVersion (Stored.keepServerFields stored (stored.applyPatch document))⟩
      match (Stored.metadata? document "resourceVersion").bind Json.text? with
      | none => .ok change
      | some version =>
        if version = versionOf stored then .ok change
        else .error (.conflict (key.text ++ ": resourceVersion " ++ version ++ " is stale"))

def admitDelete (store : Store) (object : Container) : Except StoreError Change :=
  match keyOf object with
  | .error e => .error e
  | .ok key =>
    match store.find key with
    | .error e => .error e
    | .ok stored => .ok ⟨key, .deleted, stored⟩

/-- Carry out a change. A deletion takes no version. -/
def commit (store : Store) (change : Change) : Store :=
  match change.type with
  | .deleted => { store with items := store.items.erase change.key }
  | _ =>
    { store with
      items := store.items.insert change.key change.value
      revision := store.revision + 1 }

def loadInto (object : Container) (value : Json) : Except StoreError Container :=
  match object.load value with
  | .ok loaded => .ok loaded
  | .error e => .error (.ofObjectError e)

/-- Carry out an admitted change and give a result that depends on it. -/
def perform {α : Type} (store : Store) (admitted : Except StoreError Change)
    (result : Change → Except StoreError α) : Outcome α :=
  match admitted with
  | .ok change => ⟨store.commit change, some change, result change⟩
  | .error e => ⟨store, none, .error e⟩

def create (store : Store) (object : Container) : Outcome Container :=
  store.perform (store.admitCreate object) fun change => loadInto object change.value

/-- Replace an object; the result is the object as stored. -/
def update (store : Store) (object : Container) : Outcome Container :=
  store.perform (store.admitUpdate object) fun change => loadInto object change.value

/-- Apply the difference between a base and an object; the result is the object as
stored. -/
def patch (store : Store) (base object : Container) : Outcome Container :=
  store.perform (store.admitPatch base object) fun change => loadInto object change.value

def delete (store : Store) (object : Container) : Outcome Unit :=
  store.perform (store.admitDelete object) fun _ => .ok ()

/-- Load the object at a namespace and name into a container of its kind. -/
def get (store : Store) (namespaceName name : String) (object : Container) :
    Except StoreError Container :=
  match store.find ⟨object.gvk, namespaceName, name⟩ with
  | .ok value => loadInto object value
  | .error e => .error e

/-- The values that a selection includes, in key order. -/
def selected (store : Store) (selection : Selection) : List Json :=
  (store.items.filter fun (key, value) => selection.includes key value).map (·.2)

/-- The selection of the elements of a collection under given options. -/
def selectionOf (collection : Collection) (options : ListOptions) :
    Except StoreError Selection :=
  match options.requirements with
  | .ok requirements => .ok ⟨collection.itemGvk, options.namespaceName, requirements⟩
  | .error e => .error e

/-- Fill a collection with the objects that the options select, and with the count of a later
store: a list copies the values first and reads the count after it has loaded them, and others
may write in between. A write counts while it has the values to itself, so a count that is read
in the middle of a write is one that is read after it. -/
def listUntil (store later : Store) (collection : Collection) (options : ListOptions) :
    Except StoreError Collection :=
  match selectionOf collection options with
  | .error e => .error e
  | .ok selection =>
    if (options.fields.filter fun text => !text.isEmpty).isSome then
      .error (.invalid "field selectors are not supported by the memory store")
    else
      match collection.loadAll (store.selected selection) with
      | .error e => .error (.ofObjectError e)
      | .ok items =>
        .ok { collection with
          items
          resourceVersion := some (String.ofList (Text.decimal later.revision)) }

/-- A list during which nothing is written. -/
def list (store : Store) (collection : Collection) (options : ListOptions) :
    Except StoreError Collection :=
  store.listUntil store collection options

/-- An admitted write is committed and published. -/
theorem perform_ok {α : Type} (store : Store) (change : Change)
    (result : Change → Except StoreError α) :
    store.perform (.ok change) result = ⟨store.commit change, some change, result change⟩ := rfl

/-- The value stored at a key after a change. -/
theorem get?_items_commit {store : Store} (h : store.items.Ascending) (change : Change)
    (key : Key) :
    (store.commit change).items.get? key =
      if change.key = key then
        if change.type = .deleted then none else some change.value
      else store.items.get? key := by
  unfold commit
  split
  next hdeleted => rw [Entries.get?_erase h, if_pos hdeleted]
  next hother =>
    have hne : ¬ change.type = .deleted := fun h => hother h
    rw [Entries.get?_insert, if_neg hne]

/-- A change that modifies a value stores the new one. -/
theorem get?_items_commit_of_modified {store : Store} (h : store.items.Ascending)
    {change : Change} (htype : change.type = .modified) :
    (store.commit change).items.get? change.key = some change.value := by
  rw [get?_items_commit h, if_pos rfl, htype, if_neg (by decide)]

/-- A change keeps the keys of the store ascending. -/
theorem ascending_items_commit {store : Store} (h : store.items.Ascending) (change : Change) :
    (store.commit change).items.Ascending := by
  unfold commit
  split
  · exact h.erase change.key
  · exact h.insert change.key change.value

/-- Every change but a deletion takes the next version. -/
theorem revision_commit (store : Store) (change : Change) :
    (store.commit change).revision =
      if change.type = .deleted then store.revision else store.revision + 1 := by
  unfold commit
  split
  next hdeleted => rw [if_pos hdeleted]
  next hother =>
    have hne : ¬ change.type = .deleted := fun h => hother h
    rw [if_neg hne]

end Store

end ClusterObjects
