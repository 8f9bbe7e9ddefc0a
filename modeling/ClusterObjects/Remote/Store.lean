import ClusterObjects.Remote.Client
import ClusterObjects.Store.Interface
import ClusterObjects.Store.Memory

/-! # The store of a cluster

The operations of a store as requests to a cluster. Before the request proper, a
kind or a resource that is not known is discovered; and what a writing request
brings back is loaded into the container that it was made with.
-/

namespace ClusterObjects

namespace Remote

/-- An exchange about something as a store operation. -/
def about {α : Type} (what : String) (exchange : RemoteM α) : StoreM Remote α := fun remote =>
  match exchange remote with
  | (.ok result, remote) => (.ok result, remote)
  | (.error fault, remote) => (.error (fault.toStoreError what), remote)

def discovery (group version : String) : StoreM Remote Unit := fun remote =>
  match discover group version remote with
  | (.ok (), remote) => (.ok (), remote)
  | (.error fault, remote) => (.error (.backend fault.message), remote)

/-- Look something up, discovering a version of an API group if it is not known;
otherwise the text at fault is not supported. -/
def resolve {α : Type} (group version text : String) (find : Mapping → Option α) :
    StoreM Remote α := do
  match find (← get).mapping with
  | some found => return found
  | none =>
    discovery group version
    match find (← get).mapping with
    | some found => return found
    | none => throw (.kindNotSupported text)

def kindFor (gvr : Gvr) : StoreM Remote Gvk :=
  resolve gvr.group gvr.version gvr.text fun mapping => mapping.kind? gvr

/-- The path under which the objects of a kind are served in a namespace. -/
def pathOf (gvk : Gvk) (namespaceName : String) : StoreM Remote String := do
  let resource ← resolve gvk.group gvk.version gvk.text fun mapping => mapping.resource? gvk
  return resource.path namespaceName

/-- The path of a named object among those served under a path. -/
def objectPath (path name : String) : Except RemoteFault String :=
  if name.isEmpty then .error .namelessPath else .ok (path ++ "/" ++ name)

/-- A request about a named object among those served under a path. -/
def callNamed {α : Type} (path name : String) (request : String → HttpRequest)
    (decode : Json → Except DecodeError α) : RemoteM α :=
  match objectPath path name with
  | .ok path => call (request path) decode
  | .error fault => throw fault

/-- Load what a request brought back. -/
def refresh (object : Container) (value : Json) : StoreM Remote Container := fun remote =>
  (Store.loadInto object value, remote)

def fetch (namespaceName name : String) (object : Container) : StoreM Remote Container := do
  let path ← pathOf object.gvk namespaceName
  let found ← about name (callNamed path name (.read · []) Payload.decodeObject)
  refresh object found

/-- The selectors of a list or a watch as they are sent. -/
def selectors (options : ListOptions) : Entries String String :=
  (options.fields.toList.map fun text => ("fieldSelector", text)) ++
    options.labels.toList.map fun text => ("labelSelector", text)

def fill (collection : Collection) (options : ListOptions) : StoreM Remote Collection := do
  let gvk := collection.itemGvk
  let path ← pathOf gvk options.namespaceName
  let found ← about gvk.kind (call (.read path (selectors options)) Payload.decodeList)
  match collection.loadAll found.items with
  | .ok items => return { collection with items, resourceVersion := found.resourceVersion }
  | .error e => throw (.ofObjectError e)

/-- The content type of a whole object. -/
def objectType : String := "application/json"

def patchType : String := "application/merge-patch+json"

def create (object : Container) : StoreM Remote Container := do
  let path ← pathOf object.gvk object.namespaceName
  let created ← about object.name
    (call ⟨.post, path, [], some objectType, some object.toJson⟩ Payload.decodeObject)
  refresh object created

def replace (object : Container) : StoreM Remote Container := do
  let path ← pathOf object.gvk object.namespaceName
  let replaced ← about object.name (callNamed path object.name
    (⟨.put, ·, [], some objectType, some object.toJson⟩) Payload.decodeObject)
  refresh object replaced

/-- Apply the difference between a base and an object. -/
def patch (base object : Container) : StoreM Remote Container := do
  let document := Store.patchDocument base object
  let path ← pathOf object.gvk object.namespaceName
  let patched ← about object.name (callNamed path object.name
    (⟨.patch, ·, [], some patchType, some document⟩) Payload.decodeObject)
  refresh object patched

/-- What comes back from a deletion: a status or the object. -/
def decodeDeletion (value : Json) : Except DecodeError Unit :=
  if value.textAt? "kind" = some "Status" then .ok ()
  else (Payload.decodeObject value).map fun _ => ()

def remove (object : Container) : StoreM Remote Unit := do
  let path ← pathOf object.gvk object.namespaceName
  about object.name (callNamed path object.name
    (⟨.delete, ·, [], some objectType, some (.obj [])⟩) decodeDeletion)

def watchQuery (options : ListOptions) : Entries String String :=
  ("allowWatchBookmarks", "true") :: selectors options ++
    [("resourceVersion", "0"), ("timeoutSeconds", "290"), ("watch", "true")]

/-- Open a watch. The status of the response is not looked at. -/
def openWatch (collection : Collection) (options : ListOptions) : StoreM Remote Nat := do
  let gvk := collection.itemGvk
  let path ← pathOf gvk options.namespaceName
  let response ← about gvk.kind (send (.read path (watchQuery options)))
  let remote ← get
  let items := Payload.watchItems collection.newItem response.body
  set { remote with
    watches := remote.watches ++ [Watch.ofChannel (.finite remote.capacity items)] }
  return remote.watches.length

end Remote

instance : ObjectStore Remote where
  kindFor := Remote.kindFor
  recognizes remote gvk := remote.scheme.recognizes gvk
  newObject remote gvk := remote.scheme.newObject gvk
  get := Remote.fetch
  list := Remote.fill
  create := Remote.create
  update := Remote.replace
  patch := Remote.patch
  delete := Remote.remove
  watch := Remote.openWatch

end ClusterObjects
