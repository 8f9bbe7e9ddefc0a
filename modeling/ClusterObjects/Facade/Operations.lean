import ClusterObjects.Facade.Containers
import ClusterObjects.Json.MergePatch
import ClusterObjects.Query.Listing
import ClusterObjects.Registry

/-! # The façade

Requests on objects by resource, namespace and name. Writing requests read a
body into a container of the resource's kind and reconcile it with the path: a
namespace or name that the body leaves open is the path's, and a different one
is refused.

An update or a patch first fetches the object and then submits a write that
rests on what it fetched; the two parts are definitions of their own, because
other requests may come in between. An update states the version it fetched. A
patch submits the object that results from merging the body, and the store
applies what sets this object apart from the one fetched.
-/

namespace ClusterObjects

namespace Facade

/-! ## Bodies -/

/-- The value that a body states, or the path's if the body leaves it open. -/
def reconciled (what stated path : String) : Except ApiError String :=
  if stated.isEmpty then .ok path
  else if stated = path then .ok stated
  else
    .error (.validation (what ++ " " ++ Text.quoted stated ++ " in body does not match " ++
      Text.quoted path ++ " in path"))

/-- An object in the namespace of the path; an empty one asks for none. -/
def reconcileNamespace (namespaceName : String) (object : Container) :
    Except ApiError Container :=
  if namespaceName.isEmpty then .ok object
  else
    match reconciled "namespace" object.namespaceName namespaceName with
    | .error e => .error e
    | .ok found => .ok { object with metadata := object.metadata.setText "namespace" found }

/-- An object with the name of the path, if the path has one. -/
def reconcileName (name : Option String) (object : Container) : Except ApiError Container :=
  match name with
  | none => .ok object
  | some name =>
    match reconciled "name" object.name name with
    | .error e => .error e
    | .ok found => .ok { object with metadata := object.metadata.setText "name" found }

/-- An object that must have a name. -/
def requireName (object : Container) : Except ApiError Container :=
  if object.name.isEmpty then .error (.validation "metadata.name is required") else .ok object

/-- An object reconciled with the path of a request. -/
def reconcile (namespaceName : String) (name : Option String) (object : Container) :
    Except ApiError Container := do
  let object ← reconcileNamespace namespaceName object
  let object ← reconcileName name object
  requireName object

/-- The object that a body describes, in a given container. -/
def readBody (container : Container) (namespaceName : String) (name : Option String)
    (body : Json) : Except ApiError Container :=
  match container.load body with
  | .error e => .error (.ofObjectError e)
  | .ok object => reconcile namespaceName name object

variable {σ : Type} [ObjectStore σ]

/-- The object that the body of a request describes. -/
def decodeBody (gvr : Gvr) (namespaceName : String) (name : Option String) (body : Json) :
    FacadeM σ Container := do
  let container ← objectFor gvr
  answer (readBody container namespaceName name body)

/-! ## Requests on one object -/

/-- The object at a path. -/
def fetch (gvr : Gvr) (namespaceName name : String) : FacadeM σ Container := do
  let container ← objectFor gvr
  ask (ObjectStore.get namespaceName name container)

def create (gvr : Gvr) (namespaceName : String) (body : Json) : FacadeM σ Container := do
  let object ← decodeBody gvr namespaceName none body
  ask (ObjectStore.create object)

/-- Submit a body as the replacement of an object that has been fetched. -/
def submitUpdate (gvr : Gvr) (namespaceName name : String) (body : Json) (current : Container) :
    FacadeM σ Container := do
  let object ← decodeBody gvr namespaceName (some name) body
  let metadata := object.metadata.setResourceVersion current.metadata.resourceVersion?
  ask (ObjectStore.update { object with metadata })

/-- Replace the object at a path. -/
def update (gvr : Gvr) (namespaceName name : String) (body : Json) : FacadeM σ Container := do
  let current ← fetch gvr namespaceName name
  submitUpdate gvr namespaceName name body current

/-- Submit a body as a merge patch of an object that has been fetched. -/
def submitPatch (gvr : Gvr) (namespaceName name : String) (body : Json) (current : Container) :
    FacadeM σ Container := do
  let object ← decodeBody gvr namespaceName (some name) (current.toJson.applyPatch body)
  ask (ObjectStore.patch current object)

/-- Merge a body into the object at a path. -/
def patch (gvr : Gvr) (namespaceName name : String) (body : Json) : FacadeM σ Container := do
  if body.isObject then
    let current ← fetch gvr namespaceName name
    submitPatch gvr namespaceName name body current
  else answer (.error (.validation "merge patch must be a JSON mapping"))

/-- Delete the object at a path. -/
def delete (gvr : Gvr) (namespaceName name : String) : FacadeM σ Unit := do
  let object ← fetch gvr namespaceName name
  ask (ObjectStore.delete object)

/-! ## Requests on collections -/

/-- The listing that a query gives of a resource in a namespace, or in all of them. -/
def list (gvr : Gvr) (namespaceName : String) (query : Query) : FacadeM σ (Listing Container) := do
  let collection ← collectionFor gvr
  let options := (ListOptions.inNamespace namespaceName).select query.labelSelector
  let collection ← ask (ObjectStore.list collection options)
  return listObjects collection.items query

/-- Open a watch on a resource in a namespace, or in all of them. -/
def watch (gvr : Gvr) (namespaceName : String) (labels : Option String) : FacadeM σ Nat := do
  let collection ← collectionFor gvr
  ask (ObjectStore.watch collection ((ListOptions.inNamespace namespaceName).select labels))

/-- The address of a resource by its short name. -/
def resource (registry : Registry) (name : String) : Except ApiError Gvr :=
  match registry.lookup name with
  | .ok gvr => .ok gvr
  | .error e => .error (.ofObjectError e)

end Facade

def Listing.document (listing : Listing Container) : Json :=
  .obj [("totalItems", .ofNat listing.total),
    ("items", .arr (listing.items.map Container.document))]

end ClusterObjects
