import ClusterObjects.Remote.Mapping
import ClusterObjects.Remote.Payload
import ClusterObjects.Scheme
import ClusterObjects.Watch.Handle

/-! # A client of a cluster

The state of a client, how it sends requests, and how it discovers the resources
of an API group that it does not know yet. Every request is recorded. What
discovery finds is remembered; that it found nothing is not.
-/

namespace ClusterObjects

/-- A client of a cluster and its watches. -/
structure Remote where
  scheme : Scheme
  mapping : Mapping
  server : Server
  sent : List HttpRequest
  watches : List Watch
  capacity : Nat
  stopped : Nat

/-- An exchange with a cluster that may fail. -/
abbrev RemoteM := ExceptT RemoteFault (StateM Remote)

namespace Remote

open Shape (optional required)

/-- A client that knows the resources of a registry. -/
def ofRegistry (registry : Registry) (server : Server) (capacity : Nat) : Remote :=
  { scheme := .ofRegistry registry
    mapping := .ofRegistry registry
    server
    sent := []
    watches := []
    capacity
    stopped := 0 }

def send (request : HttpRequest) : RemoteM HttpResponse := fun remote =>
  let (response, server) := remote.server.answer request
  (.ok response, { remote with server, sent := remote.sent ++ [request] })

/-- The value of a response that reports no error. -/
def valueOf (response : HttpResponse) : Except RemoteFault Json :=
  if response.isError then .error (.refused (.ofResponse response))
  else
    match Json.read response.body with
    | .ok value => .ok value
    | .error _ => .error (.undecodable "the response is not JSON")

/-- A decoded value, or the fault of a value that cannot be decoded. -/
def decoded {α : Type} : Except DecodeError α → Except RemoteFault α
  | .ok value => .ok value
  | .error e => .error (.undecodable e.message)

/-- An exchange that is over. -/
def conclude {α : Type} (result : Except RemoteFault α) : RemoteM α := fun remote =>
  (result, remote)

/-- Send a request and decode the value that comes back. -/
def call {α : Type} (request : HttpRequest) (decode : Json → Except DecodeError α) :
    RemoteM α := do
  let response ← send request
  let value ← conclude (valueOf response)
  conclude (decoded (decode value))

/-! ## Discovery -/

def groupList : Shape :=
  .record "APIGroupList" [
    required "groups" (.listOf (.record "APIGroup" [
      required "name" .text,
      required "versions" (.listOf (.record "GroupVersionForDiscovery" [
        required "groupVersion" .text,
        required "version" .text]))]))]

/-- The shape of the list of versions of the core group. -/
def versionList : Shape :=
  .record "APIVersions" [required "versions" (.listOf .text)]

def resourceList : Shape :=
  .record "APIResourceList" [
    required "groupVersion" .text,
    required "resources" (.listOf (.record "APIResource" [
      optional "group" .text,
      required "kind" .text,
      required "name" .text,
      required "namespaced" .bool,
      optional "version" .text]))]

/-- The items of an array under a key. -/
def itemsAt (value : Json) (key : String) : List Json :=
  match value.get? key with
  | some (.arr items) => items
  | _ => []

/-- A version of an API group: its name and the path that lists its resources. -/
structure ListedVersion where
  version : String
  path : String

def versionsOf (group : Json) : List ListedVersion :=
  (itemsAt group "versions").map fun version =>
    ⟨(version.textAt? "version").getD "",
      "/apis/" ++ (version.textAt? "groupVersion").getD ""⟩

def coreVersions (versions : Json) : List ListedVersion :=
  (itemsAt versions "versions").filterMap fun version =>
    version.text?.map fun version => ⟨version, "/api/" ++ version⟩

/-- A resource that a version lists, and its kind. What the entry leaves open is
that of the list. -/
def listedResource (list entry : Json) : Gvr × Gvk :=
  let stated := Gvk.ofApiVersion ((list.textAt? "groupVersion").getD "") ""
  let group := (entry.textAt? "group").getD stated.group
  let version := (entry.textAt? "version").getD stated.version
  (⟨group, version, (entry.textAt? "name").getD ""⟩,
    ⟨group, version, (entry.textAt? "kind").getD ""⟩)

/-- The resources that a version lists; parts of a resource are none of their own. -/
def listedResources (list : Json) : List (Gvr × Gvk) :=
  ((itemsAt list "resources").map (listedResource list)).filter fun (gvr, _) =>
    !gvr.resource.toList.contains '/'

/-- Ask for the resources of every version of a group. -/
def listVersions (group : String) (versions : List ListedVersion) :
    RemoteM (List (String × List (Gvr × Gvk))) :=
  if versions.isEmpty then throw (.emptyGroup group)
  else
    versions.mapM fun listed => do
      let list ← call (.read listed.path []) resourceList.decode
      return (listed.version, listedResources list)

/-- Remember resources and their kinds. -/
def learn (found : List (Gvr × Gvk)) : RemoteM Unit :=
  modify fun remote =>
    { remote with
      mapping := found.foldl (fun mapping (gvr, gvk) => mapping.remember gvr gvk) remote.mapping }

/-- Learn the resources of a version of an API group, if the cluster has it. Every
version of the group is asked for. -/
def discover (group version : String) : RemoteM Unit := do
  let groups ← call (.read "/apis" []) groupList.decode
  let listed ← ((itemsAt groups "groups").filter fun listed =>
    listed.textAt? "name" == some group).mapM fun listed => listVersions group (versionsOf listed)
  let core ←
    if group.isEmpty then do
      let versions ← call (.read "/api" []) versionList.decode
      let found ← listVersions group (coreVersions versions)
      pure [found]
    else pure []
  -- Of several groups with the name the last one counts.
  match (listed ++ core).getLast? with
  | some found => learn ((found.lookup version).getD [])
  | none => pure ()

end Remote

instance : WatchHost Remote where
  watch? remote number := remote.watches[number]?
  setWatch remote number watch :=
    { remote with watches := remote.watches.modify number fun _ => watch }
  countStop remote := { remote with stopped := remote.stopped + 1 }
  settle remote := { remote with watches := remote.watches.map Watch.settle }

end ClusterObjects
