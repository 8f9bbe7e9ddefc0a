import ClusterObjects.Proofs.Remote.Discovery

/-! # Where the requests of a client go

An operation on objects of a kind first asks under which path the kind is served. The request
that it then sends goes to that path or to an object under it, and is all that is left to do: only
the question may call for discovery.
-/

namespace ClusterObjects

namespace Remote

/-! ## Operations -/

/-- An operation of the store. -/
inductive Operation where
  | kindFor (gvr : Gvr)
  | get (namespaceName name : String) (object : Container)
  | list (collection : Collection) (options : ListOptions)
  | create (object : Container)
  | update (object : Container)
  | patch (base object : Container)
  | delete (object : Container)
  | watch (collection : Collection) (options : ListOptions)

/-- What an operation works on: the elements of a kind in a namespace, or one of them. -/
structure Target where
  kind : Gvk
  namespaceName : String
  name : Option String

/-- The paths of the requests about a target whose kind is served under a path. There is none
about an object without a name. -/
def Target.paths (target : Target) (path : String) : List String :=
  match target.name with
  | none => [path]
  | some name => if name.isEmpty then [] else [path ++ "/" ++ name]

namespace Operation

/-- The client after an operation, whether or not it succeeded. -/
def run : Operation → Remote → Remote
  | kindFor gvr, remote => (ObjectStore.kindFor gvr remote).2
  | get namespaceName name object, remote => (ObjectStore.get namespaceName name object remote).2
  | list collection options, remote => (ObjectStore.list collection options remote).2
  | create object, remote => (ObjectStore.create object remote).2
  | update object, remote => (ObjectStore.update object remote).2
  | patch base object, remote => (ObjectStore.patch base object remote).2
  | delete object, remote => (ObjectStore.delete object remote).2
  | watch collection options, remote => (ObjectStore.watch collection options remote).2

/-- What an operation works on; asking for a kind works on nothing yet. -/
def target? : Operation → Option Target
  | kindFor _ => none
  | get namespaceName name object => some ⟨object.gvk, namespaceName, some name⟩
  | list collection options | watch collection options =>
    some ⟨collection.itemGvk, options.namespaceName, none⟩
  | create object => some ⟨object.gvk, object.namespaceName, none⟩
  | update object | patch _ object | delete object =>
    some ⟨object.gvk, object.namespaceName, some object.name⟩

end Operation

/-! ## Asking under a path -/

variable {ε α β : Type}

/-- An exchange sends requests to these paths, one after another, and remembers nothing. -/
def Asks (exchange : ExceptT ε (StateM Remote) α) (paths : List String) : Prop :=
  ∀ remote, (exchange remote).2.mapping = remote.mapping ∧
    ∃ requests, (exchange remote).2.sent = remote.sent ++ requests ∧
      requests.map HttpRequest.path = paths

namespace Asks

theorem nothing {exchange : ExceptT ε (StateM Remote) α}
    (h : ∀ remote, (exchange remote).2.mapping = remote.mapping ∧
      (exchange remote).2.sent = remote.sent) : Asks exchange [] :=
  fun remote => ⟨(h remote).1, [], by rw [(h remote).2, List.append_nil], rfl⟩

/-- Once the requests are sent, nothing more is asked. -/
theorem bind {exchange : ExceptT ε (StateM Remote) α} {paths : List String}
    {next : α → ExceptT ε (StateM Remote) β} (h : Asks exchange paths)
    (hnext : ∀ result, Asks (next result) []) : Asks (exchange >>= next) paths := by
  intro remote
  obtain ⟨hmapping, requests, hsent, hpaths⟩ := h remote
  rw [bind_apply]
  rcases hrun : exchange remote with ⟨e | result, middle⟩
  · rw [hrun] at hmapping hsent
    exact ⟨hmapping, requests, hsent, hpaths⟩
  · rw [hrun] at hmapping hsent
    obtain ⟨hlater, none, hlast, hnone⟩ := hnext result middle
    obtain rfl := List.map_eq_nil_iff.mp hnone
    refine ⟨hlater.trans hmapping, requests, ?_, hpaths⟩
    rw [hlast, List.append_nil]
    exact hsent

theorem send (request : HttpRequest) : Asks (Remote.send request) [request.path] :=
  fun _ => ⟨rfl, [request], rfl, rfl⟩

theorem conclude (result : Except RemoteFault α) : Asks (Remote.conclude result) [] :=
  .nothing fun _ => ⟨rfl, rfl⟩

theorem call (request : HttpRequest) (decode : Json → Except DecodeError α) :
    Asks (Remote.call request decode) [request.path] :=
  (send request).bind fun _ => (conclude _).bind fun _ => conclude _

theorem callNamed {path name : String} {request : String → HttpRequest}
    (hpath : ∀ path, (request path).path = path) (decode : Json → Except DecodeError α)
    {target : Target} (hname : target.name = some name) :
    Asks (Remote.callNamed path name request decode) (target.paths path) := by
  unfold Target.paths Remote.callNamed objectPath
  rw [hname]
  dsimp only
  cases name.isEmpty with
  | true => exact .nothing fun _ => ⟨rfl, rfl⟩
  | false =>
    have hcall := call (request (path ++ "/" ++ name)) decode
    rwa [hpath] at hcall

theorem about {what : String} {exchange : RemoteM α} {paths : List String}
    (h : Asks exchange paths) : Asks (Remote.about what exchange) paths := by
  intro remote
  have hrun : (Remote.about what exchange remote).2 = (exchange remote).2 := by
    unfold Remote.about
    rcases exchange remote with ⟨_ | _, _⟩ <;> rfl
  rw [hrun]
  exact h remote

theorem refresh (object : Container) (value : Json) : Asks (Remote.refresh object value) [] :=
  .nothing fun _ => ⟨rfl, rfl⟩

end Asks

/-- An operation asks for the path of its kind and sends its request there. -/
theorem Operation.exists_run_eq {operation : Operation} {target : Target}
    (h : operation.target? = some target) :
    ∃ (α : Type) (next : String → StoreM Remote α),
      (∀ remote, operation.run remote =
        ((pathOf target.kind target.namespaceName >>= next) remote).2) ∧
      ∀ path, Asks (next path) (target.paths path) := by
  cases operation with
  | kindFor gvr => contradiction
  | get namespaceName name object =>
    obtain rfl := Option.some.inj h
    refine ⟨_, _, fun _ => rfl, fun path => ?_⟩
    exact (Asks.callNamed (fun _ => rfl) _ rfl).about.bind fun _ => .refresh _ _
  | list collection options =>
    obtain rfl := Option.some.inj h
    have hrun (remote : Remote) :
        (list collection options).run remote = (fill collection options remote).2 := rfl
    simp only [hrun, fill]
    refine ⟨_, _, fun _ => rfl, fun path => ?_⟩
    refine (Asks.call _ _).about.bind fun found => .nothing fun remote => ?_
    cases collection.loadAll found.items <;> exact ⟨rfl, rfl⟩
  | create object =>
    obtain rfl := Option.some.inj h
    refine ⟨_, _, fun _ => rfl, fun path => ?_⟩
    exact (Asks.call _ _).about.bind fun _ => .refresh _ _
  | update object =>
    obtain rfl := Option.some.inj h
    refine ⟨_, _, fun _ => rfl, fun path => ?_⟩
    exact (Asks.callNamed (fun _ => rfl) _ rfl).about.bind fun _ => .refresh _ _
  | patch base object =>
    obtain rfl := Option.some.inj h
    refine ⟨_, _, fun _ => rfl, fun path => ?_⟩
    exact (Asks.callNamed (fun _ => rfl) _ rfl).about.bind fun _ => .refresh _ _
  | delete object =>
    obtain rfl := Option.some.inj h
    refine ⟨_, _, fun _ => rfl, fun path => ?_⟩
    exact (Asks.callNamed (fun _ => rfl) _ rfl).about
  | watch collection options =>
    obtain rfl := Option.some.inj h
    have hrun (remote : Remote) :
        (watch collection options).run remote = (openWatch collection options remote).2 := rfl
    simp only [hrun, openWatch]
    refine ⟨_, _, fun _ => rfl, fun path => ?_⟩
    exact (Asks.send _).about.bind fun _ => .nothing fun _ => ⟨rfl, rfl⟩

/-! ## What operations remember -/

theorem Asks.explores {exchange : ExceptT ε (StateM Remote) α} {paths : List String}
    (h : Asks exchange paths) : Explores exchange fun _ => True :=
  .of_mapping_eq fun remote => (h remote).1

/-- An operation remembers only what has been listed. -/
theorem Operation.exists_mapping_run (operation : Operation) (remote : Remote) :
    ∃ found, (∀ pair ∈ found, Listed pair) ∧
      (operation.run remote).mapping = remote.mapping.after found := by
  cases htarget : operation.target? with
  | none =>
    cases operation with
    | kindFor gvr =>
      obtain ⟨found, hfound, hmapping, _⟩ := explores_resolve gvr.group gvr.version gvr.text
        (fun mapping => mapping.kind? gvr) remote
      exact ⟨found, hfound, hmapping⟩
    | _ => contradiction
  | some target =>
    obtain ⟨α, next, hrun, hasks⟩ := Operation.exists_run_eq htarget
    have hexplores : Explores (pathOf target.kind target.namespaceName >>= next) fun _ => True :=
      (explores_pathOf _ _).bind fun path _ => (hasks path).explores
    obtain ⟨found, hfound, hmapping, _⟩ := hexplores remote
    rw [hrun]
    exact ⟨found, hfound, hmapping⟩

/-! ## Where requests go -/

theorem pathOf_of_resource? {remote : Remote} {gvk : Gvk} {served : ServedResource}
    (h : remote.mapping.resource? gvk = some served) (namespaceName : String) :
    pathOf gvk namespaceName remote = (.ok (served.path namespaceName), remote) := by
  unfold pathOf
  rw [bind_apply, resolve_of_find h]
  rfl

/-- Where it is known under which resource a kind is served, the requests of an operation on the
kind go there. -/
theorem Operation.exists_sent_run {operation : Operation} {target : Target}
    (htarget : operation.target? = some target) {remote : Remote} {served : ServedResource}
    (hserved : remote.mapping.resource? target.kind = some served) :
    ∃ requests, (operation.run remote).sent = remote.sent ++ requests ∧
      requests.map HttpRequest.path = target.paths (served.path target.namespaceName) := by
  obtain ⟨α, next, hrun, hasks⟩ := Operation.exists_run_eq htarget
  rw [hrun, bind_apply, pathOf_of_resource? hserved]
  exact (hasks _ remote).2

end Remote

end ClusterObjects
