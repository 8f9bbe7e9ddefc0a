import ClusterObjects.Facade.Operations
import ClusterObjects.Proofs.Exchange
import ClusterObjects.Proofs.Store.Run
import ClusterObjects.Store.Hub

/-! # Requests as writes

A writing request to the façade of a store either fails before it reaches the
store or submits one write. Which write that is depends on the store alone, and
what the request does to the store is what that write does.
-/

namespace ClusterObjects

namespace Facade

/-! ## What a request works on -/

/-- An empty container for the elements of a kind. -/
def elementOf (scheme : Scheme) (item : Gvk) : Container :=
  match scheme.newObject item with
  | some object => if scheme.recognizes item then object else .generic item
  | none => .generic item

/-- An empty container for the elements of a resource. -/
def containerFor (store : Store) (gvr : Gvr) : Except ApiError Container :=
  match store.kindFor gvr with
  | .ok gvk => .ok (elementOf store.scheme gvk.toItem)
  | .error e => .error (.ofStoreError e)

/-- The object at a path. -/
def fetched (store : Store) (gvr : Gvr) (namespaceName name : String) :
    Except ApiError Container := do
  let container ← containerFor store gvr
  refusedByStore (store.get namespaceName name container)

/-- The object that a body describes. -/
def described (store : Store) (gvr : Gvr) (namespaceName : String) (name : Option String)
    (body : Json) : Except ApiError Container := do
  let container ← containerFor store gvr
  readBody container namespaceName name body

theorem objectFor_apply (gvr : Gvr) (hub : Hub) :
    objectFor gvr hub = (containerFor hub.store gvr, hub) := by
  have hkind : (kindOf gvr : FacadeM Hub Gvk) hub =
    (refusedByStore (hub.store.kindFor gvr), hub) := rfl
  unfold objectFor containerFor
  rw [bind_apply, hkind]
  cases hub.store.kindFor gvr <;> rfl

theorem fetch_apply (gvr : Gvr) (namespaceName name : String) (hub : Hub) :
    fetch gvr namespaceName name hub = (fetched hub.store gvr namespaceName name, hub) := by
  unfold fetch fetched
  rw [bind_apply, objectFor_apply]
  cases containerFor hub.store gvr <;> rfl

theorem decodeBody_apply (gvr : Gvr) (namespaceName : String) (name : Option String) (body : Json)
    (hub : Hub) :
    decodeBody gvr namespaceName name body hub =
      (described hub.store gvr namespaceName name body, hub) := by
  unfold decodeBody described
  rw [bind_apply, objectFor_apply]
  cases containerFor hub.store gvr <;> rfl

/-! ## The write that a request submits -/

/-- A request that writes. -/
inductive Request where
  | create (gvr : Gvr) (namespaceName : String) (body : Json)
  | update (gvr : Gvr) (namespaceName name : String) (body : Json)
  | patch (gvr : Gvr) (namespaceName name : String) (body : Json)
  | delete (gvr : Gvr) (namespaceName name : String)

/-- Serve a request; the result is the object as stored, and nothing after a deletion. -/
def serve : Request → FacadeM Hub (Option Container)
  | .create gvr namespaceName body => some <$> create gvr namespaceName body
  | .update gvr namespaceName name body => some <$> update gvr namespaceName name body
  | .patch gvr namespaceName name body => some <$> patch gvr namespaceName name body
  | .delete gvr namespaceName name => (fun _ => none) <$> delete gvr namespaceName name

/-- An object that states the version of another, or none. -/
def withVersionOf (object current : Container) : Container :=
  { object with metadata := object.metadata.setResourceVersion current.metadata.resourceVersion? }

/-- The write that a request submits to a store. -/
def submission (store : Store) : Request → Except ApiError Write
  | .create gvr namespaceName body => do
    let object ← described store gvr namespaceName none body
    return .create object
  | .update gvr namespaceName name body => do
    let current ← fetched store gvr namespaceName name
    let object ← described store gvr namespaceName (some name) body
    return .update (withVersionOf object current)
  | .patch gvr namespaceName name body =>
    if body.isObject then do
      let current ← fetched store gvr namespaceName name
      let object ←
        described store gvr namespaceName (some name) (current.toJson.applyPatch body)
      return .patch current object
    else .error (.validation "merge patch must be a JSON mapping")
  | .delete gvr namespaceName name => do
    let object ← fetched store gvr namespaceName name
    return .delete object

/-- The hub after a write, and what its client gets. -/
def submit (hub : Hub) (write : Write) : Except ApiError (Option Container) × Hub :=
  let outcome := hub.store.write write
  (refusedByStore outcome.result, (hub.absorb outcome).2)

theorem create_apply (gvr : Gvr) (namespaceName : String) (body : Json) (hub : Hub) :
    create gvr namespaceName body hub =
      match described hub.store gvr namespaceName none body with
      | .ok object => (refusedByStore (hub.store.create object).result,
          (hub.absorb (hub.store.create object)).2)
      | .error e => (.error e, hub) := by
  unfold create
  rw [bind_apply, decodeBody_apply]
  cases described hub.store gvr namespaceName none body <;> rfl

theorem submitUpdate_apply (gvr : Gvr) (namespaceName name : String) (body : Json)
    (current : Container) (hub : Hub) :
    submitUpdate gvr namespaceName name body current hub =
      match described hub.store gvr namespaceName (some name) body with
      | .ok object => (refusedByStore (hub.store.update (withVersionOf object current)).result,
          (hub.absorb (hub.store.update (withVersionOf object current))).2)
      | .error e => (.error e, hub) := by
  unfold submitUpdate
  rw [bind_apply, decodeBody_apply]
  cases described hub.store gvr namespaceName (some name) body <;> rfl

theorem submitPatch_apply (gvr : Gvr) (namespaceName name : String) (body : Json)
    (current : Container) (hub : Hub) :
    submitPatch gvr namespaceName name body current hub =
      match described hub.store gvr namespaceName (some name) (current.toJson.applyPatch body) with
      | .ok object => (refusedByStore (hub.store.patch current object).result,
          (hub.absorb (hub.store.patch current object)).2)
      | .error e => (.error e, hub) := by
  unfold submitPatch
  rw [bind_apply, decodeBody_apply]
  cases described hub.store gvr namespaceName (some name) (current.toJson.applyPatch body) <;> rfl

theorem refusedByStore_map {α β : Type} (f : α → β) (result : Except StoreError α) :
    (refusedByStore result).map f = refusedByStore (result.map f) := by
  cases result <;> rfl

/-- A request fails and leaves everything as it was, or it does what its write does. -/
theorem serve_apply (request : Request) (hub : Hub) :
    serve request hub = match submission hub.store request with
      | .ok write => submit hub write
      | .error e => (.error e, hub) := by
  cases request with
  | create gvr namespaceName body =>
    rw [serve, map_apply, create_apply, submission]
    cases described hub.store gvr namespaceName none body with
    | error e => rfl
    | ok object => exact congrArg (·, _) (refusedByStore_map some _)
  | update gvr namespaceName name body =>
    rw [serve, map_apply, update, bind_apply, fetch_apply, submission]
    cases fetched hub.store gvr namespaceName name with
    | error e => rfl
    | ok current =>
      dsimp only
      rw [submitUpdate_apply]
      cases described hub.store gvr namespaceName (some name) body with
      | error e => rfl
      | ok object => exact congrArg (·, _) (refusedByStore_map some _)
  | patch gvr namespaceName name body =>
    rw [serve, map_apply, patch, submission]
    split
    next hobject =>
      rw [bind_apply, fetch_apply]
      cases fetched hub.store gvr namespaceName name with
      | error e => rfl
      | ok current =>
        dsimp only
        rw [submitPatch_apply]
        change _ = match (described hub.store gvr namespaceName (some name)
            (current.toJson.applyPatch body) >>= fun object => .ok (.patch current object)) with
          | .ok write => submit hub write
          | .error e => (.error e, hub)
        cases described hub.store gvr namespaceName (some name)
            (current.toJson.applyPatch body) with
        | error e => rfl
        | ok object => exact congrArg (·, _) (refusedByStore_map some _)
    next => rfl
  | delete gvr namespaceName name =>
    rw [serve, map_apply, delete, bind_apply, fetch_apply, submission]
    cases fetched hub.store gvr namespaceName name with
    | error e => rfl
    | ok object => exact congrArg (·, _) (refusedByStore_map (fun _ => none) _)

/-! ## Cases

What holds of every failure that leaves all as it was, and of every write that is submitted, holds
of what a request gives. -/

section

variable {hub : Hub} {P : Except ApiError (Option Container) × Hub → Prop}
  (herror : ∀ e, P (.error e, hub))

include herror

theorem serve_cases {request : Request}
    (hsubmit : ∀ write, submission hub.store request = .ok write → P (submit hub write)) :
    P (serve request hub) := by
  rw [serve_apply]
  cases hsubmission : submission hub.store request with
  | error e => exact herror e
  | ok write => exact hsubmit write hsubmission

variable {gvr : Gvr} {namespaceName name : String} {body : Json} {current : Container}

theorem submitUpdate_cases
    (hsubmit : ∀ object, described hub.store gvr namespaceName (some name) body = .ok object →
      P (submit hub (.update (withVersionOf object current)))) :
    P ((some <$> submitUpdate gvr namespaceName name body current) hub) := by
  rw [map_apply, submitUpdate_apply]
  cases hobject : described hub.store gvr namespaceName (some name) body with
  | error e => exact herror e
  | ok object =>
    dsimp only
    rw [refusedByStore_map]
    exact hsubmit object hobject

theorem submitPatch_cases
    (hsubmit : ∀ object, described hub.store gvr namespaceName (some name)
      (current.toJson.applyPatch body) = .ok object → P (submit hub (.patch current object))) :
    P ((some <$> submitPatch gvr namespaceName name body current) hub) := by
  rw [map_apply, submitPatch_apply]
  cases hobject : described hub.store gvr namespaceName (some name)
      (current.toJson.applyPatch body) with
  | error e => exact herror e
  | ok object =>
    dsimp only
    rw [refusedByStore_map]
    exact hsubmit object hobject

end

/-- What a request does to the store. -/
theorem store_serve (request : Request) (hub : Hub) :
    (serve request hub).2.store = match submission hub.store request with
      | .ok write => (hub.store.write write).store
      | .error _ => hub.store := by
  rw [serve_apply]
  cases submission hub.store request with
  | error e => rfl
  | ok write => exact hub.store_absorb _

end Facade

end ClusterObjects
