import ClusterObjects.Facade.Error
import ClusterObjects.Store.Interface

/-! # Containers for resources

The façade is addressed by resources, the store by containers. A resource has a
kind, which the store knows, and an element of that kind gets a typed container
if the store also knows its shape and a generic one otherwise.
-/

namespace ClusterObjects

/-- A request to the façade of a store: it acts on the store and may fail. -/
abbrev FacadeM (σ : Type) := ExceptT ApiError (StateM σ)

namespace Facade

/-- A result whose failure comes from the store. -/
def refusedByStore {α : Type} : Except StoreError α → Except ApiError α
  | .ok result => .ok result
  | .error e => .error (.ofStoreError e)

variable {σ : Type}

/-- A store operation as part of a request. -/
def ask {α : Type} (operation : StoreM σ α) : FacadeM σ α := fun store =>
  let (result, store) := operation store
  (refusedByStore result, store)

/-- A computation that does not look at the store, as part of a request. -/
def answer {α : Type} (result : Except ApiError α) : FacadeM σ α := fun store => (result, store)

variable [ObjectStore σ]

/-- An empty container for an element of a kind. -/
def containerOf (store : σ) (gvk : Gvk) : Container :=
  let item := gvk.toItem
  match ObjectStore.newObject store item with
  | some object => if ObjectStore.recognizes store item then object else .generic item
  | none => .generic item

/-- An empty collection for the elements of a kind. -/
def collectionOf (store : σ) (gvk : Gvk) : Collection := .ofPrototype (containerOf store gvk)

def kindOf (gvr : Gvr) : FacadeM σ Gvk := ask (ObjectStore.kindFor gvr)

/-- An empty container for an element of a resource. -/
def objectFor (gvr : Gvr) : FacadeM σ Container := do
  let gvk ← kindOf gvr
  let store ← get
  return containerOf store gvk

/-- An empty collection for the elements of a resource. -/
def collectionFor (gvr : Gvr) : FacadeM σ Collection := do
  let gvk ← kindOf gvr
  let store ← get
  return collectionOf store gvk

end Facade

end ClusterObjects
