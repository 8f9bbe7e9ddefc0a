import ClusterObjects.Object.Collection
import ClusterObjects.Store.Error
import ClusterObjects.Watch.Handle

/-! # What a store offers

The operations by which the façade works on a store. An operation acts on the
state of the store and may fail; what it did to the state before it failed
stays done. Writing operations give the object as it is stored afterwards, and
opening a watch gives its number.
-/

namespace ClusterObjects

/-- An operation on a store that may fail. -/
abbrev StoreM (σ : Type) := ExceptT StoreError (StateM σ)

/-- A state on which the operations of a store are defined. -/
class ObjectStore (σ : Type) where
  /-- The kind of a resource. -/
  kindFor : Gvr → StoreM σ Gvk
  /-- Whether a kind or its element kind has a known shape. -/
  recognizes : σ → Gvk → Bool
  /-- An empty typed container for an element kind. -/
  newObject : σ → Gvk → Option Container
  /-- Load the object at a namespace and name into a container. -/
  get : (namespaceName name : String) → Container → StoreM σ Container
  /-- Fill a collection with the objects that options select. -/
  list : Collection → ListOptions → StoreM σ Collection
  /-- Create an object. -/
  create : Container → StoreM σ Container
  /-- Replace an object. -/
  update : Container → StoreM σ Container
  /-- Apply the difference between a base and an object. -/
  patch : (base object : Container) → StoreM σ Container
  /-- Delete an object. -/
  delete : Container → StoreM σ Unit
  /-- Open a watch on what options select among the elements of a collection. -/
  watch : Collection → ListOptions → StoreM σ Nat

end ClusterObjects
