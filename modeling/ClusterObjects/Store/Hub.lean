import ClusterObjects.Store.Interface
import ClusterObjects.Store.Memory

/-! # A store with watchers

The store together with the watches that clients have opened on it. A committed
change is offered to every watch in the order of the commits; whether it
concerns a watch depends on the watch's selection alone.
-/

namespace ClusterObjects

/-- A watch and what it is about. -/
structure Subscription where
  selection : Selection
  prototype : Container
  watch : Watch

/-- A store with its watches, the length of their queues, and the number of stop
handles that have fired. -/
structure Hub where
  store : Store
  subscriptions : List Subscription
  capacity : Nat
  stopped : Nat

namespace Hub

/-- A store without watches. -/
def ofStore (store : Store) (capacity : Nat) : Hub := ⟨store, [], capacity, 0⟩

def offer (change : Change) (subscription : Subscription) : Subscription :=
  { subscription with
    watch := subscription.watch.publish
      (change.event? subscription.selection subscription.prototype) }

/-- Offer a published change to every watch. -/
def publish (hub : Hub) (change : Option Change) : Hub :=
  match change with
  | some change => { hub with subscriptions := hub.subscriptions.map (offer change) }
  | none => hub

/-- The result of a store operation and the hub after it. -/
def absorb {α : Type} (hub : Hub) (outcome : Outcome α) : Except StoreError α × Hub :=
  (outcome.result, { hub with store := outcome.store }.publish outcome.published)

theorem store_absorb {α : Type} (hub : Hub) (outcome : Outcome α) :
    (hub.absorb outcome).2.store = outcome.store := by
  unfold absorb publish
  split <;> rfl

/-- Open a watch on what the options select among the elements of a collection. -/
def openWatch (hub : Hub) (collection : Collection) (options : ListOptions) :
    Except StoreError Nat × Hub :=
  match Store.selectionOf collection options with
  | .error e => (.error e, hub)
  | .ok selection =>
    let watch := Watch.ofChannel (.openEnded hub.capacity)
    (.ok hub.subscriptions.length,
      { hub with
        subscriptions := hub.subscriptions ++ [⟨selection, collection.newItem, watch⟩] })

/-- The number of producers that have not ended. -/
def activeWatches (hub : Hub) : Nat :=
  hub.subscriptions.countP fun subscription => subscription.watch.channel.running

def setWatch (hub : Hub) (number : Nat) (watch : Watch) : Hub :=
  { hub with
    subscriptions := hub.subscriptions.modify number fun subscription =>
      { subscription with watch } }

end Hub

instance : WatchHost Hub where
  watch? hub number := hub.subscriptions[number]?.map Subscription.watch
  setWatch := Hub.setWatch
  countStop hub := { hub with stopped := hub.stopped + 1 }
  settle hub :=
    { hub with
      subscriptions := hub.subscriptions.map fun subscription =>
        { subscription with watch := subscription.watch.settle } }

instance : ObjectStore Hub where
  kindFor gvr := fun hub => (hub.store.kindFor gvr, hub)
  recognizes hub gvk := hub.store.scheme.recognizes gvk
  newObject hub gvk := hub.store.scheme.newObject gvk
  get namespaceName name object := fun hub => (hub.store.get namespaceName name object, hub)
  list collection options := fun hub => (hub.store.list collection options, hub)
  create object := fun hub => hub.absorb (hub.store.create object)
  update object := fun hub => hub.absorb (hub.store.update object)
  patch base object := fun hub => hub.absorb (hub.store.patch base object)
  delete object := fun hub => hub.absorb (hub.store.delete object)
  watch collection options := fun hub => hub.openWatch collection options

end ClusterObjects
