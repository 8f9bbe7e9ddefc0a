import ClusterObjects.Object.Container

/-! # Collections

A collection holds objects of one kind, all in the representation of one
prototype, together with the version that the store had when they had been read.
-/

namespace ClusterObjects

/-- A collection of objects of one kind. -/
structure Collection where
  prototype : Container
  resourceVersion : Option String
  items : List Container

namespace Collection

/-- An empty collection of the objects that a container can hold. -/
def ofPrototype (prototype : Container) : Collection := ⟨prototype, none, []⟩

def gvk (collection : Collection) : Gvk := collection.prototype.gvk.toList

/-- The kind of the elements, recovered from the kind of the collection. -/
def itemGvk (collection : Collection) : Gvk := collection.gvk.toItem

def isTyped (collection : Collection) : Bool := collection.prototype.isTyped

def newItem (collection : Collection) : Container := collection.prototype.emptyLike

/-- The collection with one more element, loaded from a value. -/
def push (collection : Collection) (value : Json) : Except ObjectError Collection :=
  match collection.newItem.load value with
  | .error e => .error e
  | .ok item => .ok { collection with items := collection.items ++ [item] }

/-- The elements that values hold, in the representation of the collection; the
first value that cannot be loaded decides the error. -/
def loadAll (collection : Collection) : List Json → Except ObjectError (List Container)
  | [] => .ok []
  | value :: values =>
    match collection.newItem.load value with
    | .error e => .error e
    | .ok item =>
      match collection.loadAll values with
      | .error e => .error e
      | .ok items => .ok (item :: items)

end Collection

end ClusterObjects
