import ClusterObjects.Text.Cut

/-! # Kinds

The schema identity of an object: an API group, a version of it and a kind
name. Group and version together are written as one `apiVersion` text, from
which an empty group is left out. A kind whose name ends in `List` names a
collection of another kind.
-/

namespace ClusterObjects

/-- The schema identity of an object. -/
structure Gvk where
  group : String
  version : String
  kind : String
deriving DecidableEq, Inhabited

/-- Group and version as one text; an empty group is left out. -/
def joinApiVersion (group version : String) : String :=
  if group.isEmpty then version else group ++ "/" ++ version

namespace Gvk

/-- Kinds are ordered by group, then by version, then by name. -/
def order : Gvk → Gvk → Ordering :=
  compareLex (compareOn Gvk.group) (compareLex (compareOn Gvk.version) (compareOn Gvk.kind))

/-- The kind with the given `apiVersion` text: the part before the first slash is
the group, and without a slash the group is empty. -/
def ofApiVersion (apiVersion kind : String) : Gvk :=
  match Text.cut ['/'] apiVersion.toList with
  | some (group, version) => ⟨String.ofList group, String.ofList version, kind⟩
  | none => ⟨"", apiVersion, kind⟩

def apiVersion (gvk : Gvk) : String := joinApiVersion gvk.group gvk.version

/-- The text that names a kind in messages. -/
def text (gvk : Gvk) : String := gvk.apiVersion ++ "/" ++ gvk.kind

/-- The ending that marks the kind of a collection. -/
def listEnding : List Char := "List".toList

/-- The kind without the ending of a collection, if it has one. -/
def stem? (gvk : Gvk) : Option (List Char) := Text.dropSuffix? listEnding gvk.kind.toList

/-- Whether the kind names a collection. -/
def isList (gvk : Gvk) : Bool := gvk.stem?.isSome

def toList (gvk : Gvk) : Gvk :=
  if gvk.isList then gvk else { gvk with kind := gvk.kind ++ String.ofList listEnding }

/-- The kind of the elements of this collection; a kind that names no collection,
or nothing but one, stands for itself. -/
def toItem (gvk : Gvk) : Gvk :=
  match gvk.stem? with
  | some (c :: stem) => { gvk with kind := String.ofList (c :: stem) }
  | _ => gvk

end Gvk

instance : Ord Gvk := ⟨Gvk.order⟩

/-- Kinds that neither precedes are the same. -/
theorem Gvk.eq_of_order_eq {left right : Gvk} (h : Gvk.order left right = .eq) : left = right := by
  simp only [order, compareLex, Ordering.then_eq_eq, compareOn, Std.compare_eq_iff_eq] at h
  obtain ⟨hgroup, hversion, hkind⟩ := h
  cases left
  cases right
  simp_all

instance : Std.TransCmp Gvk.order := by unfold Gvk.order; infer_instance

instance : Std.LawfulEqCmp Gvk.order where
  compare_self := Std.ReflCmp.compare_self
  eq_of_compare := Gvk.eq_of_order_eq

instance : Std.TransOrd Gvk := inferInstanceAs (Std.TransCmp Gvk.order)

instance : Std.LawfulEqOrd Gvk := inferInstanceAs (Std.LawfulEqCmp Gvk.order)

end ClusterObjects
