import ClusterObjects.Object.Container

/-! # Keys

The address of a stored object: its kind, its namespace, which may be empty,
and its name. Keys are ordered by kind, then by namespace, then by name.
-/

namespace ClusterObjects

/-- The address of a stored object. -/
structure Key where
  gvk : Gvk
  namespaceName : String
  name : String
deriving DecidableEq, Inhabited

namespace Key

/-- Keys are ordered by kind, then by namespace, then by name. -/
def order : Key → Key → Ordering :=
  compareLex (compareOn Key.gvk) (compareLex (compareOn Key.namespaceName) (compareOn Key.name))

/-- The text that names a stored object in messages. -/
def text (key : Key) : String :=
  if key.namespaceName.isEmpty then key.gvk.kind ++ " " ++ key.name
  else key.gvk.kind ++ " " ++ key.namespaceName ++ "/" ++ key.name

/-- The address of the object that a container holds. -/
def ofContainer (object : Container) : Key :=
  ⟨object.gvk, object.namespaceName, object.name⟩

end Key

instance : Ord Key := ⟨Key.order⟩

/-- Keys that neither precedes are the same. -/
theorem Key.eq_of_order_eq {left right : Key} (h : Key.order left right = .eq) : left = right := by
  simp only [order, compareLex, Ordering.then_eq_eq, compareOn, Std.compare_eq_iff_eq] at h
  obtain ⟨hgvk, hnamespace, hname⟩ := h
  cases left
  cases right
  simp_all

instance : Std.TransCmp Key.order := by unfold Key.order; infer_instance

instance : Std.LawfulEqCmp Key.order where
  compare_self := Std.ReflCmp.compare_self
  eq_of_compare := Key.eq_of_order_eq

instance : Std.TransOrd Key := inferInstanceAs (Std.TransCmp Key.order)

instance : Std.LawfulEqOrd Key := inferInstanceAs (Std.LawfulEqCmp Key.order)

end ClusterObjects
