/-! # Filter and sort fields

What a filter of a list query looks at, and what the results are ordered by. A
filter key that names no field is kept as it is; no object ever passes it.
-/

namespace ClusterObjects

/-- What a filter looks at. -/
inductive Field where
  | names
  | name
  | uid
  | namespaceName
  | ownerReference
  | ownerKind
  | label
  | annotated
  | fieldSelector
  | other (key : String)
deriving DecidableEq, Inhabited

namespace Field

/-- The field that a filter key names. -/
def ofKey (key : String) : Field :=
  if key = "names" then .names
  else if key = "name" then .name
  else if key = "uid" then .uid
  else if key = "namespace" then .namespaceName
  else if key = "ownerReference" then .ownerReference
  else if key = "ownerKind" then .ownerKind
  else if key = "label" then .label
  else if key = "annotation" then .annotated
  else if key = "fieldSelector" then .fieldSelector
  else .other key

def key : Field → String
  | .names => "names"
  | .name => "name"
  | .uid => "uid"
  | .namespaceName => "namespace"
  | .ownerReference => "ownerReference"
  | .ownerKind => "ownerKind"
  | .label => "label"
  | .annotated => "annotation"
  | .fieldSelector => "fieldSelector"
  | .other key => key

/-- The place of a field among the filters; unknown keys come last. -/
def rank : Field → Nat
  | .names => 0
  | .name => 1
  | .uid => 2
  | .namespaceName => 3
  | .ownerReference => 4
  | .ownerKind => 5
  | .label => 6
  | .annotated => 7
  | .fieldSelector => 8
  | .other _ => 9

/-- Whether the key of the field names something an object has. -/
def isKnown : Field → Bool
  | .other _ => false
  | _ => true

/-- Known fields in the order of their declaration, then the others by key. -/
def order : Field → Field → Ordering := compareLex (compareOn rank) (compareOn key)

/-- The key of the field that a key names is that key. -/
theorem key_ofKey (text : String) : (ofKey text).key = text := by
  unfold ofKey
  repeat' split
  all_goals first | (rename_i h; exact h.symm) | rfl

end Field

instance : Ord Field := ⟨Field.order⟩

/-- Fields that neither precedes are the same. -/
theorem Field.eq_of_order_eq {left right : Field} (h : Field.order left right = .eq) :
    left = right := by
  simp only [order, compareLex, Ordering.then_eq_eq, compareOn, Std.compare_eq_iff_eq] at h
  obtain ⟨hrank, hkey⟩ := h
  cases left <;> cases right <;> simp_all [rank, key]

instance : Std.TransCmp Field.order := by unfold Field.order; infer_instance

instance : Std.LawfulEqCmp Field.order where
  compare_self := Std.ReflCmp.compare_self
  eq_of_compare := Field.eq_of_order_eq

instance : Std.TransOrd Field := inferInstanceAs (Std.TransCmp Field.order)

instance : Std.LawfulEqOrd Field := inferInstanceAs (Std.LawfulEqCmp Field.order)

/-- What results are ordered by. -/
inductive SortField where
  | name
  | createTime
deriving DecidableEq, Inhabited

namespace SortField

/-- The sort field that a text names; any text but one names the creation time. -/
def ofKey (key : String) : SortField := if key = "name" then .name else .createTime

/-- The text that names a sort field. -/
def key : SortField → String
  | .name => "name"
  | .createTime => "createTime"

end SortField

end ClusterObjects
