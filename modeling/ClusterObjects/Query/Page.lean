import ClusterObjects.Text.Integer

/-! # Pages

A page is a number, counted from one, and a limit of items per page. Its bounds
within a total are computed in 64-bit words that stop at their largest value;
this never shows, because the bounds are cut at the total anyway.
-/

namespace ClusterObjects

/-- A page of a listing. -/
structure Page where
  number : Nat
  limit : Nat
deriving DecidableEq

namespace Page

/-- A number cut at the largest word. -/
def saturate (n : Nat) : Nat := min n (Text.wordBound - 1)

/-- The number of items before the page; page zero counts as the first. -/
def offset (page : Page) : Nat := saturate ((page.number - 1) * page.limit)

/-- The positions of the first item of the page and of the first one after it. -/
def range (page : Page) (total : Nat) : Nat × Nat :=
  let start := min page.offset total
  (start, min (saturate (start + page.limit)) total)

end Page

/-- The bounds of the items to return: a page's, or all without one. -/
def pageRange (page : Option Page) (total : Nat) : Nat × Nat :=
  match page with
  | some page => page.range total
  | none => (0, total)

end ClusterObjects
