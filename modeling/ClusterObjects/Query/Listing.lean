import ClusterObjects.Query.Filter

/-! # Listings

A listing is what a query gives on a list of things: those that pass all
filters, stably ordered, cut to the wanted page, together with the number that
passed. How things pass a filter and which of two outranks the other are
parameters; `listObjects` fixes them for objects and leaves out objects without
a name.
-/

namespace ClusterObjects

/-- The page of a listing and the number of all its items. -/
structure Listing (α : Type) where
  items : List α
  total : Nat

namespace Listing

variable {α : Type}

/-- Put a thing behind those that it does not precede, counted from the end: the
given list is in reverse order. -/
def insertBack (precedes : α → α → Bool) (x : α) : List α → List α
  | [] => [x]
  | y :: rest =>
    if precedes x y then y :: insertBack precedes x rest else x :: y :: rest

/-- The things in order. A thing stays behind every earlier one that it does not
precede, so ties keep their order. -/
def sort (precedes : α → α → Bool) (things : List α) : List α :=
  (things.foldl (fun sorted x => insertBack precedes x sorted) []).reverse

/-- Whether one thing precedes another in the order of a query: in ascending order
the outranked one comes first, in descending order the outranking one. -/
def precedes (outranks : α → α → SortField → Bool) (query : Query) (left right : α) : Bool :=
  if query.ascending then
    !outranks left right query.sortBy && outranks right left query.sortBy
  else !outranks right left query.sortBy && outranks left right query.sortBy

/-- The things that pass every filter of a query. -/
def passing (accepts : α → Field → String → Bool) (query : Query) (things : List α) : List α :=
  things.filter fun thing => query.filters.all fun (field, value) => accepts thing field value

def of (outranks : α → α → SortField → Bool) (accepts : α → Field → String → Bool)
    (query : Query) (things : List α) : Listing α :=
  let sorted := sort (precedes outranks query) (passing accepts query things)
  let total := sorted.length
  let (start, stop) := pageRange query.page total
  ⟨(sorted.take stop).drop start, total⟩

/-- Putting a thing in place adds it and nothing else. -/
theorem insertBack_perm (precedes : α → α → Bool) (x : α) (sorted : List α) :
    (insertBack precedes x sorted).Perm (x :: sorted) := by
  induction sorted with
  | nil => exact List.Perm.refl _
  | cons y rest ih =>
    unfold insertBack
    split
    · exact (ih.cons y).trans (List.Perm.swap x y rest)
    · exact List.Perm.refl _

/-- Putting things in place one after another adds them and nothing else. -/
theorem foldl_insertBack_perm (precedes : α → α → Bool) (things sorted : List α) :
    (things.foldl (fun sorted x => insertBack precedes x sorted) sorted).Perm
      (things ++ sorted) := by
  induction things generalizing sorted with
  | nil => exact List.Perm.refl _
  | cons x rest ih =>
    refine (ih (insertBack precedes x sorted)).trans ?_
    exact ((insertBack_perm precedes x sorted).append_left rest).trans List.perm_middle

/-- Sorting only moves things. -/
theorem sort_perm (precedes : α → α → Bool) (things : List α) :
    (sort precedes things).Perm things := by
  unfold sort
  refine (List.reverse_perm _).trans ?_
  have hfold := foldl_insertBack_perm precedes things []
  rwa [List.append_nil] at hfold

end Listing

/-- What a query gives on a list of objects, objects without a name included. -/
def listAll (objects : List Container) (query : Query) : Listing Container :=
  let selector := Filter.selectorOf query
  Listing.of Container.outranks (Filter.accepts selector) query objects

def Container.isNamed (object : Container) : Bool := !object.name.isEmpty

/-- What a query gives on the objects that have a name. -/
def listObjects (objects : List Container) (query : Query) : Listing Container :=
  listAll (objects.filter Container.isNamed) query

end ClusterObjects
