import ClusterObjects.Entries
import ClusterObjects.Query.Field
import ClusterObjects.Query.Page
import ClusterObjects.Text.Blank
import ClusterObjects.Text.Form

/-! # List queries

A query says which objects pass (one value per filter field and a label
selector for the store), how they are ordered, and which page of them is
wanted. A query is read from key and value pairs, of which the first with a key
counts; a few keys have a meaning of their own and every other one is a filter.
-/

namespace ClusterObjects

/-- Filters, order and page of a list request. -/
structure Query where
  filters : Entries Field String
  sortBy : SortField
  ascending : Bool
  page : Option Page
  labelSelector : Option String
deriving DecidableEq

namespace Query

/-- The query that every object passes, the latest first. -/
def all : Query := ⟨[], .createTime, false, none, none⟩

/-- The query with one more filter, or another value for one. -/
def filter (query : Query) (field : Field) (value : String) : Query :=
  { query with filters := query.filters.insert field value }

/-- The query in another order. -/
def sort (query : Query) (sortBy : SortField) (ascending : Bool) : Query :=
  { query with sortBy, ascending }

def paginate (query : Query) (number limit : Nat) : Query :=
  { query with page := some ⟨number, limit⟩ }

def selectLabels (query : Query) (selector : String) : Query :=
  { query with labelSelector := some selector }

/-- The keys with a meaning of their own. -/
def reservedKeys : List String :=
  ["limit", "page", "ascending", "orderBy", "sortBy", "labelSelector"]

/-- A 64-bit number with white space around it at most. -/
def trimmedWord? (text : String) : Option Nat := Text.word? (Text.trim text.toList)

/-- Whether a text says yes. -/
def affirms (text : String) : Bool :=
  ["1", "t", "T", "true", "TRUE", "True"].contains (String.ofList (Text.trim text.toList))

/-- The query that key and value pairs ask for. A page is wanted exactly if the
limit is a number; the first page is the default. -/
def ofPairs (pairs : List (String × String)) : Query :=
  let first := Entries.ofFirsts pairs
  let limit := (first.get? "limit").bind trimmedWord?
  let number := ((first.get? "page").bind trimmedWord?).getD 1
  let sortKey := (first.get? "orderBy").or (first.get? "sortBy")
  let rest := first.filter fun pair => !reservedKeys.contains pair.1
  { filters := rest.foldl (fun filters (key, value) => filters.insert (Field.ofKey key) value) []
    sortBy := (sortKey.map SortField.ofKey).getD .createTime
    ascending := ((first.get? "ascending").map affirms).getD false
    page := limit.map fun limit => ⟨number, limit⟩
    labelSelector := (first.get? "labelSelector").filter fun text => !text.isEmpty }

/-- The query of a query string; one question mark in front is allowed. -/
def ofQueryString (text : String) : Query :=
  ofPairs (Text.formPairs (match text.toList with
    | '?' :: rest => rest
    | chars => chars))

end Query

end ClusterObjects
