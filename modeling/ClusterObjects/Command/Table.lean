import ClusterObjects.Registry
import ClusterObjects.Time.Instant

/-! # Tables

What people see of resources and of listings: columns of a fixed least width,
counted in characters, and the age of an object in its two largest units.
-/

namespace ClusterObjects

namespace Table

/-- A text with spaces behind it up to a width. -/
def padRight (width : Nat) (text : String) : String :=
  String.ofList (text.toList ++ List.replicate (width - text.length) ' ')

/-- A line of three columns. -/
def line (first second : Nat) (a b c : String) : String :=
  padRight first a ++ " " ++ padRight second b ++ " " ++ c ++ "\n"

def number (n : Nat) : String := String.ofList (Text.decimal n)

/-- A length of time in its two largest units, or in seconds below a minute. -/
def duration (seconds : Nat) : String :=
  let days := seconds / 86400
  let hours := seconds % 86400 / 3600
  let minutes := seconds % 3600 / 60
  if 0 < days then number days ++ "d" ++ number hours ++ "h"
  else if 0 < hours then number hours ++ "h" ++ number minutes ++ "m"
  else if 0 < minutes then number minutes ++ "m"
  else number (seconds % 60) ++ "s"

/-- The time since an object was created; one that lies ahead counts as now. -/
def age (now : Instant) (created : Option Instant) : String :=
  match created with
  | some created => duration (created.secondsUntil now).toNat
  | none => "-"

/-- A text, or a dash in place of an empty one. -/
def orDash (text : String) : String := if text.isEmpty then "-" else text

def objects (now : Instant) (items : List Container) : String :=
  line 20 40 "NAMESPACE" "NAME" "AGE" ++
    String.join (items.map fun object =>
      line 20 40 (orDash object.namespaceName) object.name (age now object.metadata.created))

def resources (registry : Registry) : String :=
  line 34 48 "NAME" "GROUP/VERSION/RESOURCE" "KIND" ++
    String.join (registry.entries.map fun entry =>
      line 34 48 entry.name entry.gvr.text ((entry.kind.map Gvk.kind).getD "-"))

def resourcesJson (registry : Registry) : Json :=
  .arr (registry.entries.map fun entry => Json.ofFields [
    ("name", .str entry.name), ("group", .str entry.gvr.group),
    ("version", .str entry.gvr.version), ("resource", .str entry.gvr.resource),
    ("kind", .ofText? (entry.kind.map Gvk.kind)), ("typed", .bool entry.typed.isSome)])

end Table

end ClusterObjects
