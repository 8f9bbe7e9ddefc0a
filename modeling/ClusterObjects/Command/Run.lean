import ClusterObjects.Command.Arguments
import ClusterObjects.Command.Seed
import ClusterObjects.Command.Table
import ClusterObjects.Command.Target
import ClusterObjects.Store.Hub
import ClusterObjects.Text.Utf8
import ClusterObjects.Yaml.Printer

/-! # Running a command

What a command does to a store and what it prints. A seed is planted before the
command runs, and if that fails the command does not run.
-/

namespace ClusterObjects

/-- What a command prints, and the code with which the program ends. -/
structure Report where
  code : Nat
  out : String
  err : String

namespace Report

def success (out err : String) : Report := ⟨0, out, err⟩

def failure (error : CommandError) : Report := ⟨1, "", error.report⟩

/-- How the program is called. -/
def usage : String :=
  "Usage: kapisctl [-o human|json] [--ns NAMESPACE] [--memory] [--seed FILE] COMMAND\n" ++
  "Commands: resources | ls RESOURCE | get RESOURCE NAME | delete RESOURCE NAME | " ++
  "watch RESOURCE\n"

/-- The report on arguments that ask for no command. -/
def ofStop : UsageStop → Report
  | .wrong => ⟨2, "", usage⟩
  | .help => success usage ""
  | .version => success "kapisctl 0.1.0\n" ""

end Report

/-- What the program sees of its surroundings: the texts of files, or why they
cannot be read; the time; what the store stamps on new objects; and how watches are
configured. -/
structure Surroundings where
  fileText : String → Except String String
  now : Instant
  stamps : Nat → Stamp
  queueCapacity : Nat
  payload : Bool

namespace Invocation

variable {σ : Type}

/-- A request of the façade as part of a command. -/
def request {α : Type} (request : FacadeM σ α) : CommandM σ α := fun store =>
  match request store with
  | (.ok result, store) => (.ok result, store)
  | (.error e, store) => (.error (.refused e), store)

/-- A computation that does not look at the store, as part of a command. -/
def computed {α : Type} (result : Except CommandError α) : CommandM σ α := fun store =>
  (result, store)

variable [ObjectStore σ] [WatchHost σ]

/-- What a watch prints until it is interrupted. -/
def watchText (payload : Bool) (number : Nat) : CommandM σ String := fun store =>
  match WatchHost.stream payload store number with
  | some (_, written, store) => (.ok (String.ofList (Text.decodeUtf8 written)), store)
  | none => (.ok "", store)

/-- What the command prints: its results and its remarks. -/
def perform (invocation : Invocation) (registry : Registry) (surroundings : Surroundings) :
    CommandM σ (String × String) := do
  let namespaceName := invocation.options.namespaceName
  let output := invocation.options.output
  match invocation.command with
  | .resources =>
    return match output with
      | .human => (Table.resources registry, "")
      | .json => ((Table.resourcesJson registry).renderIndented ++ "\n", "")
  | .list target flags =>
    let gvr ← computed (registry.target target)
    let query ← computed flags.toQuery
    let listing ← request (Facade.list gvr namespaceName query)
    return match output with
      | .human =>
        (Table.objects surroundings.now listing.items,
          "total: " ++ Table.number listing.total ++ "\n")
      | .json => (listing.document.renderIndented ++ "\n", "")
  | .get target name =>
    let gvr ← computed (registry.target target)
    let object ← request (Facade.fetch gvr namespaceName name)
    return match output with
      | .human => (Yaml.render object.document, "")
      | .json => (object.document.renderIndented ++ "\n", "")
  | .delete target name =>
    let gvr ← computed (registry.target target)
    request (Facade.delete gvr namespaceName name)
    return ("deleted " ++ gvr.resource ++ " " ++ name ++ "\n", "")
  | .watch target selector =>
    let gvr ← computed (registry.target target)
    let number ← request (Facade.watch gvr namespaceName selector)
    let text ← watchText surroundings.payload number
    return (text, "")

/-- Plant the seed, if there is one. -/
def plantSeed (invocation : Invocation) (registry : Registry) (surroundings : Surroundings) :
    CommandM σ Unit := do
  match invocation.options.seed with
  | none => pure ()
  | some path =>
    match surroundings.fileText path with
    | .ok text =>
      let _ ← Seed.plant registry invocation.options.namespaceName text
    | .error cause => throw (.readingSeed path cause)

def run (invocation : Invocation) (registry : Registry) (surroundings : Surroundings)
    (store : σ) : Report :=
  let whole : CommandM σ (String × String) := do
    invocation.plantSeed registry surroundings
    invocation.perform registry surroundings
  match (whole store).1 with
  | .ok (out, err) => .success out err
  | .error e => .failure e

end Invocation

/-- What the program reports on its arguments. Only a store in memory can be served. -/
def Report.ofArguments (surroundings : Surroundings) (arguments : List String) : Report :=
  match Arguments.read arguments with
  | .error reason => .ofStop reason
  | .ok invocation =>
    if invocation.options.inMemory then
      invocation.run .builtin surroundings
        (Hub.ofStore (.ofRegistry .builtin surroundings.stamps) surroundings.queueCapacity)
    else .failure .noCluster

end ClusterObjects
