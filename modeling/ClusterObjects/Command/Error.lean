import ClusterObjects.Facade.Error
import ClusterObjects.Yaml.Folding

/-! # Failures of a command

Why a command fails, and how a failure is reported: its wording, and the cause
below it if the wording only says what was being done.
-/

namespace ClusterObjects

/-- Why a command fails. -/
inductive CommandError where
  | refused (error : ApiError)
  | badTarget (text : String)
  | badFilter (text : String)
  | badSeed (error : Yaml.ReadError)
  | noCluster
  | seeding (gvk : Gvk) (cause : ApiError)
  | readingSeed (path cause : String)

namespace CommandError

/-- The wording of a failure. -/
def message : CommandError → String
  | .refused error => error.message
  | .badTarget text =>
    "invalid resource " ++ Text.quoted text ++ "; expected name or group/version/resource"
  | .badFilter text => "filter " ++ Text.quoted text ++ " is not key=value"
  | .badSeed error => error.message
  | .noCluster => "backend: no cluster is configured"
  | .seeding gvk _ => "seeding " ++ gvk.text
  | .readingSeed path _ => "reading seed file " ++ path

/-- The wording of the cause, if there is one below the failure. -/
def cause? : CommandError → Option String
  | .seeding _ cause => some cause.message
  | .readingSeed _ cause => some cause
  | _ => none

def indentLines (text : String) : String :=
  String.ofList <| Text.join ['\n'] <|
    (Text.pieces '\n' text.toList).map fun line => "    ".toList ++ line

def report (error : CommandError) : String :=
  "Error: " ++ error.message ++ "\n" ++
    match error.cause? with
    | some cause => "\nCaused by:\n" ++ indentLines cause ++ "\n"
    | none => ""

end CommandError

end ClusterObjects
