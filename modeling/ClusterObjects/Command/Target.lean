import ClusterObjects.Command.Error
import ClusterObjects.Registry

/-! # Targets

How a resource is named on the command line: by its short name, by version and
resource for the core group, or by group, version and resource.
-/

namespace ClusterObjects

/-- The resource that a text names. -/
def Registry.target (registry : Registry) (text : String) : Except CommandError Gvr :=
  match (Text.pieces '/' text.toList).map String.ofList with
  | [name] =>
    match registry.lookup name with
    | .ok gvr => .ok gvr
    | .error e => .error (.refused (.ofObjectError e))
  | [version, resource] => .ok ⟨"", version, resource⟩
  | [group, version, resource] => .ok ⟨group, version, resource⟩
  | _ => .error (.badTarget text)

end ClusterObjects
