import ClusterObjects.Json.Reader
import ClusterObjects.Remote.Http
import ClusterObjects.Schema.Shape
import ClusterObjects.Store.Error

/-! # Failures of remote requests

Why a request to a cluster gives no result. A response with an error status
carries a report; its code decides which store error it becomes, and a body that
is no report is quoted in one made up for it.
-/

namespace ClusterObjects

/-- What a cluster reports about a request that it refuses. -/
structure StatusReport where
  status : String
  message : String
  reason : String
  code : Nat
deriving DecidableEq

namespace StatusReport

/-- A text member of a report; it may be absent, but must be a text. -/
def textMember (fields : Json.Fields) (key : String) : Except DecodeError String :=
  match Entries.get? fields key with
  | none => .ok ""
  | some (.str text) => .ok text
  | some value => .error (.invalidType value "a string")

def codeMember (fields : Json.Fields) : Except DecodeError Nat :=
  match Entries.get? fields "code" with
  | none => .error (.missingMember "code")
  | some (.num (.integer n)) =>
    if 0 ≤ n ∧ n < 65536 then .ok n.toNat else .error (.invalidValue n "u16")
  | some value => .error (.invalidType value "u16")

def decode (value : Json) : Except DecodeError StatusReport :=
  match value with
  | .obj fields => do
    let code ← codeMember fields
    let message ← textMember fields "message"
    let reason ← textMember fields "reason"
    if (Entries.get? fields "status").isNone then .error (.missingMember "status")
    else
      let status ← textMember fields "status"
      .ok ⟨status, message, reason, code⟩
  | value => .error (.invalidType value "ErrorResponse")

/-- The report of a response: its body, or one that quotes a body that is none. -/
def ofResponse (response : HttpResponse) : StatusReport :=
  let stated := match Json.read response.body with
    | .ok value => (decode value).toOption
    | .error _ => none
  stated.getD
    { status := response.statusLine
      message := String.ofList (Text.quote response.body)
      reason := "Failed to parse error data"
      code := response.status }

def text (report : StatusReport) : String :=
  report.message ++ ": " ++ report.reason ++ " (ErrorResponse \x7b status: " ++
    Text.quoted report.status ++ ", message: " ++ Text.quoted report.message ++ ", reason: " ++
    Text.quoted report.reason ++ ", code: " ++ String.ofList (Text.decimal report.code) ++
    " \x7d)"

end StatusReport

/-- Why a request gives no result. -/
inductive RemoteFault where
  | refused (report : StatusReport)
  | undecodable (reason : String)
  | emptyGroup (group : String)
  | namelessPath

namespace RemoteFault

def message : RemoteFault → String
  | .refused report => "ApiError: " ++ report.text
  | .undecodable reason => "Error deserializing response: " ++ reason
  | .emptyGroup group => "Error from discovery: Empty Api Group: " ++ group
  | .namelessPath =>
    "failed to build request: failed to validate request: A non-empty name is required"

/-- The store error for a fault of a request about something. -/
def toStoreError (what : String) (fault : RemoteFault) : StoreError :=
  let other := StoreError.backend (what ++ ": " ++ fault.message)
  match fault with
  | .refused report =>
    let text := what ++ ": " ++ report.message
    if report.code = 404 then .notFound text
    else if report.code = 409 then .conflict text
    else if report.code = 400 ∨ report.code = 422 then .invalid text
    else other
  | _ => other

end RemoteFault

end ClusterObjects
