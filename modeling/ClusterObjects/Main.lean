import ClusterObjects.Command.Run
import ClusterObjects.Identity.Uid
import Std.Async.Signal
import Std.Time.DateTime.Timestamp

/-! # The program

The program reads its surroundings, reports on its arguments and ends with the
code of the report. A watch that was opened waits to be interrupted first.
-/

namespace ClusterObjects.Program

/-- Why a file cannot be read. -/
def reason : IO.Error → String
  | .noFileOrDirectory _ code details
  | .permissionDenied _ code details
  | .inappropriateType _ code details => details ++ " (os error " ++ toString code ++ ")"
  | .otherError code details => details ++ " (os error " ++ toString code ++ ")"
  | error => toString error

/-- The text of a file, or why it cannot be read. -/
def fileText (path : String) : IO (Except String String) := do
  try
    let file ← IO.FS.Handle.mk path .read
    match String.fromUTF8? (← file.readBinToEnd) with
    | some text => return .ok text
    | none => return .error "stream did not contain valid UTF-8"
  catch error => return .error (reason error)

/-- A random number of so many bits. -/
def randomBits (count : Nat) : IO Nat := do
  let bytes ← IO.getRandomBytes (USize.ofNat (count / 8 + 1))
  return bytes.foldl (fun bits byte => bits * 256 + byte.toNat) 0 % Nat.pow 2 count

/-- What the program sees of its surroundings, given the path of the seed. -/
def surroundings (seed : Option String) : IO Surroundings := do
  let seedText ← match seed with
    | some path => fileText path
    | none => pure (.ok "")
  let now : Instant := .ofUnixSeconds (← Std.Time.Timestamp.now).toSecondsSinceUnixEpoch.val
  let bits ← randomBits Uid.freeBits
  let capacity := Channel.capacityOf (← IO.getEnv "KAPIS_WATCH_QUEUE_CAP")
  let payload := Frame.wantsPayload (← IO.getEnv "KAPIS_WATCH_EVENT_PAYLOAD")
  return ⟨fun _ => seedText, now, fun n => ⟨Uid.ofBits (bits + n), now⟩, capacity, payload⟩

/-- Wait until the program is interrupted. -/
def awaitInterrupt : IO Unit := do
  let waiter ← Std.Async.Signal.Waiter.mk .sigint false
  let _ ← IO.wait (← waiter.wait)

end ClusterObjects.Program

open ClusterObjects in
def main (arguments : List String) : IO UInt32 := do
  let invocation := Arguments.read arguments
  let seed := match invocation with
    | .ok invocation => invocation.options.seed
    | .error _ => none
  let report := Report.ofArguments (← Program.surroundings seed) arguments
  IO.print report.out
  (← IO.getStdout).flush
  IO.eprint report.err
  match invocation with
  | .ok ⟨_, .watch ..⟩ => if report.code = 0 then Program.awaitInterrupt
  | _ => pure ()
  return UInt32.ofNat report.code
