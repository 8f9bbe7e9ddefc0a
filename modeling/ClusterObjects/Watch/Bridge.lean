import ClusterObjects.Text.Base64
import ClusterObjects.Watch.Frame

/-! # The watch bridge

The bridge writes the frames of a watch to a sink, one after another, until the
producer closes the watch, a write fails or the request is cancelled; then it
releases the receiver and fires the stop handle.

The bridge is a machine that takes one step at a time. Each step is given what
its surroundings offer at that moment: whether the request is cancelled, what
the watch yields, and what the sink does with a write or a flush. Cancellation
is looked at when the bridge waits for an event, when it turns to a new frame,
and whenever a write or a flush that had to wait is taken up again; it wins over
anything else that is ready then. What the bridge does is recorded in order.
-/

namespace ClusterObjects

/-- Why a stream ended. None of these is an error. -/
inductive StreamEnd where
  | producerClosed
  | peerGone
  | cancelled
deriving DecidableEq, Inhabited

/-- The name of a stream's end. -/
def StreamEnd.text : StreamEnd → String
  | .producerClosed => "producer_closed"
  | .peerGone => "peer_gone"
  | .cancelled => "cancelled"

namespace Bridge

/-- What a watch yields when it is asked for an event. -/
inductive Offer where
  | event (event : Event)
  | closed
  | nothing

/-- What a sink does with a write. -/
inductive Write where
  | took (count : Nat)
  | failed
  | blocked
deriving DecidableEq

/-- What a sink does with a flush. -/
inductive Flush where
  | done
  | failed
  | blocked
deriving DecidableEq

/-- What the surroundings offer at one moment. -/
structure Moment where
  cancelled : Bool
  offer : Offer
  write : Write
  flush : Flush

/-- What the bridge has done, as its surroundings see it. -/
inductive Effect where
  | received
  | wrote (bytes : List Nat)
  | writeFailed
  | flushed
  | flushFailed
  | released
  | stopped
deriving DecidableEq

/-- Where the bridge stands. While it writes or flushes it knows whether it is about
to look at the cancellation again. -/
inductive Phase where
  | waiting
  | writing (rest : List Nat) (polling : Bool)
  | flushing (polling : Bool)
  | ended (reason : StreamEnd)
deriving DecidableEq

/-- The state of the bridge: where it stands, what it has done, and whether its stop
handle still has something to fire. -/
structure State where
  phase : Phase
  effects : List Effect
  armed : Bool
deriving DecidableEq

/-- The bridge before its first step. -/
def start (armed : Bool) : State := ⟨.waiting, [], armed⟩

/-- The bridge with another effect recorded, standing somewhere else. -/
def State.move (state : State) (phase : Phase) (effects : List Effect) : State :=
  { state with phase, effects := state.effects ++ effects }

/-- The end of the bridge: the receiver is released, then the stop handle fires if
it has not fired before. -/
def State.finish (state : State) (reason : StreamEnd) (effects : List Effect) : State :=
  { phase := .ended reason
    effects := state.effects ++ effects ++ .released :: (if state.armed then [.stopped] else [])
    armed := false }

/-- One step of the bridge, with payloads on or off. -/
def step (payload : Bool) (moment : Moment) (state : State) : State :=
  match state.phase with
  | .ended _ => state
  | .waiting =>
    if moment.cancelled then state.finish .cancelled []
    else
      match moment.offer with
      | .nothing => state
      | .closed => state.finish .producerClosed []
      | .event event =>
        state.move (.writing (Text.utf8Bytes (Frame.encode payload event)) true) [.received]
  | .writing rest polling =>
    if polling && moment.cancelled then state.finish .cancelled []
    else
      match moment.write with
      | .blocked => state.move (.writing rest true) []
      | .failed => state.finish .peerGone [.writeFailed]
      | .took 0 => state.finish .peerGone [.wrote []]
      | .took count =>
        let left := rest.drop count
        state.move (if left.isEmpty then .flushing false else .writing left false)
          [.wrote (rest.take count)]
  | .flushing polling =>
    if polling && moment.cancelled then state.finish .cancelled []
    else
      match moment.flush with
      | .blocked => state.move (.flushing true) []
      | .failed => state.finish .peerGone [.flushFailed]
      | .done => state.move .waiting [.flushed]

/-- The bridge after a sequence of moments. -/
def run (payload : Bool) (moments : List Moment) (state : State) : State :=
  moments.foldl (fun state moment => step payload moment state) state

namespace State

/-- The bytes that the sink has taken. -/
def written (state : State) : List Nat :=
  state.effects.flatMap fun
    | .wrote bytes => bytes
    | _ => []

/-- The number of times that an effect of some sort occurred. -/
def count (state : State) (sort : Effect → Bool) : Nat := state.effects.countP sort

/-- The number of writes that the sink took. -/
def writes (state : State) : Nat :=
  state.count fun
    | .wrote _ => true
    | _ => false

/-- The number of flushes, failed ones included. -/
def flushes (state : State) : Nat := state.count fun e => e == .flushed || e == .flushFailed

/-- The number of times that the stop handle fired. -/
def stops (state : State) : Nat := state.count (· == .stopped)

/-- Whether the receiver has been released. -/
def isReleased (state : State) : Bool := state.effects.contains .released

/-- Why the bridge ended, if it has. -/
def end? (state : State) : Option StreamEnd :=
  match state.phase with
  | .ended reason => some reason
  | _ => none

end State

end Bridge

end ClusterObjects
