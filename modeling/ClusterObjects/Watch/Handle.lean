import ClusterObjects.Watch.Channel
import ClusterObjects.Watch.Sink

/-! # Watches in the hands of a client

A client holds the receiver of a watch and a handle that stops its producer. The
handle fires at most once: when the client cancels, or when it is dropped.
-/

namespace ClusterObjects

/-- A watch as its client holds it. -/
structure Watch where
  channel : Channel
  armed : Bool

namespace Watch

/-- A watch that has just been opened. -/
def ofChannel (channel : Channel) : Watch := ⟨channel, true⟩

/-- Let the producer run until it has to wait or ends. -/
def settle (watch : Watch) : Watch := { watch with channel := watch.channel.settle }

/-- The source yields an item. -/
def publish (watch : Watch) (item : Option Event) : Watch :=
  { watch with channel := watch.channel.publish item }

/-- Fire the stop handle, unless it has fired before; also tells whether it fired. -/
def cancel (watch : Watch) : Bool × Watch :=
  if watch.armed then (true, ⟨watch.channel.stop, false⟩) else (false, watch)

def dropReceiver (watch : Watch) : Watch := { watch with channel := watch.channel.dropReceiver }

def drop (watch : Watch) : Bool × Watch := watch.dropReceiver.cancel

/-- Take everything that comes. -/
def drain (watch : Watch) : List Event × Watch :=
  let (events, channel) := watch.channel.drain
  (events, { watch with channel })

/-- The moment that an unlimited sink and the end of a watch offer to a bridge. -/
def closingMoment (closed : Bool) : Bridge.Moment :=
  { cancelled := !closed
    offer := if closed then .closed else .nothing
    write := .blocked
    flush := .blocked }

/-- Stream the watch into an unlimited sink until nothing more comes, then cancel:
why the stream ended and what was written, whether the stop handle fired, and the
watch afterwards. -/
def stream (payload : Bool) (watch : Watch) : StreamEnd × List Nat × Bool × Watch :=
  let (events, drained) := watch.drain
  let (_, waiting) :=
    Sink.unlimited.drive payload (Sink.stepsFor payload events) false events (Bridge.start true)
  let final := Bridge.step payload (closingMoment drained.channel.isClosed) waiting
  let (fired, dropped) := drained.drop
  (final.end?.getD .cancelled, final.written, fired, dropped)

end Watch

/-- A state that keeps the watches of its clients. -/
class WatchHost (σ : Type) where
  /-- The watch with a number. -/
  watch? : σ → Nat → Option Watch
  /-- Replace the watch with a number. -/
  setWatch : σ → Nat → Watch → σ
  /-- Count a stop handle that has fired. -/
  countStop : σ → σ
  /-- Let all producers run until they have to wait or end. -/
  settle : σ → σ

namespace WatchHost

variable {σ : Type} [WatchHost σ]

/-- Carry out an operation on the watch with a number that may fire its stop handle. -/
def modify (host : σ) (number : Nat) (operation : Watch → Bool × Watch) : σ :=
  match watch? host number with
  | none => host
  | some watch =>
    let (fired, next) := operation watch
    let host := setWatch host number next
    if fired then countStop host else host

/-- Fire the stop handle of a watch. -/
def cancel (host : σ) (number : Nat) : σ := modify host number Watch.cancel

def drop (host : σ) (number : Nat) : σ := modify host number Watch.drop

def dropReceiver (host : σ) (number : Nat) : σ :=
  modify host number fun watch => (false, watch.dropReceiver)

/-- Take everything that comes from a watch; also tells whether its producer is gone. -/
def drain (host : σ) (number : Nat) : Option (List Event × Bool × σ) :=
  (watch? host number).map fun watch =>
    let (events, next) := watch.drain
    (events, next.channel.isClosed, setWatch host number next)

/-- Stream a watch until nothing more comes, then cancel. -/
def stream (payload : Bool) (host : σ) (number : Nat) : Option (StreamEnd × List Nat × σ) :=
  (watch? host number).map fun watch =>
    let (reason, written, fired, next) := watch.stream payload
    let host := setWatch host number next
    (reason, written, if fired then countStop host else host)

end WatchHost

end ClusterObjects
