import ClusterObjects.Watch.Bridge

/-! # Sinks with limits

A sink that takes bytes in pieces, fails or blocks after a number of bytes,
fails at a flush, or cancels the request during one; and the bridge run over a
list of queued events against such a sink until nothing more happens.
-/

namespace ClusterObjects

/-- The limits of a sink. -/
structure Sink where
  /-- The most bytes that one write takes. -/
  chunk : Option Nat
  /-- A write fails once this many bytes are in. -/
  failAt : Option Nat
  /-- A write blocks forever once this many bytes are in. -/
  blockAt : Option Nat
  /-- The flush that fails, counted from one. -/
  failFlush : Option Nat
  /-- The flush during which the request is cancelled, counted from one. -/
  cancelAfter : Option Nat

namespace Sink

/-- The sink without limits. -/
def unlimited : Sink := ⟨none, none, none, none, none⟩

/-- The smaller of a number and an optional bound. -/
def cap (bound : Option Nat) (n : Nat) : Nat := (bound.map fun b => min b n).getD n

/-- What the sink does with a write of some bytes when others are in. -/
def write (sink : Sink) (inside offered : Nat) : Bridge.Write :=
  let reached (bound : Option Nat) : Bool := (bound.map fun b => decide (b ≤ inside)).getD false
  if reached sink.failAt then .failed
  else if reached sink.blockAt then .blocked
  else
    .took (cap sink.chunk (cap (sink.failAt.map (· - inside))
      (cap (sink.blockAt.map (· - inside)) offered)))

/-- What the sink does with its next flush. -/
def flush (sink : Sink) (before : Nat) : Bridge.Flush :=
  if sink.failFlush = some (before + 1) then .failed else .done

def moment (sink : Sink) (cancelled : Bool) (queue : List Event) (state : Bridge.State) :
    Bridge.Moment :=
  { cancelled
    offer := match queue with
      | event :: _ => .event event
      | [] => .nothing
    write := sink.write state.written.length (match state.phase with
      | .writing rest _ => rest.length
      | _ => 0)
    flush := sink.flush state.flushes }

/-- Run a bridge over queued events until it ends or has to wait, at most a number
of steps; also tells whether the request has been cancelled. -/
def drive (sink : Sink) (payload : Bool) :
    Nat → Bool → List Event → Bridge.State → Bool × Bridge.State
  | 0, cancelled, _, state => (cancelled, state)
  | fuel + 1, cancelled, queue, state =>
    let moment := sink.moment cancelled queue state
    let next := Bridge.step payload moment state
    match state.phase with
    | .ended _ => (cancelled, state)
    | .waiting =>
      match queue, next.phase with
      | _ :: rest, .writing .. => drive sink payload fuel cancelled rest next
      | _, .ended _ => (cancelled, next)
      | _, _ => (cancelled, next)
    | .writing .. =>
      if moment.write = .blocked then (cancelled, next)
      else drive sink payload fuel cancelled queue next
    | .flushing _ =>
      let cancelled := cancelled || sink.cancelAfter == some (state.flushes + 1)
      drive sink payload fuel cancelled queue next

/-- A bound on the steps of a run: every byte and every flush of every frame. -/
def stepsFor (payload : Bool) (queue : List Event) : Nat :=
  queue.foldl (fun steps event => steps + 4 * (Frame.encode payload event).length + 4) 2

end Sink

end ClusterObjects
