import ClusterObjects.Watch.Event

/-! # Watch channels

A watch is a producer and a receiver joined by a queue of limited length. The
producer takes items from its source one after another, passes over those that
give no event, and waits with an event in hand while the queue is full. It ends
when it is told to stop, when the receiver is gone, or when the source has ended
and nothing is left.

Every step is a function on the state of the channel, so that any interleaving
of the source, the producer, the receiver and the stop handle is a sequence of
such steps. What the steps do is told by the events still to come (`upcoming`):
the receiver takes the first of them, the source adds to their end, and the
producer leaves them as they are.
-/

namespace ClusterObjects

/-- The state of a watch. -/
structure Channel where
  /-- The items that the producer has not taken yet; some give no event. -/
  pending : List (Option Event)
  /-- The source yields nothing after the pending items. -/
  ended : Bool
  /-- A stop also ends the waiting for room in the queue. -/
  interruptible : Bool
  /-- The event that the producer holds while the queue is full. -/
  held : Option Event
  /-- The events that the receiver has not taken yet. -/
  queue : List Event
  /-- The length of the queue. -/
  capacity : Nat
  /-- The receiver exists. -/
  receiving : Bool
  /-- The stop handle has fired. -/
  stopped : Bool
  /-- The producer has not ended. -/
  running : Bool

namespace Channel

/-- A watch of a source that goes on yielding items. -/
def openEnded (capacity : Nat) : Channel :=
  { pending := [], ended := false, interruptible := true, held := none, queue := [], capacity,
    receiving := true, stopped := false, running := true }

/-- A watch of a source that yields the given items and ends. -/
def finite (capacity : Nat) (items : List (Option Event)) : Channel :=
  { pending := items, ended := true, interruptible := false, held := none, queue := [], capacity,
    receiving := true, stopped := false, running := true }

/-- The producer ends; an event in hand is lost. -/
def finish (channel : Channel) : Channel := { channel with held := none, running := false }

/-- One step of the producer; nothing if it has ended or has to wait. -/
def produce? (channel : Channel) : Option Channel :=
  if !channel.running then none
  else
    match channel.held with
    | some event =>
      if channel.stopped && channel.interruptible then some channel.finish
      else if !channel.receiving then some channel.finish
      else if channel.queue.length < channel.capacity then
        some { channel with held := none, queue := channel.queue ++ [event] }
      else none
    | none =>
      if channel.stopped then some channel.finish
      else
        match channel.pending with
        | [] => if channel.ended then some channel.finish else none
        | item :: rest => some { channel with pending := rest, held := item }

/-- Steps of the producer until it has to wait, at most a given number. -/
def produceFor : Nat → Channel → Channel
  | 0, channel => channel
  | steps + 1, channel =>
    match channel.produce? with
    | some next => produceFor steps next
    | none => channel

/-- A bound on the steps that the producer can take before it has to wait. -/
def stepsLeft (channel : Channel) : Nat := 2 * channel.pending.length + 3

/-- Let the producer run until it has to wait or ends. -/
def settle (channel : Channel) : Channel := channel.produceFor channel.stepsLeft

/-- The receiver takes the oldest event of the queue. -/
def receive? (channel : Channel) : Option (Event × Channel) :=
  match channel.queue with
  | [] => none
  | event :: rest =>
    if channel.receiving then some (event, { channel with queue := rest }) else none

/-- The receiver takes events, letting the producer run on, until nothing more
comes; at most a given number of times. -/
def drainFor : Nat → Channel → List Event × Channel
  | 0, channel => ([], channel)
  | steps + 1, channel =>
    let settled := channel.settle
    match settled.receive? with
    | none => ([], settled)
    | some (event, next) =>
      let (events, final) := drainFor steps next
      (event :: events, final)

/-- The receiver takes everything that comes. -/
def drain (channel : Channel) : List Event × Channel :=
  channel.drainFor (channel.queue.length + channel.pending.length + 2)

/-- Whether the receiver learns that nothing more will come. -/
def isClosed (channel : Channel) : Bool := !channel.running && channel.queue.isEmpty

/-- The receiver goes away, and what is queued with it. -/
def dropReceiver (channel : Channel) : Channel :=
  { channel with receiving := false, queue := [] }

/-- The stop handle fires. -/
def stop (channel : Channel) : Channel := { channel with stopped := true }

/-- The number of items that a source keeps for a producer that falls behind. -/
def backlog : Nat := 1024

/-- The source yields an item. A producer that has fallen behind loses the oldest. -/
def publish (channel : Channel) (item : Option Event) : Channel :=
  if channel.running then
    let pending := channel.pending ++ [item]
    -- While the backlog has room the difference is zero and nothing is lost.
    { channel with pending := pending.drop (pending.length - backlog) }
  else channel

/-- The length of the queues of watches unless it is configured. -/
def defaultCapacity : Nat := 256

/-- The length of the queues of watches, from the configured text: a positive number,
or the default. -/
def capacityOf (configured : Option String) : Nat :=
  match configured.bind fun text => Text.word? text.toList with
  | some n => if 0 < n then n else defaultCapacity
  | none => defaultCapacity

/-- The events that reach the receiver if nothing intervenes. -/
def upcoming (channel : Channel) : List Event :=
  channel.queue ++ channel.held.toList ++ channel.pending.filterMap id

/-- Taking an event takes the first of those to come. -/
theorem upcoming_of_receive? {channel next : Channel} {event : Event}
    (h : channel.receive? = some (event, next)) : channel.upcoming = event :: next.upcoming := by
  unfold receive? at h
  split at h
  next => contradiction
  next first rest hqueue =>
    split at h
    next =>
      obtain ⟨rfl, rfl⟩ := Prod.mk.inj (Option.some.inj h)
      unfold upcoming
      rw [hqueue]
      rfl
    next => contradiction

/-- A producer that is not told to end neither loses an event nor changes their order. -/
theorem upcoming_of_produce? {channel next : Channel} (h : channel.produce? = some next)
    (hrunning : next.running = true) : next.upcoming = channel.upcoming := by
  unfold produce? at h
  split at h
  next => contradiction
  next =>
    split at h
    next event hheld =>
      split at h
      next =>
        obtain rfl := Option.some.inj h
        simp [finish] at hrunning
      next =>
        split at h
        next =>
          obtain rfl := Option.some.inj h
          simp [finish] at hrunning
        next =>
          split at h
          next =>
            obtain rfl := Option.some.inj h
            simp [upcoming, hheld]
          next => contradiction
    next hheld =>
      split at h
      next =>
        obtain rfl := Option.some.inj h
        simp [finish] at hrunning
      next =>
        split at h
        next =>
          split at h
          next =>
            obtain rfl := Option.some.inj h
            simp [finish] at hrunning
          next => contradiction
        next item rest hpending =>
          obtain rfl := Option.some.inj h
          cases item <;> simp [upcoming, hheld, hpending]

/-- An item that a source yields in time comes after all others. -/
theorem upcoming_publish {channel : Channel} (hrunning : channel.running = true)
    (hroom : channel.pending.length < backlog) (item : Option Event) :
    (channel.publish item).upcoming = channel.upcoming ++ item.toList := by
  have hdrop : channel.pending.length + 1 - backlog = 0 := by omega
  unfold publish upcoming
  rw [if_pos hrunning]
  cases item <;> simp [hdrop]

end Channel

end ClusterObjects
