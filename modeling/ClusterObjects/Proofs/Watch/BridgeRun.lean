import ClusterObjects.Proofs.Watch.BridgeStep

/-! # Runs of the watch bridge

The bridge is given a sequence of events and one turn after another. In each turn the
request may be cancelled, the watch may answer with its next event, or with its end when
no event is left, and the sink may take bytes, fail or keep the bridge waiting. Any
timing of these is a sequence of turns, and any run of the bridge is one in turns.

As long as it observes no end, what the sink has taken and what is left of the frame in
hand are the frames of the events taken from the watch. Every turn in which the bridge
need not wait takes some of the work that the events are.
-/

namespace ClusterObjects.Bridge

/-- What the surroundings of the bridge do in a turn. A watch that is not ready keeps the
bridge waiting. -/
structure Turn where
  cancelled : Bool
  ready : Bool
  write : Write
  flush : Flush

/-- What the watch answers if these events are to come before the producer closes it. -/
def Turn.offer (turn : Turn) (coming : List Event) : Offer :=
  if turn.ready then
    match coming with
    | [] => .closed
    | event :: _ => .event event
  else .nothing

def Turn.moment (turn : Turn) (coming : List Event) : Moment :=
  ⟨turn.cancelled, turn.offer coming, turn.write, turn.flush⟩

/-- What a turn offers a bridge that streams these events. -/
def momentAt (events : List Event) (state : State) (turn : Turn) : Moment :=
  turn.moment (events.drop state.taken)

/-- The bridge after a turn. -/
def advance (payload : Bool) (events : List Event) (state : State) (turn : Turn) : State :=
  step payload (momentAt events state turn) state

/-- The bridge after some turns. -/
def play (payload : Bool) (events : List Event) (turns : List Turn) (state : State) : State :=
  turns.foldl (advance payload events) state

theorem play_append (payload : Bool) (events : List Event) (before later : List Turn)
    (state : State) : play payload events (before ++ later) state =
      play payload events later (play payload events before state) :=
  List.foldl_append

/-! ## A bridge at work -/

/-- The state of a bridge that has observed no end: what the sink has taken, followed by what is
left of the frame in hand, are the frames of the events taken from the watch. -/
structure Underway (payload : Bool) (events : List Event) (armed : Bool) (state : State) :
    Prop where
  running : state.phase.isEnded = false
  armed_eq : state.armed = armed
  work : ∀ effect ∈ state.effects, effect.isWork = true
  taken_le : state.taken ≤ events.length
  sent : state.written ++ state.phase.unsent = framesOf payload (events.take state.taken)
  rest_ne_nil : ∀ rest polling, state.phase = .writing rest polling → rest ≠ []
  inHand : state.phase.unsent ≠ [] → ∃ whole event,
    events.take state.taken = whole ++ [event] ∧ state.phase.unsent <:+ frame payload event

variable {payload armed : Bool} {events : List Event} {state : State} {turn : Turn}

theorem underway_start (payload : Bool) (events : List Event) (armed : Bool) :
    Underway payload events armed (start armed) :=
  ⟨rfl, rfl, by simp [start], Nat.zero_le _, rfl, by simp [start], fun h => absurd rfl h⟩

theorem Underway.phase_ne_ended (h : Underway payload events armed state) (reason : StreamEnd) :
    state.phase ≠ .ended reason := by
  intro hended
  have hrunning := h.running
  rw [hended] at hrunning
  contradiction

/-- A bridge that takes no event from the watch puts what it can of the frame in hand into the
sink and keeps the rest. -/
theorem Underway.move (h : Underway payload events armed state) {phase : Phase}
    {effects : List Effect} (hrunning : phase.isEnded = false)
    (hwork : ∀ effect ∈ effects, effect.isWork = true ∧ effect ≠ .received)
    (hsent : effects.flatMap Effect.bytes ++ phase.unsent = state.phase.unsent)
    (hrest : ∀ rest polling, phase = .writing rest polling → rest ≠ []) :
    Underway payload events armed (state.move phase effects) := by
  have hnone : effects.countP (· == .received) = 0 :=
    List.countP_eq_zero.mpr fun effect heffect => by simpa using (hwork effect heffect).2
  have htaken : (state.move phase effects).taken = state.taken := by
    rw [taken_move, hnone]
    rfl
  refine ⟨hrunning, h.armed_eq, List.forall_mem_append.mpr ⟨h.work, fun effect heffect =>
    (hwork effect heffect).1⟩, htaken ▸ h.taken_le, ?_, hrest, ?_⟩
  · rw [written_move, htaken, ← h.sent, ← hsent, List.append_assoc]
    rfl
  · intro hunsent
    have hsuffix : phase.unsent <:+ state.phase.unsent := ⟨_, hsent⟩
    obtain ⟨whole, event, hwhole, hframe⟩ := h.inHand fun hnil =>
      hunsent (List.suffix_nil.mp (hnil ▸ hsuffix))
    exact ⟨whole, event, htaken ▸ hwhole, hsuffix.trans hframe⟩

theorem coming_of_event {event : Event} (h : (momentAt events state turn).offer = .event event) :
    ∃ coming, events.drop state.taken = event :: coming := by
  change turn.offer (events.drop state.taken) = _ at h
  unfold Turn.offer at h
  split at h
  · split at h
    · contradiction
    next first coming hcoming =>
      cases h
      exact ⟨coming, hcoming⟩
  · contradiction

theorem coming_of_closed (h : (momentAt events state turn).offer = .closed) :
    turn.ready = true ∧ events.drop state.taken = [] := by
  change turn.offer (events.drop state.taken) = _ at h
  unfold Turn.offer at h
  split at h
  next hready =>
    split at h
    next hcoming => exact ⟨hready, hcoming⟩
    next => contradiction
  next => contradiction

/-- A bridge that waits for an event and gets one has the whole frame of it in hand. -/
theorem Underway.receive (h : Underway payload events armed state) (hphase : state.phase = .waiting)
    {event : Event} {coming : List Event} (hcoming : events.drop state.taken = event :: coming) :
    Underway payload events armed
      (state.move (.writing (frame payload event) true) [.received]) := by
  have htaken : (state.move (.writing (frame payload event) true) [.received]).taken =
      state.taken + 1 := taken_move ..
  have hlt : state.taken < events.length := by
    refine Nat.lt_of_not_le fun hle => ?_
    rw [List.drop_eq_nil_iff.mpr hle] at hcoming
    contradiction
  have htake : events.take (state.taken + 1) = events.take state.taken ++ [event] := by
    rw [List.take_add, hcoming]
    rfl
  refine ⟨rfl, h.armed_eq, ?_, htaken ▸ hlt, ?_, ?_, ?_⟩
  · exact List.forall_mem_append.mpr ⟨h.work, by simp [Effect.isWork]⟩
  · have hsent := h.sent
    rw [hphase] at hsent
    rw [htaken, htake, written_move, framesOf, List.flatMap_append, ← framesOf, ← hsent]
    simp [Phase.unsent, State.move, Effect.bytes]
  · rintro rest polling hwriting
    cases hwriting
    exact frame_ne_nil payload event
  · intro _
    exact ⟨_, event, htaken ▸ htake, List.suffix_rfl⟩

theorem Underway.works (h : Underway payload events armed state)
    (hquiet : ∀ reason, ¬ Observes state.phase (momentAt events state turn) reason) :
    Works payload (momentAt events state turn) state (advance payload events state turn) :=
  works_step payload h.running hquiet

/-- A bridge that observes no end goes on. -/
theorem Underway.afterTurn (h : Underway payload events armed state)
    (hquiet : ∀ reason, ¬ Observes state.phase (momentAt events state turn) reason) :
    Underway payload events armed (advance payload events state turn) := by
  have hworks := h.works hquiet
  generalize advance payload events state turn = next at hworks ⊢
  cases hworks with
  | waits => exact h
  | receives hphase hoffer =>
    obtain ⟨coming, hcoming⟩ := coming_of_event hoffer
    exact h.receive hphase hcoming
  | blocks hphase =>
    refine h.move rfl (by simp) (by simp [hphase, Phase.unsent]) ?_
    rintro _ _ ⟨⟩
    exact h.rest_ne_nil _ _ hphase
  | @writes rest polling count hphase hpositive hcount =>
    refine h.move rfl ?_ ?_ ?_
    · have htake : rest.take count ≠ [] := by
        rw [ne_eq, List.take_eq_nil_iff]
        exact not_or.mpr ⟨Nat.ne_of_gt hpositive, h.rest_ne_nil _ _ hphase⟩
      simpa [Effect.isWork] using htake
    · simp [hphase, Phase.unsent, Effect.bytes]
    · rintro _ _ ⟨⟩
      rw [ne_eq, List.drop_eq_nil_iff]
      exact Nat.not_le_of_lt hcount
  | completes hphase =>
    refine h.move rfl ?_ ?_ (by simp)
    · simpa [Effect.isWork] using h.rest_ne_nil _ _ hphase
    · simp [hphase, Phase.unsent, Effect.bytes]
  | holds hphase => exact h.move rfl (by simp) (by simp [hphase, Phase.unsent]) (by simp)
  | flushes hphase =>
    refine h.move rfl (by simp [Effect.isWork]) ?_ (by simp)
    simp [hphase, Phase.unsent, Effect.bytes]

/-- A bridge waits for an event only when the sink has all frames of those it has taken. -/
theorem Underway.written_of_waiting (h : Underway payload events armed state)
    (hphase : state.phase = .waiting) (hcoming : events.drop state.taken = []) :
    state.written = framesOf payload events := by
  have hsent := h.sent
  rw [hphase, List.take_of_length_le (List.drop_eq_nil_iff.mp hcoming)] at hsent
  exact (List.append_nil _).symm.trans hsent

/-! ## Runs -/

theorem play_cons (payload : Bool) (events : List Event) (turn : Turn) (turns : List Turn)
    (state : State) : play payload events (turn :: turns) state =
      play payload events turns (advance payload events state turn) :=
  rfl

theorem play_of_isEnded (turns : List Turn) (h : state.phase.isEnded = true) :
    play payload events turns state = state := by
  induction turns with
  | nil => rfl
  | cons turn turns ih => rw [play_cons, advance, step_of_isEnded _ _ h, ih]

/-- A bridge that observes an end ends there, whatever comes later. -/
theorem play_of_observes (payload : Bool) {reason : StreamEnd} (turns : List Turn)
    (h : Observes state.phase (momentAt events state turn) reason) :
    ∃ reports : List Effect, (∀ effect ∈ reports, effect.isFailure = true ∧ reason = .peerGone) ∧
      play payload events (turn :: turns) state = state.finish reason reports := by
  obtain ⟨reports, hreports, hfinish⟩ := step_of_observes payload h
  refine ⟨reports, hreports, ?_⟩
  rw [play_cons, advance, hfinish]
  exact play_of_isEnded turns rfl

/-- A bridge that still runs has observed no end. -/
theorem not_observes_of_running {turns : List Turn}
    (hrunning : (play payload events (turn :: turns) state).phase.isEnded = false)
    (reason : StreamEnd) : ¬ Observes state.phase (momentAt events state turn) reason := by
  intro hobserved
  obtain ⟨reports, _, hfinish⟩ := play_of_observes payload turns hobserved
  rw [hfinish] at hrunning
  contradiction

theorem running_of_play {turns : List Turn}
    (hrunning : (play payload events turns state).phase.isEnded = false) :
    state.phase.isEnded = false := by
  refine Bool.eq_false_iff.mpr fun hended => ?_
  rw [play_of_isEnded turns hended, hended] at hrunning
  contradiction

theorem Underway.afterTurns (h : Underway payload events armed state) {turns : List Turn}
    (hrunning : (play payload events turns state).phase.isEnded = false) :
    Underway payload events armed (play payload events turns state) := by
  induction turns generalizing state with
  | nil => exact h
  | cons turn turns ih => exact ih (h.afterTurn (not_observes_of_running hrunning)) hrunning

/-- A bridge that has ended has observed that end. -/
theorem Underway.exists_observes (h : Underway payload events armed state) {turns : List Turn}
    {reason : StreamEnd} (hended : (play payload events turns state).phase = .ended reason) :
    ∃ before turn later, turns = before ++ turn :: later ∧
      Observes (play payload events before state).phase
        (momentAt events (play payload events before state) turn) reason := by
  induction turns generalizing state with
  | nil => exact absurd hended (h.phase_ne_ended reason)
  | cons turn turns ih =>
    by_cases hend : ∃ other, Observes state.phase (momentAt events state turn) other
    · obtain ⟨other, hobserved⟩ := hend
      obtain ⟨reports, _, hfinish⟩ := play_of_observes payload turns hobserved
      rw [hfinish] at hended
      cases hended
      exact ⟨[], turn, turns, rfl, hobserved⟩
    · have hnext := h.afterTurn fun other hobserved => hend ⟨other, hobserved⟩
      obtain ⟨before, next, later, rfl, hobserved⟩ := ih hnext hended
      exact ⟨turn :: before, next, later, rfl, hobserved⟩

/-! ## Turns for any moments -/

/-- The event that the bridge takes from the watch in a moment. -/
def takes (phase : Phase) (moment : Moment) : Option Event :=
  match phase, moment.cancelled, moment.offer with
  | .waiting, false, .event event => some event
  | _, _, _ => none

/-- The events that the bridge takes from the watch in some moments. -/
def received (payload : Bool) : List Moment → State → List Event
  | [], _ => []
  | moment :: moments, state =>
    (takes state.phase moment).toList ++ received payload moments (step payload moment state)

/-- The turn in which the surroundings do what they do in a moment. -/
def Moment.asTurn (moment : Moment) : Turn :=
  { cancelled := moment.cancelled
    ready := match moment.offer with
      | .nothing => false
      | _ => true
    write := moment.write
    flush := moment.flush }

theorem received_of_isEnded (payload : Bool) (moments : List Moment)
    (h : state.phase.isEnded = true) : received payload moments state = [] := by
  induction moments with
  | nil => rfl
  | cons moment moments ih =>
    rw [received, step_of_isEnded payload moment h, ih]
    unfold takes
    split
    next hphase _ _ =>
      rw [hphase] at h
      contradiction
    next => rfl

theorem taken_step_eq (payload : Bool) (moment : Moment) (state : State) :
    (step payload moment state).taken =
      state.taken + (takes state.phase moment).toList.length := by
  obtain ⟨cancelled, offer, write, flush⟩ := moment
  obtain ⟨phase, effects, armed⟩ := state
  by_cases hphase : phase = .waiting
  · obtain rfl := hphase
    cases cancelled with
    | true => exact taken_finish _ _ (by simp)
    | false =>
      cases offer with
      | event event => exact taken_move ..
      | closed => exact taken_finish _ _ (by simp)
      | nothing => rfl
  · rw [taken_step payload _ hphase]
    unfold takes
    split
    next heq _ _ => exact absurd heq hphase
    next => rfl

/-- Only a bridge that waits looks at what the watch offers, and then the turn offers it the
same. -/
theorem advance_asTurn {moment : Moment} {moments : List Moment}
    (hcoming : events.drop state.taken = received payload (moment :: moments) state) :
    advance payload events state moment.asTurn = step payload moment state := by
  obtain ⟨cancelled, offer, write, flush⟩ := moment
  obtain ⟨phase, effects, armed⟩ := state
  unfold advance momentAt
  rw [hcoming]
  cases phase with
  | waiting =>
    cases cancelled with
    | true => rfl
    | false =>
      cases offer with
      | event event => rfl
      | closed =>
        rw [received, received_of_isEnded payload moments rfl]
        rfl
      | nothing => rfl
  | writing rest polling => rfl
  | flushing polling => rfl
  | ended reason => rfl

/-- A run in any moments is a run in turns, over the events that it takes from the watch. -/
theorem run_eq_play {moments : List Moment}
    (hcoming : events.drop state.taken = received payload moments state) :
    run payload moments state = play payload events (moments.map Moment.asTurn) state := by
  induction moments generalizing state with
  | nil => rfl
  | cons moment moments ih =>
    rw [List.map_cons, play_cons, advance_asTurn hcoming]
    refine ih ?_
    rw [taken_step_eq, ← List.drop_drop, hcoming, received, List.drop_left]

/-! ## How long a run takes -/

/-- The bridge can do nothing but wait: nothing comes from the watch, or the sink takes nothing. -/
def idles (phase : Phase) (moment : Moment) : Bool :=
  match phase, moment.offer with
  | .waiting, .nothing => true
  | .writing .., _ => moment.write == .blocked
  | .flushing _, _ => moment.flush == .blocked
  | _, _ => false

/-- The number of turns in which the bridge can do nothing but wait. -/
def idleTurns (payload : Bool) (events : List Event) : List Turn → State → Nat
  | [], _ => 0
  | turn :: turns, state =>
    (if idles state.phase (momentAt events state turn) then 1 else 0) +
      idleTurns payload events turns (advance payload events state turn)

/-- The most turns, idle ones left out, that these events take: one to take each from the watch,
one for each byte of its frame, one for the flush, and one for the end of the watch. -/
def work (payload : Bool) : List Event → Nat
  | [] => 1
  | event :: events => (frame payload event).length + 2 + work payload events

theorem work_pos (payload : Bool) (events : List Event) : 0 < work payload events := by
  cases events with
  | nil => exact Nat.one_pos
  | cons event events => exact Nat.lt_of_lt_of_le (Nat.succ_pos _) (Nat.le_add_right _ _)

/-- The most turns, idle ones left out, that the frame in hand takes. -/
def Phase.work : Phase → Nat
  | .writing rest _ => rest.length + 1
  | .flushing _ => 1
  | _ => 0

/-- The most turns, idle ones left out, that are left to a bridge. -/
def workLeft (payload : Bool) (events : List Event) (state : State) : Nat :=
  state.phase.work + Bridge.work payload (events.drop state.taken)

theorem workLeft_start (payload : Bool) (events : List Event) (armed : Bool) :
    workLeft payload events (start armed) = work payload events :=
  Nat.zero_add _

theorem workLeft_pos (payload : Bool) (events : List Event) (state : State) :
    0 < workLeft payload events state :=
  Nat.lt_of_lt_of_le (work_pos payload _) (Nat.le_add_left _ _)

/-- A turn in which the bridge does not wait takes some of its work. -/
theorem Underway.workLeft_afterTurn (h : Underway payload events armed state)
    (hquiet : ∀ reason, ¬ Observes state.phase (momentAt events state turn) reason) :
    workLeft payload events (advance payload events state turn) + 1 ≤
      workLeft payload events state +
        (if idles state.phase (momentAt events state turn) then 1 else 0) := by
  -- Every step but the taking of an event leaves those to come as they are.
  have hmove : ∀ phase {effects : List Effect}, effects.countP (· == .received) = 0 →
      workLeft payload events (state.move phase effects) =
        phase.work + Bridge.work payload (events.drop state.taken) := by
    intro phase effects hnone
    rw [workLeft, taken_move, hnone]
    rfl
  have hworks := h.works hquiet
  generalize advance payload events state turn = next at hworks ⊢
  cases hworks with
  | waits hphase hoffer => simp [idles, hphase, hoffer]
  | @receives event hphase hoffer =>
    obtain ⟨coming, hcoming⟩ := coming_of_event hoffer
    have hrest : events.drop (state.taken + 1) = coming := by
      rw [← List.drop_drop, hcoming]
      rfl
    have htaken : (state.move (.writing (frame payload event) true) [.received]).taken =
      state.taken + 1 := taken_move ..
    rw [workLeft, htaken, hrest, workLeft, hcoming, Bridge.work, hphase]
    simp only [State.move, Phase.work]
    omega
  | blocks hphase hwrite =>
    rw [hmove _ rfl, workLeft, hphase]
    simp [idles, hwrite, Phase.work]
  | writes hphase hpositive hcount =>
    rw [hmove _ rfl, workLeft, hphase]
    simp only [Phase.work, List.length_drop]
    omega
  | completes hphase =>
    have hrest := List.length_pos_iff.mpr (h.rest_ne_nil _ _ hphase)
    rw [hmove _ rfl, workLeft, hphase]
    simp only [Phase.work]
    omega
  | holds hphase hflush =>
    rw [hmove _ rfl, workLeft, hphase]
    simp [idles, hflush, Phase.work]
  | flushes hphase =>
    rw [hmove _ rfl, workLeft, hphase]
    simp only [Phase.work]
    omega

theorem Underway.length_add_workLeft (h : Underway payload events armed state) {turns : List Turn}
    (hrunning : (play payload events turns state).phase.isEnded = false) :
    turns.length + workLeft payload events (play payload events turns state) ≤
      workLeft payload events state + idleTurns payload events turns state := by
  induction turns generalizing state with
  | nil => simp [play]
  | cons turn turns ih =>
    have hquiet := not_observes_of_running hrunning
    have hstep := h.workLeft_afterTurn hquiet
    have hrest := ih (h.afterTurn hquiet) hrunning
    rw [List.length_cons, idleTurns, play_cons]
    omega

/-- The most turns that a bridge takes to observe a cancellation that lasts: within a write that
is under way it looks at the cancellation only when the sink keeps it waiting. -/
def Phase.patience : Phase → Nat
  | .waiting => 1
  | .writing rest polling => if polling then 1 else rest.length + 2
  | .flushing polling => if polling then 1 else 2
  | .ended _ => 0

theorem Phase.patience_pos {phase : Phase} (h : phase.isEnded = false) : 0 < phase.patience := by
  cases phase with
  | waiting => exact Nat.one_pos
  | writing rest polling => cases polling <;> simp [patience]
  | flushing polling => cases polling <;> simp [patience]
  | ended => contradiction

theorem Phase.patience_le (phase : Phase) : phase.patience ≤ phase.unsent.length + 2 := by
  cases phase with
  | writing rest polling => cases polling <;> simp [patience, unsent]
  | flushing polling => cases polling <;> simp [patience]
  | _ => simp [patience]

theorem Underway.patience_afterTurn (h : Underway payload events armed state)
    (hquiet : ∀ reason, ¬ Observes state.phase (momentAt events state turn) reason)
    (hcancelled : turn.cancelled = true) :
    (advance payload events state turn).phase.patience < state.phase.patience := by
  have hlooks : state.phase.looks = false :=
    Bool.eq_false_iff.mpr fun hlooks => hquiet _ (.cancelled hlooks hcancelled)
  have hworks := h.works hquiet
  generalize advance payload events state turn = next at hworks ⊢
  cases hworks with
  | waits hphase =>
    rw [hphase] at hlooks
    contradiction
  | receives hphase =>
    rw [hphase] at hlooks
    contradiction
  | blocks hphase =>
    rw [hphase] at hlooks ⊢
    obtain rfl := hlooks
    simp [State.move, Phase.patience]
  | writes hphase hpositive hcount =>
    rw [hphase] at hlooks ⊢
    obtain rfl := hlooks
    simp only [State.move, Phase.patience, List.length_drop, Bool.false_eq_true, if_false]
    omega
  | completes hphase =>
    have hrest := List.length_pos_iff.mpr (h.rest_ne_nil _ _ hphase)
    rw [hphase] at hlooks ⊢
    obtain rfl := hlooks
    simpa [State.move, Phase.patience] using hrest
  | holds hphase =>
    rw [hphase] at hlooks ⊢
    obtain rfl := hlooks
    simp [State.move, Phase.patience]
  | flushes hphase =>
    rw [hphase] at hlooks ⊢
    obtain rfl := hlooks
    simp [State.move, Phase.patience]

theorem Underway.length_lt_patience (h : Underway payload events armed state) {turns : List Turn}
    (hcancelled : ∀ turn ∈ turns, turn.cancelled = true)
    (hrunning : (play payload events turns state).phase.isEnded = false) :
    turns.length < state.phase.patience := by
  induction turns generalizing state with
  | nil => exact Phase.patience_pos h.running
  | cons turn turns ih =>
    obtain ⟨hturn, hturns⟩ := List.forall_mem_cons.mp hcancelled
    have hquiet := not_observes_of_running hrunning
    have hstep := h.patience_afterTurn hquiet hturn
    have hrest := ih (h.afterTurn hquiet) hturns hrunning
    rw [List.length_cons]
    omega

end ClusterObjects.Bridge
