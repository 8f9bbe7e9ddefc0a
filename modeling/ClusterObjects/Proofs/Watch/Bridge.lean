import ClusterObjects.Proofs.Watch.BridgeRun

/-! # The law of the watch bridge

A run ends in the first turn in which the bridge observes an end, with that end. What the
sink has taken by then are the frames of the first events, in order and each once, and
perhaps a part of the next frame, if the run ended within the write of it. The receiver is
released and then the stop handle fires, once, in that turn and in no other.
-/

namespace ClusterObjects.Bridge

variable {payload armed : Bool} {events : List Event} {state : State} {turn : Turn}

/-- The bytes are the frames of the first events, in order and each once, and perhaps a part of
the next one, if the bridge stands within the write of it. -/
def Sent (payload : Bool) (events : List Event) (phase : Phase) (bytes : List Nat) : Prop :=
  ∃ whole part, whole <+: events ∧ bytes = framesOf payload whole ++ part ∧
    (part ≠ [] → ∃ event rest polling, whole ++ [event] <+: events ∧
      phase = .writing rest polling ∧ rest ≠ [] ∧ part ++ rest = frame payload event)

theorem Underway.sent_written (h : Underway payload events armed state) :
    Sent payload events state.phase state.written := by
  have hsent := h.sent
  by_cases hunsent : state.phase.unsent = []
  · rw [hunsent, List.append_nil] at hsent
    have hbytes : state.written = framesOf payload (events.take state.taken) ++ [] := by
      rw [hsent, List.append_nil]
    exact ⟨_, [], List.take_prefix _ _, hbytes, fun hpart => absurd rfl hpart⟩
  · obtain ⟨whole, event, hwhole, part, hframe⟩ := h.inHand hunsent
    have hprefix : whole ++ [event] <+: events := hwhole ▸ List.take_prefix _ _
    refine ⟨whole, part, (List.prefix_append _ _).trans hprefix, ?_, fun _ => ?_⟩
    · rw [hwhole, framesOf, List.flatMap_append, List.flatMap_singleton, ← hframe,
        ← List.append_assoc] at hsent
      exact List.append_cancel_right hsent
    · cases hphase : state.phase with
      | writing rest polling =>
        rw [hphase] at hframe
        exact ⟨event, rest, polling, hprefix, rfl, h.rest_ne_nil _ _ hphase, hframe⟩
      | _ =>
        rw [hphase] at hunsent
        exact absurd rfl hunsent

/-- The bridge after some turns, from its start. -/
def after (payload : Bool) (events : List Event) (armed : Bool) (turns : List Turn) : State :=
  play payload events turns (start armed)

/-- A run in any moments is a run in turns. -/
theorem exists_run_eq_after (payload : Bool) (moments : List Moment) (armed : Bool) :
    ∃ events turns, run payload moments (start armed) = after payload events armed turns :=
  ⟨received payload moments (start armed), moments.map Moment.asTurn, run_eq_play rfl⟩

/-- After some turns the bridge observes an end in the next one. -/
def EndsIn (payload : Bool) (events : List Event) (armed : Bool) (before : List Turn) (turn : Turn)
    (reason : StreamEnd) : Prop :=
  Observes (after payload events armed before).phase
    (momentAt events (after payload events armed before) turn) reason

/-- How a bridge ends that observes an end in a turn: its last state before it, and the final
one. -/
structure Exit (payload : Bool) (events : List Event) (armed : Bool) (turn : Turn)
    (reason : StreamEnd) (last final : State) : Prop where
  ended : final.phase = .ended reason
  /-- The end is the cancellation exactly if the bridge looks at it in this turn and finds it,
  whatever else the turn brings. -/
  cancelled_iff : reason = .cancelled ↔ last.phase.looks = true ∧ turn.cancelled = true
  /-- The peer is gone only if it refuses a write, or takes nothing of it, or fails to flush. -/
  failed : reason = .peerGone →
    (∃ rest polling, last.phase = .writing rest polling ∧
      (turn.write = .failed ∨ turn.write = .took 0)) ∨
    ∃ polling, last.phase = .flushing polling ∧ turn.flush = .failed
  /-- If the producer has closed the watch, the sink has the frames of all events. -/
  complete : reason = .producerClosed → turn.ready = true ∧ final.written = framesOf payload events
  /-- From the turn on nothing is written. -/
  quiet : final.written = last.written
  /-- The sink has the frames of the first events, and a part of the next one only if the end
  came within the write of it. -/
  sent : Sent payload events last.phase final.written
  /-- Within a write the end is the cancellation or the failure of that write. -/
  interrupted : ∀ rest polling, last.phase = .writing rest polling →
    reason = .cancelled ∨ reason = .peerGone ∧ (turn.write = .failed ∨ turn.write = .took 0)
  /-- Up to the turn the bridge was at work. In the turn it reports a failure, if that is the
  end, and releases the receiver; then the stop handle fires, if it has something to fire. -/
  effects : ∃ reports : List Effect,
    final.effects =
      last.effects ++ reports ++ .released :: (if armed then [.stopped] else []) ∧
    (∀ effect ∈ last.effects, effect.isWork = true) ∧
    ∀ effect ∈ reports, effect.isFailure = true ∧ reason = .peerGone
  stops : final.stops = if armed then 1 else 0

/-- The law of a run of the bridge, for any events, any timing and any behaviour of the sink. -/
structure RunLaw (payload : Bool) (events : List Event) (armed : Bool) (turns : List Turn) :
    Prop where
  /-- The bridge has ended exactly if it has observed that end. -/
  ended_iff : ∀ reason, (after payload events armed turns).phase = .ended reason ↔
    ∃ before turn later, turns = before ++ turn :: later ∧
      EndsIn payload events armed before turn reason
  /-- The end that it observes is the first one. -/
  first : ∀ earlier next rest turn reason other,
    EndsIn payload events armed (earlier ++ next :: rest) turn reason →
    ¬ EndsIn payload events armed earlier next other
  exits : ∀ before turn later reason, turns = before ++ turn :: later →
    EndsIn payload events armed before turn reason →
    Exit payload events armed turn reason (after payload events armed before)
      (after payload events armed turns)
  /-- A bridge that still runs is at work: it has neither failed nor released the receiver nor
  fired the stop handle. -/
  runs : (after payload events armed turns).phase.isEnded = false →
    Sent payload events (after payload events armed turns).phase
      (after payload events armed turns).written ∧
    ∀ effect ∈ (after payload events armed turns).effects, effect.isWork = true
  /-- Turns in which the bridge need not wait end it in time. -/
  progress : (after payload events armed turns).phase.isEnded = false →
    turns.length < work payload events + idleTurns payload events turns (start armed)
  /-- A cancellation that lasts ends it in time, whatever the sink does. -/
  cancels : ∀ before later, turns = before ++ later → (∀ turn ∈ later, turn.cancelled = true) →
    (after payload events armed before).phase.unsent.length + 2 ≤ later.length →
    (after payload events armed turns).phase.isEnded = true

theorem after_append_cons {before : List Turn} (later : List Turn) {reason : StreamEnd}
    (h : EndsIn payload events armed before turn reason) :
    ∃ reports : List Effect, (∀ effect ∈ reports, effect.isFailure = true ∧ reason = .peerGone) ∧
      after payload events armed (before ++ turn :: later) =
        (after payload events armed before).finish reason reports := by
  obtain ⟨reports, hreports, hfinish⟩ := play_of_observes payload later h
  exact ⟨reports, hreports, (play_append ..).trans hfinish⟩

/-- A bridge that observes an end was at work until then. -/
theorem EndsIn.underway {before : List Turn} {reason : StreamEnd}
    (h : EndsIn payload events armed before turn reason) :
    Underway payload events armed (after payload events armed before) :=
  (underway_start payload events armed).afterTurns (Observes.not_isEnded h)

theorem stops_finish (reason : StreamEnd) {reports : List Effect}
    (hwork : ∀ effect ∈ state.effects, effect.isWork = true)
    (hreports : ∀ effect ∈ reports, effect.isFailure = true) :
    (state.finish reason reports).stops = if state.armed then 1 else 0 := by
  have hnone : (state.effects ++ reports).countP (· == .stopped) = 0 := by
    refine List.countP_eq_zero.mpr fun effect heffect hstopped => ?_
    obtain rfl := beq_iff_eq.mp hstopped
    rcases List.mem_append.mp heffect with hbefore | hreport
    · exact Bool.false_ne_true (hwork _ hbefore)
    · exact Bool.false_ne_true (hreports _ hreport)
  change (state.effects ++ reports ++ Effect.released :: _).countP (· == .stopped) = _
  rw [List.countP_append, hnone]
  cases state.armed <;> rfl

theorem EndsIn.first {earlier rest : List Turn} {next : Turn} {reason other : StreamEnd}
    (h : EndsIn payload events armed (earlier ++ next :: rest) turn reason) :
    ¬ EndsIn payload events armed earlier next other := by
  intro hother
  obtain ⟨_, _, hended⟩ := after_append_cons rest hother
  have hrunning := h.underway.running
  rw [hended] at hrunning
  contradiction

theorem EndsIn.exit {before : List Turn} {reason : StreamEnd}
    (h : EndsIn payload events armed before turn reason) (later : List Turn) :
    Exit payload events armed turn reason (after payload events armed before)
      (after payload events armed (before ++ turn :: later)) := by
  have hunderway := h.underway
  obtain ⟨reports, hreports, hfinish⟩ := after_append_cons later h
  have hfailures := fun effect heffect => (hreports effect heffect).1
  have hquiet : (after payload events armed (before ++ turn :: later)).written =
      (after payload events armed before).written := by
    rw [hfinish]
    exact written_finish _ _ hfailures
  constructor
  case ended =>
    rw [hfinish]
    rfl
  case cancelled_iff => exact Observes.cancelled_iff h
  case failed =>
    rintro rfl
    exact Observes.of_peerGone h
  case complete =>
    rintro rfl
    obtain ⟨hphase, hclosed⟩ := Observes.of_producerClosed h
    obtain ⟨hready, hcoming⟩ := coming_of_closed hclosed
    exact ⟨hready, hquiet.trans (hunderway.written_of_waiting hphase hcoming)⟩
  case quiet => exact hquiet
  case sent =>
    rw [hquiet]
    exact hunderway.sent_written
  case interrupted =>
    intro rest polling hphase
    have hobserved : Observes _ _ reason := h
    rw [hphase] at hobserved
    exact hobserved.of_writing
  case effects =>
    refine ⟨reports, ?_, hunderway.work, hreports⟩
    have heffects := congrArg State.effects hfinish
    unfold State.finish at heffects
    rwa [hunderway.armed_eq] at heffects
  case stops =>
    rw [hfinish, stops_finish reason hunderway.work hfailures, hunderway.armed_eq]

theorem run_law (payload : Bool) (events : List Event) (armed : Bool) (turns : List Turn) :
    RunLaw payload events armed turns := by
  have hstart := underway_start payload events armed
  constructor
  case ended_iff =>
    intro reason
    constructor
    · exact hstart.exists_observes
    · rintro ⟨before, turn, later, rfl, hends⟩
      exact (hends.exit later).ended
  case first => exact fun _ _ _ _ _ _ hends => hends.first
  case exits =>
    rintro before turn later reason rfl hends
    exact hends.exit later
  case runs =>
    intro hrunning
    have hunderway := hstart.afterTurns hrunning
    exact ⟨hunderway.sent_written, hunderway.work⟩
  case progress =>
    intro hrunning
    have hlength := hstart.length_add_workLeft hrunning
    have hleft := workLeft_pos payload events (after payload events armed turns)
    rw [workLeft_start] at hlength
    exact Nat.lt_of_lt_of_le (Nat.lt_add_of_pos_right hleft) hlength
  case cancels =>
    rintro before later rfl hcancelled hlong
    rw [after, play_append]
    refine eq_true_of_ne_false fun hrunning => ?_
    have hunderway := hstart.afterTurns (running_of_play hrunning)
    have hpatience := hunderway.length_lt_patience hcancelled hrunning
    exact Nat.not_lt_of_le (Nat.le_trans (Phase.patience_le _) hlong) hpatience

/-- A cancellation during a write leaves a part of the frame. -/
example :
    after false [Event.failure 500 "Gone" ""] true
        [⟨false, true, .blocked, .done⟩, ⟨false, true, .took 4, .done⟩,
          ⟨false, true, .blocked, .done⟩, ⟨true, true, .took 9, .done⟩] =
      ⟨.ended .cancelled, [.received, .wrote [100, 97, 116, 97], .released, .stopped], false⟩ := by
  decide +kernel

end ClusterObjects.Bridge
