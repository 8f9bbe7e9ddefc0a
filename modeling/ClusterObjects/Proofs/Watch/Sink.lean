import ClusterObjects.Proofs.Watch.BridgeRun
import ClusterObjects.Watch.Handle

/-! # Streaming into a sink

A bridge that is driven against a sink with limits takes turns like any other, so what holds
of its runs holds here too. If the sink has no limits, all events that the watch delivers are
written before the stream ends.
-/

namespace ClusterObjects

open Bridge

namespace Sink

variable {payload armed : Bool} {events queue : List Event} {state : State}

/-- The turn that the bridge is given next. -/
def turn (sink : Sink) (cancelled : Bool) (queue : List Event) (state : State) : Turn :=
  ⟨cancelled, !queue.isEmpty, (sink.moment cancelled queue state).write,
    (sink.moment cancelled queue state).flush⟩

theorem momentAt_turn (sink : Sink) (cancelled : Bool) (hqueue : events.drop state.taken = queue) :
    momentAt events state (sink.turn cancelled queue state) =
      sink.moment cancelled queue state := by
  rw [momentAt, hqueue]
  cases queue <;> rfl

/-- Driving a bridge against a sink is a run of it. -/
theorem exists_drive_eq_play (sink : Sink) (payload : Bool) (fuel : Nat) (cancelled : Bool)
    (hqueue : events.drop state.taken = queue) :
    ∃ turns, (sink.drive payload fuel cancelled queue state).2 =
      play payload events turns state := by
  induction fuel generalizing cancelled queue state with
  | zero => exact ⟨[], rfl⟩
  | succ fuel ih =>
    have hnext : step payload (sink.moment cancelled queue state) state =
        advance payload events state (sink.turn cancelled queue state) := by
      rw [advance, sink.momentAt_turn cancelled hqueue]
    -- The turn comes first, then the turns of the rest of the run.
    have hlater : ∀ {cancelled' : Bool} {queue' : List Event} {next : State},
        step payload (sink.moment cancelled queue state) state = next →
        events.drop next.taken = queue' →
        ∃ turns, (sink.drive payload fuel cancelled' queue' next).2 =
          play payload events turns state := by
      intro cancelled' queue' next hstep hqueue'
      obtain ⟨turns, hturns⟩ := ih cancelled' hqueue'
      refine ⟨sink.turn cancelled queue state :: turns, ?_⟩
      rw [hturns, play_cons, ← hnext, hstep]
    have hone : ∃ turns, step payload (sink.moment cancelled queue state) state =
        play payload events turns state := ⟨[sink.turn cancelled queue state], hnext⟩
    unfold drive
    dsimp only
    split
    next => exact ⟨[], rfl⟩
    next hphase =>
      split
      next event rest _ _ hwriting =>
        refine hlater rfl ?_
        rw [taken_of_receives hphase hwriting, ← List.drop_drop, hqueue]
        rfl
      next => exact hone
      next => exact hone
    next hphase =>
      split
      next => exact hone
      next =>
        refine hlater rfl ?_
        rwa [taken_step payload _ (by simp [hphase])]
    next hphase =>
      refine hlater rfl ?_
      rwa [taken_step payload _ (by simp [hphase])]

/-! ## A sink without limits -/

theorem write_unlimited (inside offered : Nat) : unlimited.write inside offered = .took offered :=
  rfl

theorem write_moment_unlimited {rest : List Nat} {polling : Bool} (cancelled : Bool)
    (queue : List Event) (hphase : state.phase = .writing rest polling) :
    (unlimited.moment cancelled queue state).write = .took rest.length := by
  simp only [moment, write_unlimited, hphase]

/-- A bridge that is neither cancelled nor refused anything observes no end. -/
theorem not_observes_unlimited (h : Underway payload events armed state)
    (queue : List Event) (reason : StreamEnd) :
    ¬ Observes state.phase (unlimited.moment false queue state) reason := by
  intro hobserved
  cases reason with
  | cancelled => exact Bool.false_ne_true (hobserved.cancelled_iff.mp rfl).2
  | producerClosed =>
    have hclosed := hobserved.of_producerClosed.2
    cases queue <;> contradiction
  | peerGone =>
    rcases hobserved.of_peerGone with ⟨rest, polling, hphase, hfailed⟩ | ⟨_, _, hfailed⟩
    · rw [write_moment_unlimited false queue hphase] at hfailed
      rcases hfailed with hfailed | hfailed
      · contradiction
      · exact h.rest_ne_nil _ _ hphase (List.length_eq_zero_iff.mp (Write.took.inj hfailed))
    · contradiction

theorem idles_unlimited (cancelled : Bool) (hbusy : state.phase = .waiting → queue ≠ []) :
    idles state.phase (unlimited.moment cancelled queue state) = false := by
  cases hphase : state.phase with
  | waiting =>
    obtain ⟨event, rest, rfl⟩ := List.exists_cons_of_ne_nil (hbusy hphase)
    rfl
  | writing rest polling =>
    rw [idles, write_moment_unlimited cancelled queue hphase]
    rfl
  | flushing => rfl
  | ended => rfl

/-- A sink without limits takes all frames, until nothing is left to take from the watch. -/
theorem drive_unlimited (h : Underway payload events armed state)
    (hqueue : events.drop state.taken = queue) {fuel : Nat}
    (hfuel : workLeft payload events state ≤ fuel) :
    Underway payload events armed (unlimited.drive payload fuel false queue state).2 ∧
      (unlimited.drive payload fuel false queue state).2.phase = .waiting ∧
      events.drop (unlimited.drive payload fuel false queue state).2.taken = [] := by
  induction fuel generalizing queue state with
  | zero => exact absurd (workLeft_pos payload events state) (Nat.not_lt_of_le hfuel)
  | succ fuel ih =>
    have hmoment := unlimited.momentAt_turn false hqueue
    have hquiet := not_observes_unlimited h queue
    have hnext := h.afterTurn (hmoment ▸ hquiet)
    have hwork := h.workLeft_afterTurn (hmoment ▸ hquiet)
    rw [advance, hmoment] at hnext hwork
    -- A turn in which the bridge need not wait leaves less work than there is fuel.
    have hless : (state.phase = .waiting → queue ≠ []) → workLeft payload events
        (step payload (unlimited.moment false queue state) state) ≤ fuel := by
      intro hbusy
      rw [idles_unlimited false hbusy] at hwork
      exact Nat.le_of_succ_le_succ (Nat.le_trans hwork hfuel)
    unfold drive
    dsimp only
    split
    next hphase => exact absurd hphase (h.phase_ne_ended _)
    next hphase =>
      split
      next event rest _ _ hwriting =>
        refine ih hnext ?_ (hless fun _ => List.cons_ne_nil _ _)
        rw [taken_of_receives hphase hwriting, ← List.drop_drop, hqueue]
        rfl
      next hended => exact absurd hended (hnext.phase_ne_ended _)
      next pending _ _ _ hidle =>
        have hworks := works_step payload h.running hquiet
        generalize step payload (unlimited.moment false pending state) state = next at hworks hidle
        cases hworks with
        | waits _ hoffer =>
          cases pending with
          | nil => exact ⟨h, hphase, hqueue⟩
          | cons => contradiction
        | receives _ hoffer =>
          cases pending with
          | nil => contradiction
          | cons event rest => exact absurd rfl (hidle event rest _ _ rfl)
        | _ hother =>
          rw [hphase] at hother
          contradiction
    next hphase =>
      have hbusy : state.phase ≠ .waiting := by simp [hphase]
      split
      next hblocked =>
        rw [write_moment_unlimited false _ hphase] at hblocked
        contradiction
      next =>
        refine ih hnext ?_ (hless fun hwaiting => absurd hwaiting hbusy)
        rwa [taken_step payload _ hbusy]
    next hphase =>
      have hbusy : state.phase ≠ .waiting := by simp [hphase]
      refine ih hnext ?_ (hless fun hwaiting => absurd hwaiting hbusy)
      rwa [taken_step payload _ hbusy]

theorem length_frame_le (payload : Bool) (event : Event) :
    (frame payload event).length ≤ 4 * (Frame.encode payload event).length := by
  unfold frame Text.utf8Bytes
  induction Frame.encode payload event with
  | nil => exact Nat.le_refl _
  | cons c text ih =>
    have hc := Char.utf8Size_le_four c
    rw [List.flatMap_cons, List.length_append, List.length_map, String.length_utf8EncodeChar,
      List.length_cons]
    omega

/-- The bound on the steps of a run leaves enough of them. -/
theorem work_le_stepsFor (payload : Bool) (events : List Event) :
    work payload events ≤ stepsFor payload events := by
  have hsteps : ∀ steps, work payload events + steps ≤ events.foldl
      (fun steps event => steps + 4 * (Frame.encode payload event).length + 4) (steps + 1) := by
    induction events with
    | nil => intro steps; exact Nat.le_of_eq (Nat.add_comm _ _)
    | cons event events ih =>
      intro steps
      have hframe := length_frame_le payload event
      have hrest := ih (steps + 4 * (Frame.encode payload event).length + 4)
      rw [List.foldl_cons, work]
      refine Nat.le_trans ?_ (Nat.le_trans hrest (Nat.le_of_eq ?_))
      · omega
      · congr 1
        omega
  exact Nat.le_trans (Nat.le_add_right _ 1) (hsteps 1)

end Sink

namespace Watch

/-- The stop handle fires unless it has fired before, and then has nothing left to fire. -/
theorem fst_cancel (watch : Watch) : watch.cancel.1 = watch.armed := by
  unfold cancel
  split
  next harmed => exact harmed.symm
  next harmed => exact (Bool.eq_false_iff.mpr harmed).symm

theorem armed_cancel (watch : Watch) : watch.cancel.2.armed = false := by
  unfold cancel
  split
  next => rfl
  next harmed => exact Bool.eq_false_iff.mpr harmed

theorem step_closingMoment (payload : Bool) {state : State} (hphase : state.phase = .waiting)
    (closed : Bool) : step payload (closingMoment closed) state =
      state.finish (if closed then .producerClosed else .cancelled) [] := by
  obtain ⟨phase, effects, armed⟩ := state
  obtain rfl := hphase
  cases closed <;> rfl

/-- Streaming a watch writes the frames of all events that it delivers, in order and each once;
then the watch ends it, or it is cancelled. The stop handle fires unless it has fired before. -/
theorem stream_eq (payload : Bool) (watch : Watch) :
    watch.stream payload =
      (if watch.drain.2.channel.isClosed then .producerClosed else .cancelled,
        framesOf payload watch.drain.1, watch.armed, watch.drain.2.drop.2) := by
  obtain ⟨hunderway, hphase, hcoming⟩ := Sink.drive_unlimited
    (underway_start payload watch.drain.1 true) rfl
    (Nat.le_trans (Nat.le_of_eq (workLeft_start ..)) (Sink.work_le_stepsFor payload watch.drain.1))
  have hstep := step_closingMoment payload hphase watch.drain.2.channel.isClosed
  have hwritten := congrArg State.written hstep
  rw [written_finish _ _ (by simp), hunderway.written_of_waiting hphase hcoming] at hwritten
  have hreason := congrArg (fun final => final.end?.getD .cancelled) hstep
  have hfired : watch.drain.2.drop.1 = watch.armed := fst_cancel watch.drain.2.dropReceiver
  exact Prod.ext hreason (Prod.ext hwritten (Prod.ext hfired rfl))

end Watch

end ClusterObjects
