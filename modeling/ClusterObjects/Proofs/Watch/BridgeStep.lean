import ClusterObjects.Watch.Bridge

/-! # Steps of the watch bridge

What a step of the bridge can be, and what it observes of its surroundings that ends it.
Every step but the last is work: an event is taken from the watch, bytes of its frame go to
the sink, or the sink is flushed.
-/

namespace ClusterObjects.Bridge

/-- The bytes that an event is written as. -/
def frame (payload : Bool) (event : Event) : List Nat :=
  Text.utf8Bytes (Frame.encode payload event)

def framesOf (payload : Bool) (events : List Event) : List Nat := events.flatMap (frame payload)

theorem frame_ne_nil (payload : Bool) (event : Event) : frame payload event ≠ [] := by
  have hlast : Text.utf8Bytes ['\n'] ≠ [] := by decide
  unfold frame Frame.encode Text.utf8Bytes
  rw [List.flatMap_append]
  exact List.append_ne_nil_of_right_ne_nil _ hlast

/-! ## Ends -/

namespace Phase

/-- The bridge is about to look at the cancellation. -/
def looks : Phase → Bool
  | .waiting => true
  | .writing _ polling => polling
  | .flushing polling => polling
  | .ended _ => false

/-- The bytes of the frame in hand that the sink has not taken. -/
def unsent : Phase → List Nat
  | .writing rest _ => rest
  | _ => []

/-- Whether the bridge has ended. -/
def isEnded : Phase → Bool
  | .ended _ => true
  | _ => false

end Phase

/-- What ends the bridge, as it observes it: the cancellation whenever it looks at it, which
wins over everything else; the end of the watch while it waits for an event; and a sink that
refuses a write, or takes nothing of it, or fails to flush. -/
inductive Observes : Phase → Moment → StreamEnd → Prop where
  | cancelled {phase : Phase} {moment : Moment} (hlooks : phase.looks = true)
      (hcancelled : moment.cancelled = true) : Observes phase moment .cancelled
  | closed {moment : Moment} (hcancelled : moment.cancelled = false)
      (hclosed : moment.offer = .closed) : Observes .waiting moment .producerClosed
  | unwritten {rest : List Nat} {polling : Bool} {moment : Moment}
      (hcancelled : (polling && moment.cancelled) = false)
      (hfailed : moment.write = .failed ∨ moment.write = .took 0) :
      Observes (.writing rest polling) moment .peerGone
  | unflushed {polling : Bool} {moment : Moment}
      (hcancelled : (polling && moment.cancelled) = false) (hfailed : moment.flush = .failed) :
      Observes (.flushing polling) moment .peerGone

theorem Observes.not_isEnded {phase : Phase} {moment : Moment} {reason : StreamEnd}
    (h : Observes phase moment reason) : phase.isEnded = false := by
  cases h with
  | cancelled hlooks => cases phase <;> trivial
  | closed => rfl
  | unwritten => rfl
  | unflushed => rfl

theorem Observes.cancelled_iff {phase : Phase} {moment : Moment} {reason : StreamEnd}
    (h : Observes phase moment reason) :
    reason = .cancelled ↔ phase.looks = true ∧ moment.cancelled = true := by
  cases h with
  | cancelled hlooks hcancelled => exact iff_of_true rfl ⟨hlooks, hcancelled⟩
  | closed hcancelled => simp [hcancelled]
  | unwritten hcancelled => simpa [Phase.looks] using hcancelled
  | unflushed hcancelled => simpa [Phase.looks] using hcancelled

theorem Observes.of_producerClosed {phase : Phase} {moment : Moment}
    (h : Observes phase moment .producerClosed) : phase = .waiting ∧ moment.offer = .closed := by
  cases h with
  | closed _ hclosed => exact ⟨rfl, hclosed⟩

theorem Observes.of_writing {rest : List Nat} {polling : Bool} {moment : Moment}
    {reason : StreamEnd} (h : Observes (.writing rest polling) moment reason) :
    reason = .cancelled ∨
      reason = .peerGone ∧ (moment.write = .failed ∨ moment.write = .took 0) := by
  cases h with
  | cancelled => exact Or.inl rfl
  | unwritten _ hfailed => exact Or.inr ⟨rfl, hfailed⟩

theorem Observes.of_peerGone {phase : Phase} {moment : Moment}
    (h : Observes phase moment .peerGone) :
    (∃ rest polling, phase = .writing rest polling ∧
      (moment.write = .failed ∨ moment.write = .took 0)) ∨
    ∃ polling, phase = .flushing polling ∧ moment.flush = .failed := by
  cases h with
  | unwritten _ hfailed => exact Or.inl ⟨_, _, rfl, hfailed⟩
  | unflushed _ hfailed => exact Or.inr ⟨_, rfl, hfailed⟩

/-! ## What a step can be -/

/-- The effects of a bridge at work. -/
def Effect.isWork : Effect → Bool
  | .received => true
  | .wrote bytes => !bytes.isEmpty
  | .flushed => true
  | _ => false

/-- The effects that tell of a sink that failed, or took nothing. -/
def Effect.isFailure : Effect → Bool
  | .wrote bytes => bytes.isEmpty
  | .writeFailed => true
  | .flushFailed => true
  | _ => false

/-- A step of a bridge that observes no end. -/
inductive Works (payload : Bool) (moment : Moment) (state : State) : State → Prop where
  | waits (h : state.phase = .waiting) (hoffer : moment.offer = .nothing) :
      Works payload moment state state
  | receives {event : Event} (h : state.phase = .waiting) (hoffer : moment.offer = .event event) :
      Works payload moment state (state.move (.writing (frame payload event) true) [.received])
  | blocks {rest : List Nat} {polling : Bool} (h : state.phase = .writing rest polling)
      (hwrite : moment.write = .blocked) :
      Works payload moment state (state.move (.writing rest true) [])
  | writes {rest : List Nat} {polling : Bool} {count : Nat}
      (h : state.phase = .writing rest polling) (hpositive : 0 < count)
      (hcount : count < rest.length) :
      Works payload moment state
        (state.move (.writing (rest.drop count) false) [.wrote (rest.take count)])
  | completes {rest : List Nat} {polling : Bool} (h : state.phase = .writing rest polling) :
      Works payload moment state (state.move (.flushing false) [.wrote rest])
  | holds {polling : Bool} (h : state.phase = .flushing polling)
      (hflush : moment.flush = .blocked) :
      Works payload moment state (state.move (.flushing true) [])
  | flushes {polling : Bool} (h : state.phase = .flushing polling) :
      Works payload moment state (state.move .waiting [.flushed])

theorem works_step (payload : Bool) {moment : Moment} {state : State}
    (hrunning : state.phase.isEnded = false)
    (hquiet : ∀ reason, ¬ Observes state.phase moment reason) :
    Works payload moment state (step payload moment state) := by
  obtain ⟨phase, effects, armed⟩ := state
  cases phase with
  | ended => contradiction
  | waiting =>
    simp only [step]
    split
    next hcancelled => exact absurd (.cancelled rfl hcancelled) (hquiet _)
    next hcancelled =>
      split
      next hoffer => exact .waits rfl hoffer
      next hoffer => exact absurd (.closed (Bool.eq_false_iff.mpr hcancelled) hoffer) (hquiet _)
      next event hoffer => exact .receives rfl hoffer
  | writing rest polling =>
    simp only [step]
    split
    next hcancelled =>
      obtain ⟨hpolling, hcancelled⟩ := Bool.and_eq_true_iff.mp hcancelled
      exact absurd (.cancelled hpolling hcancelled) (hquiet _)
    next hcancelled =>
      have hcancelled := Bool.eq_false_iff.mpr hcancelled
      split
      next hwrite => exact .blocks rfl hwrite
      next hwrite => exact absurd (.unwritten hcancelled (Or.inl hwrite)) (hquiet _)
      next hwrite => exact absurd (.unwritten hcancelled (Or.inr hwrite)) (hquiet _)
      next count hsome _ =>
        split
        next hempty =>
          have hall : rest.take count = rest := List.take_of_length_le
            (List.drop_eq_nil_iff.mp (List.isEmpty_iff.mp hempty))
          rw [hall]
          exact .completes rfl
        next hrest =>
          refine .writes rfl (Nat.pos_of_ne_zero hsome) (Nat.lt_of_not_le fun hle => hrest ?_)
          exact List.isEmpty_iff.mpr (List.drop_eq_nil_iff.mpr hle)
  | flushing polling =>
    simp only [step]
    split
    next hcancelled =>
      obtain ⟨hpolling, hcancelled⟩ := Bool.and_eq_true_iff.mp hcancelled
      exact absurd (.cancelled hpolling hcancelled) (hquiet _)
    next hcancelled =>
      split
      next hflush => exact .holds rfl hflush
      next hflush =>
        exact absurd (.unflushed (Bool.eq_false_iff.mpr hcancelled) hflush) (hquiet _)
      next => exact .flushes rfl

theorem step_of_isEnded (payload : Bool) (moment : Moment) {state : State}
    (h : state.phase.isEnded = true) : step payload moment state = state := by
  unfold step
  split
  · rfl
  all_goals
    next hphase =>
      rw [hphase] at h
      contradiction

/-- A bridge that observes an end does nothing else. -/
theorem step_of_observes (payload : Bool) {moment : Moment} {state : State} {reason : StreamEnd}
    (h : Observes state.phase moment reason) :
    ∃ reports : List Effect, (∀ effect ∈ reports, effect.isFailure = true ∧ reason = .peerGone) ∧
      step payload moment state = state.finish reason reports := by
  obtain ⟨phase, effects, armed⟩ := state
  cases h with
  | cancelled hlooks hcancelled =>
    refine ⟨[], by simp, ?_⟩
    cases phase with
    | waiting => simp only [step, hcancelled, if_true]
    | writing rest polling =>
      obtain rfl : polling = true := hlooks
      simp only [step, hcancelled, Bool.and_self, if_true]
    | flushing polling =>
      obtain rfl : polling = true := hlooks
      simp only [step, hcancelled, Bool.and_self, if_true]
    | ended => contradiction
  | closed hcancelled hclosed =>
    refine ⟨[], by simp, ?_⟩
    simp only [step, hcancelled, hclosed, Bool.false_eq_true, if_false]
  | unwritten hcancelled hfailed =>
    rcases hfailed with hwrite | hwrite
    · refine ⟨[.writeFailed], by simp [Effect.isFailure], ?_⟩
      simp only [step, hcancelled, hwrite, Bool.false_eq_true, if_false]
    · refine ⟨[.wrote []], by simp [Effect.isFailure], ?_⟩
      simp only [step, hcancelled, hwrite, Bool.false_eq_true, if_false]
  | unflushed hcancelled hflush =>
    refine ⟨[.flushFailed], by simp [Effect.isFailure], ?_⟩
    simp only [step, hcancelled, hflush, Bool.false_eq_true, if_false]

/-! ## What a step adds -/

/-- The bytes that an effect puts into the sink. -/
def Effect.bytes : Effect → List Nat
  | .wrote bytes => bytes
  | _ => []

/-- The number of events that the bridge has taken from the watch. -/
def State.taken (state : State) : Nat := state.count (· == .received)

theorem written_move (state : State) (phase : Phase) (effects : List Effect) :
    (state.move phase effects).written = state.written ++ effects.flatMap Effect.bytes :=
  List.flatMap_append

theorem taken_move (state : State) (phase : Phase) (effects : List Effect) :
    (state.move phase effects).taken = state.taken + effects.countP (· == .received) :=
  List.countP_append

theorem written_finish (state : State) (reason : StreamEnd) {reports : List Effect}
    (hreports : ∀ effect ∈ reports, effect.isFailure = true) :
    (state.finish reason reports).written = state.written := by
  have hfailed : reports.flatMap Effect.bytes = [] := by
    refine List.flatMap_eq_nil_iff.mpr fun effect heffect => ?_
    have hfailure := hreports effect heffect
    cases effect with
    | wrote bytes => exact List.isEmpty_iff.mp hfailure
    | _ => rfl
  change (state.effects ++ reports ++ Effect.released :: _).flatMap Effect.bytes = _
  rw [List.flatMap_append, List.flatMap_append, hfailed, List.append_nil]
  cases state.armed <;> exact List.append_nil _

theorem taken_finish (state : State) (reason : StreamEnd) {reports : List Effect}
    (hreports : ∀ effect ∈ reports, effect.isFailure = true) :
    (state.finish reason reports).taken = state.taken := by
  have hnone : reports.countP (· == .received) = 0 := by
    refine List.countP_eq_zero.mpr fun effect heffect hreceived => ?_
    obtain rfl := beq_iff_eq.mp hreceived
    exact Bool.false_ne_true (hreports _ heffect)
  change (state.effects ++ reports ++ Effect.released :: _).countP (· == .received) = _
  rw [List.countP_append, List.countP_append, hnone]
  cases state.armed <;> rfl

/-- Only a bridge that waits takes an event from the watch. -/
theorem taken_step (payload : Bool) (moment : Moment) {state : State}
    (hphase : state.phase ≠ .waiting) : (step payload moment state).taken = state.taken := by
  by_cases hended : state.phase.isEnded = true
  · rw [step_of_isEnded payload moment hended]
  by_cases hend : ∃ reason, Observes state.phase moment reason
  · obtain ⟨reason, hobserved⟩ := hend
    obtain ⟨reports, hreports, hfinish⟩ := step_of_observes payload hobserved
    rw [hfinish, taken_finish _ _ fun effect heffect => (hreports effect heffect).1]
  · have hworks := works_step payload (Bool.eq_false_iff.mpr hended) (not_exists.mp hend)
    generalize step payload moment state = next at hworks ⊢
    cases hworks with
    | waits => rfl
    | receives h => exact absurd h hphase
    | _ => exact taken_move ..

/-- A bridge that gets a frame into its hand has taken an event from the watch. -/
theorem taken_of_receives {payload : Bool} {moment : Moment} {state : State}
    (hphase : state.phase = .waiting) {rest : List Nat} {polling : Bool}
    (hnext : (step payload moment state).phase = .writing rest polling) :
    (step payload moment state).taken = state.taken + 1 := by
  have hrunning : state.phase.isEnded = false := by rw [hphase]; rfl
  have hquiet : ∀ reason, ¬ Observes state.phase moment reason := by
    intro reason hobserved
    obtain ⟨_, _, hfinish⟩ := step_of_observes payload hobserved
    rw [hfinish] at hnext
    contradiction
  have hworks := works_step payload hrunning hquiet
  generalize step payload moment state = next at hworks hnext ⊢
  cases hworks with
  | waits => rw [hphase] at hnext; contradiction
  | receives => exact taken_move ..
  | _ h => rw [hphase] at h; contradiction

end ClusterObjects.Bridge
