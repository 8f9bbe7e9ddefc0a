import ClusterObjects.Proofs.Watch.Bridge
import ClusterObjects.Proofs.Watch.Run
import ClusterObjects.Proofs.Watch.Sink

/-! # The stop handle of a watch

Whatever becomes of a watch, its stop handle fires once: when the client cancels, when the
watch is dropped, or when the bridge that streams it ends. A watch that goes away, streamed or
not, lets go of its receiver first.
-/

namespace ClusterObjects

namespace Watch

/-- The watch after some steps at its ends. -/
def after (steps : List WatchStep) (watch : Watch) : Watch :=
  steps.foldl (fun watch step => (step.apply watch).2) watch

/-- The number of times that the stop handle fires in some steps. -/
def firings : List WatchStep → Watch → Nat
  | [], _ => 0
  | step :: steps, watch =>
    (step.apply watch).1.toNat + firings steps (step.apply watch).2

end Watch

namespace WatchStep

/-- The steps in which a client is done with the stop handle. -/
def ends : WatchStep → Bool
  | .cancel => true
  | .drop => true
  | _ => false

/-- The stop handle fires in such a step, unless it has fired before, and in no other. -/
theorem fires_apply (watch : Watch) (step : WatchStep) :
    (step.apply watch).1 = (step.ends && watch.armed) ∧
      (step.apply watch).2.armed = (!step.ends && watch.armed) := by
  cases step with
  | cancel => exact ⟨watch.fst_cancel, watch.armed_cancel⟩
  | drop => exact ⟨watch.dropReceiver.fst_cancel, watch.dropReceiver.armed_cancel⟩
  | _ => exact ⟨rfl, rfl⟩

end WatchStep

namespace Watch

/-- The stop handle fires once, in the first step in which the client is done with it. -/
theorem firings_eq (steps : List WatchStep) (watch : Watch) :
    watch.firings steps = (watch.armed && steps.any WatchStep.ends).toNat := by
  induction steps generalizing watch with
  | nil => simp [firings]
  | cons step steps ih =>
    obtain ⟨hfires, harmed⟩ := step.fires_apply watch
    rw [firings, ih, hfires, harmed, List.any_cons]
    cases step.ends <;> cases watch.armed <;> simp

theorem after_append_singleton (steps : List WatchStep) (step : WatchStep) (watch : Watch) :
    watch.after (steps ++ [step]) = (step.apply (watch.after steps)).2 :=
  List.foldl_append

end Watch

/-- What becomes of the stop handle of a watch. -/
structure HandleLaw (watch : Watch) : Prop where
  /-- It fires once, in the first step in which the client is done with it. -/
  once : ∀ steps, watch.firings steps = (watch.armed && steps.any WatchStep.ends).toNat
  /-- A watch that is dropped lets go of its receiver, which fires nothing, and then the stop
  handle fires. -/
  dropped : ∀ steps,
    (watch.after (steps ++ [.dropReceiver])).channel.receiving = false ∧
    watch.firings (steps ++ [.dropReceiver]) = watch.firings steps ∧
    (watch.after steps).drop = (watch.after (steps ++ [.dropReceiver])).cancel
  /-- A watch that is streamed ends like one that is dropped, with the frames of all events that
  it delivered. -/
  streamed : ∀ payload,
    (watch.stream payload).2.1 = Bridge.framesOf payload watch.drain.1 ∧
    (watch.stream payload).2.2 = watch.drain.2.drop

theorem Watch.handleLaw (watch : Watch) : HandleLaw watch := by
  constructor
  case once => exact fun steps => watch.firings_eq steps
  case dropped =>
    intro steps
    rw [watch.firings_eq, watch.firings_eq, List.any_append, watch.after_append_singleton]
    refine ⟨rfl, ?_, rfl⟩
    simp [WatchStep.ends]
  case streamed =>
    intro payload
    rw [watch.stream_eq]
    exact ⟨rfl, Prod.ext (watch.drain.2.dropReceiver.fst_cancel).symm rfl⟩

/-- Streaming a watch, for any events, any timing and any sink. Every run of the bridge is one in
turns, and so is every run against a sink with limits. It ends at the first end that it observes,
having written the frames of the first events, and a part of the next one if that write failed or
was cancelled; then the receiver is released and the stop handle fires, once. So it is with a
watch that is dropped without being streamed. -/
theorem streaming_law :
    (∀ payload moments armed, ∃ events turns,
      Bridge.run payload moments (Bridge.start armed) =
        Bridge.after payload events armed turns) ∧
      (∀ (sink : Sink) payload fuel cancelled events armed, ∃ turns,
        (sink.drive payload fuel cancelled events (Bridge.start armed)).2 =
          Bridge.after payload events armed turns) ∧
      (∀ payload events armed turns, Bridge.RunLaw payload events armed turns) ∧
      ∀ watch, HandleLaw watch := by
  refine ⟨Bridge.exists_run_eq_after, ?_, Bridge.run_law, Watch.handleLaw⟩
  intro sink payload fuel cancelled events armed
  exact sink.exists_drive_eq_play payload fuel cancelled rfl

end ClusterObjects
