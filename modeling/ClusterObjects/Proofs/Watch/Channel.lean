import ClusterObjects.Watch.Channel

/-! # What a watch channel delivers

As long as nobody ends it, a channel loses nothing and changes no order: the events
that the receiver takes, followed by those still to come, are the events that were to
come before. A producer that runs until it has to wait leaves nothing behind unless
the queue is full, so a receiver that goes on taking gets everything. If a channel is
ended or its producer falls behind, events may be lost, but those that remain are in
order.
-/

namespace ClusterObjects.Channel

variable {channel next : Channel}

/-- What a step of the producer can be: it ends for one of three reasons, or puts the event in
hand into the queue, or takes the next item. -/
theorem produce?_cases (h : channel.produce? = some next) :
    channel.running = true ∧
      ((channel.stopped = true ∨ channel.receiving = false ∨ channel.ended = true) ∧
          next = channel.finish ∨
        (∃ event, channel.held = some event ∧
          next = { channel with held := none, queue := channel.queue ++ [event] }) ∨
        ∃ item rest, channel.held = none ∧ channel.pending = item :: rest ∧
          next = { channel with pending := rest, held := item }) := by
  unfold produce? at h
  split at h
  · contradiction
  next hrunning =>
    refine ⟨by simpa using hrunning, ?_⟩
    split at h
    next event hheld =>
      split at h
      next hstopped =>
        have hreason := (Bool.and_eq_true_iff.mp hstopped).1
        exact Or.inl ⟨Or.inl hreason, (Option.some.inj h).symm⟩
      next =>
        split at h
        next hgone =>
          exact Or.inl ⟨Or.inr (Or.inl (by simpa using hgone)), (Option.some.inj h).symm⟩
        next =>
          split at h
          · exact Or.inr (Or.inl ⟨event, hheld, (Option.some.inj h).symm⟩)
          · contradiction
    next hheld =>
      split at h
      next hstopped => exact Or.inl ⟨Or.inl hstopped, (Option.some.inj h).symm⟩
      next =>
        split at h
        next =>
          split at h
          next hended => exact Or.inl ⟨Or.inr (Or.inr hended), (Option.some.inj h).symm⟩
          next => contradiction
        next item rest hpending =>
          exact Or.inr (Or.inr ⟨item, rest, hheld, hpending, (Option.some.inj h).symm⟩)

/-- Nothing but its source gives a channel more items. -/
theorem pending_of_produce? (h : channel.produce? = some next) :
    next.pending.length ≤ channel.pending.length := by
  rcases (produce?_cases h).2 with ⟨_, rfl⟩ | ⟨event, _, rfl⟩ | ⟨item, rest, _, hpending, rfl⟩
  · exact Nat.le_refl _
  · exact Nat.le_refl _
  · rw [hpending]
    exact Nat.le_succ _

theorem pending_of_receive? {event : Event} (h : channel.receive? = some (event, next)) :
    next.pending = channel.pending := by
  unfold receive? at h
  split at h
  · contradiction
  · split at h
    · obtain ⟨_, rfl⟩ := Prod.mk.inj (Option.some.inj h)
      rfl
    · contradiction

theorem length_pending_publish (channel : Channel) (item : Option Event) :
    (channel.publish item).pending.length ≤ channel.pending.length + 1 := by
  unfold publish
  split
  · dsimp only
    rw [List.length_drop, List.length_append, List.length_singleton]
    exact Nat.sub_le _ _
  · exact Nat.le_succ _

/-! ## Live channels -/

/-- The producer and the receiver are at work and the source goes on. -/
structure Live (channel : Channel) : Prop where
  running : channel.running = true
  receiving : channel.receiving = true
  unstopped : channel.stopped = false
  endless : channel.ended = false

theorem live_openEnded (capacity : Nat) : (openEnded capacity).Live := ⟨rfl, rfl, rfl, rfl⟩

/-- A bound on the steps that the producer of a live channel can take: two for each pending
item and one for an event in hand. -/
def work (channel : Channel) : Nat := 2 * channel.pending.length + channel.held.toList.length

/-- A step of the producer takes some of its work and changes nothing that is to come. -/
theorem Live.of_produce? (h : channel.Live) (hnext : channel.produce? = some next) :
    next.Live ∧ next.capacity = channel.capacity ∧ next.work < channel.work ∧
      next.upcoming = channel.upcoming := by
  have hupcoming := @upcoming_of_produce? channel next hnext
  rcases (produce?_cases hnext).2 with ⟨hreason, _⟩ | ⟨event, hheld, rfl⟩ |
    ⟨item, rest, hheld, hpending, rfl⟩
  · rw [h.unstopped, h.receiving, h.endless] at hreason
    simp at hreason
  · refine ⟨⟨h.running, h.receiving, h.unstopped, h.endless⟩, rfl, ?_, hupcoming h.running⟩
    simp [work, hheld]
  · refine ⟨⟨h.running, h.receiving, h.unstopped, h.endless⟩, rfl, ?_, hupcoming h.running⟩
    cases item with
    | none => simp [work, hheld, hpending]
    | some event =>
      simp [work, hheld, hpending]
      omega

/-- The producer of a live channel waits only if nothing is left or the queue is full. -/
theorem Live.of_waiting (h : channel.Live) (hwaits : channel.produce? = none) :
    channel.held = none ∧ channel.pending = [] ∨ channel.capacity ≤ channel.queue.length := by
  unfold produce? at hwaits
  simp only [h.running, h.receiving, h.unstopped, h.endless, Bool.not_true, Bool.false_and,
    Bool.false_eq_true, ↓reduceIte] at hwaits
  split at hwaits
  next event hheld =>
    split at hwaits
    · contradiction
    next hfull => exact Or.inr (Nat.le_of_not_lt hfull)
  next hheld =>
    split at hwaits
    next hpending => exact Or.inl ⟨hheld, hpending⟩
    next => contradiction

/-- With enough steps the producer gets as far as it can. -/
theorem Live.produceFor (h : channel.Live) {steps : Nat} (hsteps : channel.work ≤ steps) :
    (channel.produceFor steps).Live ∧ (channel.produceFor steps).produce? = none ∧
      (channel.produceFor steps).capacity = channel.capacity ∧
      (channel.produceFor steps).upcoming = channel.upcoming := by
  induction steps generalizing channel with
  | zero =>
    refine ⟨h, ?_, rfl, rfl⟩
    cases hproduce : channel.produce? with
    | none => exact hproduce
    | some next =>
      have hwork := (h.of_produce? hproduce).2.2.1
      omega
  | succ steps ih =>
    unfold Channel.produceFor
    cases hproduce : channel.produce? with
    | some next =>
      obtain ⟨hlive, hcapacity, hwork, hupcoming⟩ := h.of_produce? hproduce
      obtain ⟨hfinal, hwaits, hsame, heq⟩ := ih hlive (by omega)
      exact ⟨hfinal, hwaits, hsame.trans hcapacity, heq.trans hupcoming⟩
    | none => exact ⟨h, hproduce, rfl, rfl⟩

theorem Live.settle (h : channel.Live) :
    channel.settle.Live ∧ channel.settle.produce? = none ∧
      channel.settle.capacity = channel.capacity ∧ channel.settle.upcoming = channel.upcoming := by
  refine h.produceFor ?_
  unfold work stepsLeft
  cases channel.held <;> simp

theorem Live.of_receive? (h : channel.Live) {event : Event}
    (hnext : channel.receive? = some (event, next)) :
    next.Live ∧ next.capacity = channel.capacity := by
  unfold receive? at hnext
  split at hnext
  · contradiction
  · split at hnext
    · obtain ⟨_, rfl⟩ := Prod.mk.inj (Option.some.inj hnext)
      exact ⟨⟨h.running, h.receiving, h.unstopped, h.endless⟩, rfl⟩
    · contradiction

theorem Live.queue_eq_nil (h : channel.Live) (hnone : channel.receive? = none) :
    channel.queue = [] := by
  unfold receive? at hnone
  split at hnone
  · assumption
  · rw [if_pos h.receiving] at hnone
    contradiction

/-- A receiver that goes on taking gets everything that is to come. -/
theorem Live.drainFor (h : channel.Live) (hcapacity : 0 < channel.capacity) {steps : Nat}
    (hsteps : channel.upcoming.length < steps) :
    (channel.drainFor steps).1 = channel.upcoming := by
  induction steps generalizing channel with
  | zero => exact absurd hsteps (Nat.not_lt_zero _)
  | succ steps ih =>
    obtain ⟨hlive, hwaits, hsame, hupcoming⟩ := h.settle
    rw [← hsame] at hcapacity
    rw [← hupcoming] at hsteps ⊢
    unfold Channel.drainFor
    cases hreceive : channel.settle.receive? with
    | some received =>
      obtain ⟨event, next⟩ := received
      obtain ⟨hnext, hcapacityNext⟩ := hlive.of_receive? hreceive
      have htaken := upcoming_of_receive? hreceive
      rw [htaken, List.length_cons] at hsteps
      have hrest := ih hnext (hcapacityNext ▸ hcapacity) (by omega)
      simp only [hreceive, hrest, htaken]
    | none =>
      -- The queue is empty, so the producer does not wait for room in it.
      have hqueue := hlive.queue_eq_nil hreceive
      rcases hlive.of_waiting hwaits with ⟨hheld, hpending⟩ | hfull
      · simp [hreceive, upcoming, hqueue, hheld, hpending]
      · rw [hqueue] at hfull
        exact absurd hcapacity (Nat.not_lt_of_le hfull)

theorem Live.drain (h : channel.Live) (hcapacity : 0 < channel.capacity) :
    channel.drain.1 = channel.upcoming := by
  refine h.drainFor hcapacity ?_
  have hpending := List.length_filterMap_le id channel.pending
  have hheld : channel.held.toList.length ≤ 1 := by cases channel.held <;> simp
  simp only [upcoming, List.length_append]
  omega

theorem Live.publish (h : channel.Live) (item : Option Event) :
    (channel.publish item).Live ∧ (channel.publish item).capacity = channel.capacity := by
  unfold Channel.publish
  rw [if_pos h.running]
  exact ⟨⟨h.running, h.receiving, h.unstopped, h.endless⟩, rfl⟩

/-! ## Channels that are ended or fall behind -/

/-- The events that the receiver can still get, if it exists; a producer that has ended adds
nothing to the queue. -/
def obtainable (channel : Channel) : List Event :=
  if channel.receiving then if channel.running then channel.upcoming else channel.queue else []

theorem obtainable_of_running (hrunning : channel.running = true) :
    channel.obtainable = if channel.receiving then channel.upcoming else [] := by
  rw [obtainable, hrunning]
  rfl

theorem queue_sublist_upcoming (channel : Channel) : channel.queue.Sublist channel.upcoming := by
  rw [upcoming, List.append_assoc]
  exact List.sublist_append_left _ _

theorem obtainable_eq_of_upcoming_eq (hupcoming : next.upcoming = channel.upcoming)
    (hreceiving : next.receiving = channel.receiving) (hnext : next.running = true)
    (hrunning : channel.running = true) : next.obtainable = channel.obtainable := by
  rw [obtainable_of_running hnext, obtainable_of_running hrunning, hupcoming, hreceiving]

theorem obtainable_of_produce? (hnext : channel.produce? = some next) :
    next.obtainable.Sublist channel.obtainable := by
  have hupcoming := @upcoming_of_produce? channel next hnext
  obtain ⟨hrunning, hcases⟩ := produce?_cases hnext
  rcases hcases with ⟨_, rfl⟩ | ⟨event, _, rfl⟩ | ⟨item, rest, _, _, rfl⟩
  · rw [obtainable_of_running hrunning]
    change List.Sublist (if channel.receiving then channel.queue else []) _
    split
    · exact channel.queue_sublist_upcoming
    · exact List.Sublist.refl _
  · have heq := obtainable_eq_of_upcoming_eq (hupcoming hrunning) rfl hrunning hrunning
    exact heq ▸ List.Sublist.refl _
  · have heq := obtainable_eq_of_upcoming_eq (hupcoming hrunning) rfl hrunning hrunning
    exact heq ▸ List.Sublist.refl _

theorem obtainable_of_receive? {event : Event} (hnext : channel.receive? = some (event, next)) :
    event :: next.obtainable = channel.obtainable := by
  have hupcoming := upcoming_of_receive? hnext
  unfold receive? at hnext
  split at hnext
  · contradiction
  next first rest hqueue =>
    split at hnext
    next hreceiving =>
      obtain ⟨rfl, rfl⟩ := Prod.mk.inj (Option.some.inj hnext)
      unfold obtainable
      simp only [hreceiving, ↓reduceIte]
      split
      · exact hupcoming.symm
      · exact hqueue.symm
    next => contradiction

theorem filterMap_drop_sublist (n : Nat) (pending : List (Option Event)) (item : Option Event) :
    (((pending ++ [item]).drop n).filterMap id).Sublist (pending.filterMap id ++ item.toList) := by
  have hdrop := (List.drop_sublist n (pending ++ [item])).filterMap id
  have hitem : [item].filterMap id = item.toList := by cases item <;> rfl
  rwa [List.filterMap_append, hitem] at hdrop

/-- An item that a source yields is added at the end, but others may be lost for it. -/
theorem obtainable_publish (channel : Channel) (item : Option Event) :
    (channel.publish item).obtainable.Sublist (channel.obtainable ++ item.toList) := by
  cases hrunning : channel.running with
  | true =>
    rw [publish, if_pos hrunning, obtainable_of_running hrunning, obtainable, if_pos hrunning]
    split
    · simp only [upcoming, List.append_assoc]
      exact (List.Sublist.refl _).append
        ((List.Sublist.refl _).append (filterMap_drop_sublist _ _ _))
    · exact List.nil_sublist _
  | false =>
    rw [publish, hrunning]
    exact List.sublist_append_left _ _

end ClusterObjects.Channel
