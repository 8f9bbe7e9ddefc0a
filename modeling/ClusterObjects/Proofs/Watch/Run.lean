import ClusterObjects.Proofs.Store.Run
import ClusterObjects.Proofs.Watch.Channel
import ClusterObjects.Store.Hub

/-! # Runs of a store with watchers

A run interleaves the writes of any clients with the opening of watches and with the
single steps of their producers and receivers. What a watch delivers in a run is told
by the changes that the writes publish: it is a part of the events that these give the
watch, in their order, and all of them if nobody ends the watch and its producer never
falls too far behind.
-/

namespace ClusterObjects

/-- What happens to a watch at one of its ends. -/
inductive WatchStep where
  /-- The producer takes a step. -/
  | produce
  /-- The receiver takes an event. -/
  | receive
  /-- The stop handle fires. -/
  | cancel
  /-- The receiver and the stop handle go away. -/
  | drop
  /-- The receiver goes away. -/
  | dropReceiver
deriving DecidableEq

namespace WatchStep

/-- The watch after a step; also tells whether its stop handle fired. -/
def apply (watch : Watch) : WatchStep → Bool × Watch
  | .produce => (false, { watch with channel := watch.channel.produce?.getD watch.channel })
  | .receive =>
    (false, { watch with channel := (watch.channel.receive?.map (·.2)).getD watch.channel })
  | .cancel => watch.cancel
  | .drop => watch.drop
  | .dropReceiver => (false, watch.dropReceiver)

/-- The event that the receiver gets in a step. -/
def received (watch : Watch) : WatchStep → Option Event
  | .receive => watch.channel.receive?.map (·.1)
  | _ => none

/-- No step makes events, and the receiver gets the first of those it can get. -/
theorem obtainable_apply (watch : Watch) (step : WatchStep) :
    ((step.received watch).toList ++ (step.apply watch).2.channel.obtainable).Sublist
      watch.channel.obtainable := by
  have hcancel : ∀ watch : Watch, watch.cancel.2.channel.obtainable = watch.channel.obtainable := by
    intro watch
    unfold Watch.cancel
    split <;> rfl
  cases step with
  | produce =>
    change ((watch.channel.produce?.getD watch.channel).obtainable).Sublist _
    cases hproduce : watch.channel.produce? with
    | none => exact List.Sublist.refl _
    | some next => exact Channel.obtainable_of_produce? hproduce
  | receive =>
    change ((watch.channel.receive?.map (·.1)).toList ++
      ((watch.channel.receive?.map (·.2)).getD watch.channel).obtainable).Sublist _
    cases hreceive : watch.channel.receive? with
    | none => exact List.Sublist.refl _
    | some received =>
      obtain ⟨event, next⟩ := received
      exact Channel.obtainable_of_receive? hreceive ▸ List.Sublist.refl _
  | cancel =>
    exact hcancel watch ▸ List.Sublist.refl _
  | drop =>
    change (watch.dropReceiver.cancel.2.channel.obtainable).Sublist _
    rw [hcancel]
    exact List.nil_sublist _
  | dropReceiver => exact List.nil_sublist _

theorem length_pending_apply (watch : Watch) (step : WatchStep) :
    (step.apply watch).2.channel.pending.length ≤ watch.channel.pending.length := by
  have hcancel : ∀ watch : Watch, watch.cancel.2.channel.pending = watch.channel.pending := by
    intro watch
    unfold Watch.cancel
    split <;> rfl
  cases step with
  | produce =>
    change (watch.channel.produce?.getD watch.channel).pending.length ≤ _
    cases hproduce : watch.channel.produce? with
    | none => exact Nat.le_refl _
    | some next => exact Channel.pending_of_produce? hproduce
  | receive =>
    change ((watch.channel.receive?.map (·.2)).getD watch.channel).pending.length ≤ _
    cases hreceive : watch.channel.receive? with
    | none => exact Nat.le_refl _
    | some received => exact Nat.le_of_eq (congrArg _ (Channel.pending_of_receive? hreceive))
  | cancel => exact Nat.le_of_eq (congrArg _ (hcancel watch))
  | drop => exact Nat.le_of_eq (congrArg _ (hcancel watch.dropReceiver))
  | dropReceiver => exact Nat.le_refl _

/-- The producer and the receiver of a live channel lose nothing. -/
theorem upcoming_apply {watch : Watch} (hlive : watch.channel.Live) {step : WatchStep}
    (hstep : step = .produce ∨ step = .receive) :
    (step.received watch).toList ++ (step.apply watch).2.channel.upcoming =
        watch.channel.upcoming ∧
      (step.apply watch).2.channel.Live ∧
      (step.apply watch).2.channel.capacity = watch.channel.capacity := by
  rcases hstep with rfl | rfl
  · change (watch.channel.produce?.getD watch.channel).upcoming = _ ∧
      (watch.channel.produce?.getD watch.channel).Live ∧
      (watch.channel.produce?.getD watch.channel).capacity = _
    cases hproduce : watch.channel.produce? with
    | none => exact ⟨rfl, hlive, rfl⟩
    | some next =>
      obtain ⟨hnext, hcapacity, _, hupcoming⟩ := hlive.of_produce? hproduce
      exact ⟨hupcoming, hnext, hcapacity⟩
  · change (watch.channel.receive?.map (·.1)).toList ++
        ((watch.channel.receive?.map (·.2)).getD watch.channel).upcoming = _ ∧
      ((watch.channel.receive?.map (·.2)).getD watch.channel).Live ∧
      ((watch.channel.receive?.map (·.2)).getD watch.channel).capacity = _
    cases hreceive : watch.channel.receive? with
    | none => exact ⟨rfl, hlive, rfl⟩
    | some received =>
      obtain ⟨event, next⟩ := received
      obtain ⟨hnext, hcapacity⟩ := hlive.of_receive? hreceive
      exact ⟨(Channel.upcoming_of_receive? hreceive).symm, hnext, hcapacity⟩

end WatchStep

/-- One move of a run. -/
inductive Move where
  | write (write : Write)
  | openWatch (collection : Collection) (options : ListOptions)
  | watch (number : Nat) (step : WatchStep)

namespace Move

/-- The write that a move carries out, if it is one. -/
def writes : Move → List Write
  | .write w => [w]
  | _ => []

/-- The move neither ends the watch with a number nor takes its receiver away. -/
def Spares (number : Nat) : Move → Prop
  | .watch other step => other = number → step = WatchStep.produce ∨ step = WatchStep.receive
  | _ => True

end Move

theorem filterMap_toList {α β : Type} (f : α → Option β) (found : Option α) :
    found.toList.filterMap f = (found.bind f).toList := by
  cases found with
  | none => rfl
  | some a => rw [Option.toList_some, List.filterMap_cons, Option.bind_some]; cases f a <;> rfl

namespace Subscription

/-- The events that changes give the watcher. -/
def noted (subscription : Subscription) (changes : List Change) : List Event :=
  changes.filterMap (Change.event? subscription.selection subscription.prototype)

/-- The event that the receiver gets in a move, if the watch has the given number. -/
def received (subscription : Subscription) (number : Nat) : Move → Option Event
  | .watch other step => if other = number then step.received subscription.watch else none
  | _ => none

/-- The subscription with the given number after a move on the store. -/
def advance (subscription : Subscription) (store : Store) (number : Nat) : Move → Subscription
  | .write write =>
    match (store.write write).published with
    | some change => Hub.offer change subscription
    | none => subscription
  | .openWatch .. => subscription
  | .watch other step =>
    if other = number then { subscription with watch := (step.apply subscription.watch).2 }
    else subscription

variable (subscription : Subscription) (store : Store) (number : Nat)

theorem noted_toList (published : Option Change) :
    subscription.noted published.toList =
      (published.bind (Change.event? subscription.selection subscription.prototype)).toList :=
  filterMap_toList _ published

theorem noted_append (earlier later : List Change) :
    subscription.noted (earlier ++ later) =
      subscription.noted earlier ++ subscription.noted later :=
  List.filterMap_append

theorem selection_advance (move : Move) :
    (subscription.advance store number move).selection = subscription.selection := by
  unfold advance
  split
  · split <;> rfl
  · rfl
  · split <;> rfl

theorem prototype_advance (move : Move) :
    (subscription.advance store number move).prototype = subscription.prototype := by
  unfold advance
  split
  · split <;> rfl
  · rfl
  · split <;> rfl

theorem noted_advance (move : Move) (changes : List Change) :
    (subscription.advance store number move).noted changes = subscription.noted changes := by
  rw [noted, selection_advance, prototype_advance, noted]

/-- A move leaves at most one more change to the producer. -/
theorem length_pending_advance (move : Move) :
    (subscription.advance store number move).watch.channel.pending.length ≤
      subscription.watch.channel.pending.length + move.writes.length := by
  cases move with
  | write write =>
    unfold advance
    dsimp only
    cases (store.write write).published with
    | some change => exact subscription.watch.channel.length_pending_publish _
    | none => exact Nat.le_succ _
  | openWatch collection options => exact Nat.le_refl _
  | watch other step =>
    unfold advance
    dsimp only
    split
    · exact step.length_pending_apply subscription.watch
    · exact Nat.le_refl _

/-- A move adds to the events that the receiver can get at most what its change gives. -/
theorem obtainable_advance (move : Move) :
    ((subscription.received number move).toList ++
        (subscription.advance store number move).watch.channel.obtainable).Sublist
      (subscription.watch.channel.obtainable ++
        subscription.noted (store.log move.writes)) := by
  cases move with
  | write write =>
    change ((subscription.advance store number (.write write)).watch.channel.obtainable).Sublist
      (_ ++ subscription.noted ((store.write write).published.toList ++ []))
    rw [List.append_nil, noted_toList]
    unfold advance
    dsimp only
    cases (store.write write).published with
    | some change => exact subscription.watch.channel.obtainable_publish _
    | none => exact List.sublist_append_left _ _
  | openWatch collection options => exact List.sublist_append_left _ _
  | watch other step =>
    change List.Sublist _ (_ ++ [])
    rw [List.append_nil]
    unfold received advance
    dsimp only
    split
    · exact step.obtainable_apply subscription.watch
    · exact List.Sublist.refl _

/-- If the watch is live and spared and its producer has room for the change of a move, the
move adds exactly what its change gives. -/
theorem upcoming_advance {move : Move} (hlive : subscription.watch.channel.Live)
    (hspares : move.Spares number)
    (hroom : store.log move.writes ≠ [] →
      subscription.watch.channel.pending.length < Channel.backlog) :
    (subscription.received number move).toList ++
        (subscription.advance store number move).watch.channel.upcoming =
        subscription.watch.channel.upcoming ++ subscription.noted (store.log move.writes) ∧
      (subscription.advance store number move).watch.channel.Live ∧
      (subscription.advance store number move).watch.channel.capacity =
        subscription.watch.channel.capacity := by
  cases move with
  | write write =>
    change (store.write write).published.toList ++ [] ≠ [] → _ at hroom
    change (subscription.advance store number (.write write)).watch.channel.upcoming =
      _ ++ subscription.noted ((store.write write).published.toList ++ []) ∧ _
    rw [List.append_nil, noted_toList]
    rw [List.append_nil] at hroom
    unfold advance
    dsimp only
    cases hpublished : (store.write write).published with
    | some change =>
      rw [hpublished] at hroom
      exact ⟨Channel.upcoming_publish hlive.running (hroom nofun) _, hlive.publish _⟩
    | none => exact ⟨(List.append_nil _).symm, hlive, rfl⟩
  | openWatch collection options => exact ⟨(List.append_nil _).symm, hlive, rfl⟩
  | watch other step =>
    change _ = _ ++ [] ∧ _
    rw [List.append_nil]
    unfold received advance
    dsimp only
    split
    next hsame => exact WatchStep.upcoming_apply hlive (hspares hsame)
    next => exact ⟨rfl, hlive, rfl⟩

end Subscription

namespace Hub

/-- The hub after a move. -/
def perform (hub : Hub) : Move → Hub
  | .write write => (hub.absorb (hub.store.write write)).2
  | .openWatch collection options => (hub.openWatch collection options).2
  | .watch number step => WatchHost.modify hub number step.apply

/-- The hub after a run. -/
def play (hub : Hub) (moves : List Move) : Hub := moves.foldl perform hub

/-- The events that the receiver of the watch with a number gets in a run. -/
def delivered (number : Nat) : Hub → List Move → List Event
  | _, [] => []
  | hub, move :: moves =>
    (hub.subscriptions[number]?.bind fun subscription =>
        subscription.received number move).toList ++
      delivered number (hub.perform move) moves

/-- In the whole run the producer of the watch with a number has room for every change. -/
def KeepsUp (number : Nat) : Hub → List Move → Prop
  | _, [] => True
  | hub, move :: moves =>
    (∀ subscription, hub.subscriptions[number]? = some subscription →
      hub.store.log move.writes ≠ [] →
        subscription.watch.channel.pending.length < Channel.backlog) ∧
      KeepsUp number (hub.perform move) moves

/-! ## One move -/

theorem store_modify (hub : Hub) (number : Nat) (operation : Watch → Bool × Watch) :
    (WatchHost.modify hub number operation).store = hub.store := by
  unfold WatchHost.modify
  split
  · rfl
  · dsimp only
    split <;> rfl

theorem subscriptions_modify (hub : Hub) (number : Nat) (operation : Watch → Bool × Watch) :
    (WatchHost.modify hub number operation).subscriptions =
      hub.subscriptions.modify number fun subscription =>
        { subscription with watch := (operation subscription.watch).2 } := by
  have hwatch : WatchHost.watch? hub number =
      hub.subscriptions[number]?.map Subscription.watch := rfl
  unfold WatchHost.modify
  rw [hwatch]
  cases hfound : hub.subscriptions[number]? with
  | none =>
    exact (List.modify_eq_self (List.getElem?_eq_none_iff.mp hfound)).symm
  | some subscription =>
    have hset : (hub.setWatch number (operation subscription.watch).2).subscriptions =
        hub.subscriptions.modify number fun subscription =>
          { subscription with watch := (operation subscription.watch).2 } := by
      refine List.ext_getElem? fun index => ?_
      change (hub.subscriptions.modify number _)[index]? = _
      rw [List.getElem?_modify, List.getElem?_modify]
      by_cases hindex : number = index
      · subst hindex
        rw [hfound]
        simp
      · simp [hindex]
    dsimp only [Option.map_some]
    split <;> exact hset

theorem store_perform (hub : Hub) (move : Move) :
    (hub.perform move).store = hub.store.after move.writes := by
  cases move with
  | write write => exact hub.store_absorb _
  | openWatch collection options =>
    change (hub.openWatch collection options).2.store = hub.store
    unfold openWatch
    split <;> rfl
  | watch number step => exact hub.store_modify number step.apply

/-- What a move does to a watch. -/
theorem subscriptions_perform {hub : Hub} {number : Nat} {subscription : Subscription}
    (h : hub.subscriptions[number]? = some subscription) (move : Move) :
    (hub.perform move).subscriptions[number]? =
      some (subscription.advance hub.store number move) := by
  cases move with
  | write write =>
    change (hub.absorb (hub.store.write write)).2.subscriptions[number]? = _
    unfold absorb publish Subscription.advance
    dsimp only
    cases (hub.store.write write).published with
    | some change => exact (List.getElem?_map).trans (congrArg _ h)
    | none => exact h
  | openWatch collection options =>
    change (hub.openWatch collection options).2.subscriptions[number]? = some subscription
    unfold openWatch
    split
    · exact h
    · rw [← h]
      exact List.getElem?_append_left (List.getElem?_eq_some_iff.mp h).1
  | watch other step =>
    change (WatchHost.modify hub other step.apply).subscriptions[number]? = _
    rw [subscriptions_modify, List.getElem?_modify, h]
    unfold Subscription.advance
    dsimp only
    split <;> rfl

/-! ## Runs -/

theorem store_play (hub : Hub) (moves : List Move) :
    (hub.play moves).store = hub.store.after (moves.flatMap Move.writes) := by
  induction moves generalizing hub with
  | nil => rfl
  | cons move rest ih =>
    change ((hub.perform move).play rest).store = _
    rw [ih, store_perform, List.flatMap_cons, Store.after_append]

theorem log_cons (hub : Hub) (move : Move) (moves : List Move) :
    hub.store.log ((move :: moves).flatMap Move.writes) =
      hub.store.log move.writes ++ (hub.perform move).store.log (moves.flatMap Move.writes) := by
  rw [List.flatMap_cons, Store.log_append, store_perform]

variable {hub : Hub} {number : Nat} {subscription : Subscription}

theorem delivered_cons (h : hub.subscriptions[number]? = some subscription) (move : Move)
    (moves : List Move) :
    delivered number hub (move :: moves) =
      (subscription.received number move).toList ++ delivered number (hub.perform move) moves := by
  rw [delivered, h, Option.bind_some]

/-- A producer keeps up at least as long as there are no more writes than its source keeps. -/
theorem keepsUp_of_length_le (h : hub.subscriptions[number]? = some subscription)
    {moves : List Move}
    (hlength : subscription.watch.channel.pending.length +
      (moves.flatMap Move.writes).length ≤ Channel.backlog) : hub.KeepsUp number moves := by
  induction moves generalizing hub subscription with
  | nil => trivial
  | cons move rest ih =>
    rw [List.flatMap_cons, List.length_append] at hlength
    have hpending := subscription.length_pending_advance hub.store number move
    refine ⟨fun other hother hwrites => ?_, ih (subscriptions_perform h move) (by omega)⟩
    obtain rfl := Option.some.inj (h.symm.trans hother)
    have hwrite : 0 < move.writes.length := by
      refine List.length_pos_iff.mpr fun hnone => hwrites ?_
      rw [hnone]
      rfl
    omega

/-- A watch delivers a part of the events that the changes of the run give it, in their
order. -/
theorem delivered_sublist (h : hub.subscriptions[number]? = some subscription)
    (moves : List Move) :
    (delivered number hub moves).Sublist (subscription.watch.channel.obtainable ++
      subscription.noted (hub.store.log (moves.flatMap Move.writes))) := by
  induction moves generalizing hub subscription with
  | nil => exact List.nil_sublist _
  | cons move rest ih =>
    have hstep := subscription.obtainable_advance hub.store number move
    have hrest := ih (subscriptions_perform h move)
    rw [Subscription.noted_advance] at hrest
    rw [delivered_cons h, log_cons, Subscription.noted_append, ← List.append_assoc]
    refine ((List.Sublist.refl _).append hrest).trans ?_
    rw [← List.append_assoc]
    exact hstep.append (List.Sublist.refl _)

/-- A live watch that is spared and whose producer keeps up delivers all of them: what is not
delivered is still to come. -/
theorem delivered_append_upcoming (h : hub.subscriptions[number]? = some subscription)
    (hlive : subscription.watch.channel.Live) {moves : List Move}
    (hspares : ∀ move ∈ moves, move.Spares number) (hkeeps : hub.KeepsUp number moves) :
    ∃ final, (hub.play moves).subscriptions[number]? = some final ∧
      final.watch.channel.Live ∧
      final.watch.channel.capacity = subscription.watch.channel.capacity ∧
      delivered number hub moves ++ final.watch.channel.upcoming =
        subscription.watch.channel.upcoming ++
          subscription.noted (hub.store.log (moves.flatMap Move.writes)) := by
  induction moves generalizing hub subscription with
  | nil => exact ⟨subscription, h, hlive, rfl, (List.append_nil _).symm⟩
  | cons move rest ih =>
    obtain ⟨hmove, hrest⟩ := List.forall_mem_cons.mp hspares
    obtain ⟨hroom, hkeepsRest⟩ := hkeeps
    obtain ⟨hstep, hnext, hcapacity⟩ :=
      subscription.upcoming_advance hub.store number hlive hmove (hroom subscription h)
    obtain ⟨final, hfinal, hfinalLive, hsame, heq⟩ :=
      ih (subscriptions_perform h move) hnext hrest hkeepsRest
    refine ⟨final, hfinal, hfinalLive, hsame.trans hcapacity, ?_⟩
    rw [Subscription.noted_advance] at heq
    rw [delivered_cons h, List.append_assoc, heq, ← List.append_assoc, hstep, List.append_assoc,
      ← Subscription.noted_append, ← log_cons]

/-! ## A watch that is opened -/

variable {collection : Collection} {options : ListOptions} {selection : Selection}

/-- The subscription that is made for a watch on a selection of a collection. -/
def subscriptionOf (hub : Hub) (collection : Collection) (selection : Selection) : Subscription :=
  ⟨selection, collection.newItem, Watch.ofChannel (.openEnded hub.capacity)⟩

theorem openWatch_eq (hselection : Store.selectionOf collection options = .ok selection)
    (hub : Hub) :
    hub.openWatch collection options = (.ok hub.subscriptions.length,
      { hub with subscriptions := hub.subscriptions ++
        [hub.subscriptionOf collection selection] }) := by
  unfold openWatch
  rw [hselection]
  rfl

/-- A watch that has been opened has the number that its client is given. -/
theorem of_openWatch (hselection : Store.selectionOf collection options = .ok selection)
    {opened : Hub} (hopen : hub.openWatch collection options = (.ok number, opened)) :
    opened.store = hub.store ∧
      opened.subscriptions[number]? = some (hub.subscriptionOf collection selection) := by
  rw [openWatch_eq hselection] at hopen
  obtain ⟨hnumber, rfl⟩ := Prod.mk.inj hopen
  obtain rfl := Except.ok.inj hnumber
  exact ⟨rfl, List.getElem?_concat_length⟩

end Hub

end ClusterObjects
