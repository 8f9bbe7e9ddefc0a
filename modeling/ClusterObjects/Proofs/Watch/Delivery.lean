import ClusterObjects.Proofs.Store.Atomicity
import ClusterObjects.Proofs.Watch.Run

/-! # What a watch should deliver

A watcher expects one event for each successful write of an object that it has
selected, and none for a write that fails. A watch delivers one for each change that
is published, so its watcher gets what it expects unless a write fails after it has
been carried out.
-/

namespace ClusterObjects

namespace Store

/-- The value that a write is about: the one that it leaves under the key, or the one that it
removes from there. -/
def concerned? (store : Store) (key : Key) : Write → Option Json
  | .delete _ => store.items.get? key
  | write => (store.write write).store.items.get? key

/-- The event that a watcher of a selection expects for a write: there is one if the write
succeeds and its value is selected and can be loaded. -/
def notice? (selection : Selection) (prototype : Container) (store : Store) (write : Write) :
    Option Event :=
  match (store.write write).result, keyOf write.object with
  | .ok _, .ok key =>
    (store.concerned? key write).bind fun value =>
      if selection.includes key value then
        (prototype.emptyLike.load value).toOption.map fun object => ⟨write.eventType, object⟩
      else none
  | _, _ => none

/-- The events that a watcher of a selection expects for the writes of a run. -/
def notices (selection : Selection) (prototype : Container) : Store → List Write → List Event
  | _, [] => []
  | store, write :: writes =>
    (store.notice? selection prototype write).toList ++
      notices selection prototype (store.write write).store writes

/-- A write that fails but gives the watcher an event. -/
structure Misleads (selection : Selection) (prototype : Container) (store : Store)
    (write : Write) : Prop where
  fails : ∃ e, (store.write write).result = .error e
  told : ∃ change event, (store.write write).published = some change ∧
    change.event? selection prototype = some event

/-! ## One write -/

/-- The change of a write is about the value that the write is about. -/
theorem Sound.concerned?_eq {store : Store} (h : store.Sound) {write : Write} {change : Change}
    (hadmits : store.admitWrite write = .ok change) :
    store.concerned? change.key write = some change.value := by
  have htype := type_of_admitWrite hadmits
  have hafter : change.type ≠ .deleted →
      (store.write write).store.items.get? change.key = some change.value := by
    intro hne
    rw [write_eq, hadmits]
    change (store.commit change).items.get? change.key = _
    rw [get?_items_commit h.ascending, if_pos rfl, if_neg hne]
  cases write with
  | delete object =>
    obtain ⟨_, _, _, hstored, rfl⟩ := admitDelete_eq_ok hadmits
    exact hstored
  | _ => exact hafter (by rw [htype]; nofun)

/-- A watcher expects the event of the published change if the write succeeds. -/
theorem Sound.notice?_eq {store : Store} (h : store.Sound) (selection : Selection)
    (prototype : Container) (write : Write) :
    store.notice? selection prototype write =
      if (store.write write).result.isOk then
        (store.write write).published.bind (Change.event? selection prototype)
      else none := by
  unfold notice?
  cases hadmits : store.admitWrite write with
  | error e =>
    rw [write_of_refused hadmits]
    rfl
  | ok change =>
    rw [write_of_admitted hadmits, keyOf_of_admitWrite hadmits]
    cases readBack write change with
    | error e => rfl
    | ok result =>
      change (store.concerned? change.key write).bind _ = Change.event? selection prototype change
      rw [h.concerned?_eq hadmits, Option.bind_some, Change.event?, type_of_admitWrite hadmits]
      split
      · cases prototype.emptyLike.load change.value <;> rfl
      · rfl

/-- What a watcher expects for a write is what it is told, unless the write misleads it. -/
theorem Sound.notice?_cases {store : Store} (h : store.Sound) (subscription : Subscription)
    (write : Write) :
    ¬ store.Misleads subscription.selection subscription.prototype write ∧
        (store.notice? subscription.selection subscription.prototype write).toList =
          subscription.noted (store.write write).published.toList ∨
      store.Misleads subscription.selection subscription.prototype write ∧
        store.notice? subscription.selection subscription.prototype write = none ∧
        subscription.noted (store.write write).published.toList ≠ [] := by
  rw [h.notice?_eq, Subscription.noted_toList]
  cases hresult : (store.write write).result with
  | ok result =>
    refine Or.inl ⟨?_, rfl⟩
    rintro ⟨⟨e, hfails⟩, _⟩
    rw [hresult] at hfails
    contradiction
  | error e =>
    cases htold : (store.write write).published.bind
        (Change.event? subscription.selection subscription.prototype) with
    | none =>
      refine Or.inl ⟨?_, rfl⟩
      rintro ⟨_, change, event, hpublished, hevent⟩
      rw [hpublished, Option.bind_some, hevent] at htold
      contradiction
    | some event =>
      obtain ⟨change, hpublished, hevent⟩ := Option.bind_eq_some_iff.mp htold
      exact Or.inr ⟨⟨⟨e, hresult⟩, change, event, hpublished, hevent⟩, rfl, nofun⟩

/-! ## Runs -/

/-- Some write of the run misleads the watcher. -/
def MisleadsIn (selection : Selection) (prototype : Container) : Store → List Write → Prop
  | _, [] => False
  | store, write :: writes =>
    store.Misleads selection prototype write ∨
      MisleadsIn selection prototype (store.write write).store writes

theorem misleadsIn_iff {selection : Selection} {prototype : Container} {store : Store}
    {writes : List Write} :
    MisleadsIn selection prototype store writes ↔ ∃ before write rest,
      writes = before ++ write :: rest ∧
        (store.after before).Misleads selection prototype write := by
  induction writes generalizing store with
  | nil =>
    refine iff_of_false id ?_
    rintro ⟨before, write, rest, heq, _⟩
    simp at heq
  | cons first others ih =>
    rw [MisleadsIn, ih]
    constructor
    · rintro (hfirst | ⟨before, write, rest, rfl, hwrite⟩)
      · exact ⟨[], first, others, rfl, hfirst⟩
      · exact ⟨first :: before, write, rest, rfl, hwrite⟩
    · rintro ⟨before, write, rest, heq, hwrite⟩
      cases before with
      | nil =>
        obtain ⟨rfl, rfl⟩ := List.cons.inj heq
        exact Or.inl hwrite
      | cons head tail =>
        obtain ⟨rfl, rfl⟩ := List.cons.inj heq
        exact Or.inr ⟨tail, write, rest, rfl, hwrite⟩

/-- What a watcher expects is a part of what it is told. -/
theorem Sound.notices_sublist {store : Store} (h : store.Sound) (subscription : Subscription)
    {writes : List Write} (hwrites : ∀ write ∈ writes, write.WellFormed) :
    (notices subscription.selection subscription.prototype store writes).Sublist
      (subscription.noted (store.log writes)) := by
  induction writes generalizing store with
  | nil => exact List.Sublist.refl _
  | cons write rest ih =>
    obtain ⟨hwrite, hrest⟩ := List.forall_mem_cons.mp hwrites
    rw [notices, log, Subscription.noted_append]
    refine List.Sublist.append ?_ (ih (h.write hwrite) hrest)
    rcases h.notice?_cases subscription write with ⟨_, heq⟩ | ⟨_, hnone, _⟩
    · exact heq ▸ List.Sublist.refl _
    · rw [hnone]
      exact List.nil_sublist _

/-- It is all that it is told exactly if no write of the run misleads it. -/
theorem Sound.notices_eq_iff {store : Store} (h : store.Sound) (subscription : Subscription)
    {writes : List Write} (hwrites : ∀ write ∈ writes, write.WellFormed) :
    notices subscription.selection subscription.prototype store writes =
        subscription.noted (store.log writes) ↔
      ¬ MisleadsIn subscription.selection subscription.prototype store writes := by
  induction writes generalizing store with
  | nil => exact iff_of_true rfl id
  | cons write rest ih =>
    obtain ⟨hwrite, hrest⟩ := List.forall_mem_cons.mp hwrites
    have hsound := h.write hwrite
    rw [notices, log, Subscription.noted_append, MisleadsIn, not_or, ← ih hsound hrest]
    rcases h.notice?_cases subscription write with ⟨hfair, heq⟩ | ⟨hmisleads, hnone, hne⟩
    · rw [heq, List.append_cancel_left_eq, and_iff_right hfair]
    · -- The event of the misleading write makes what is told longer than what is expected.
      refine iff_of_false (fun hequal => ?_) fun hboth => hboth.1 hmisleads
      have hlength := congrArg List.length hequal
      have hsublist := (hsound.notices_sublist subscription hrest).length_le
      have hpositive := List.length_pos_iff.mpr hne
      rw [hnone, List.length_append, List.length_append] at hlength
      simp only [Option.toList_none, List.length_nil] at hlength
      omega

end Store

namespace Hub

/-- In a run the watch with a number delivers the given events: its receiver has got the first
of them; once the producer has caught up, the others are in the queue; and they are what the
receiver gets if it goes on taking. -/
structure Delivers (hub : Hub) (number : Nat) (moves : List Move) (due : List Event) : Prop where
  received : delivered number hub moves <+: due
  caughtUp : ∀ subscription, (hub.play moves).subscriptions[number]? = some subscription →
    subscription.watch.channel.pending = [] → subscription.watch.channel.held = none →
      delivered number hub moves ++ subscription.watch.channel.queue = due
  drained : ∃ rest closed final,
    WatchHost.drain (hub.play moves) number = some (rest, closed, final) ∧
      delivered number hub moves ++ rest = due

/-- What a watch delivers is determined by the run. -/
theorem Delivers.unique {hub : Hub} {number : Nat} {moves : List Move} {due other : List Event}
    (h : hub.Delivers number moves due) (hother : hub.Delivers number moves other) :
    due = other := by
  obtain ⟨rest, closed, final, hdrain, rfl⟩ := h.drained
  obtain ⟨more, _, _, hagain, rfl⟩ := hother.drained
  rw [hdrain] at hagain
  rw [(Prod.mk.inj (Option.some.inj hagain)).1]

/-- A live watch that is spared and whose producer keeps up delivers what was still to come and
what the changes of the run give it. -/
theorem delivers_noted {hub : Hub} {number : Nat} {subscription : Subscription}
    (h : hub.subscriptions[number]? = some subscription)
    (hlive : subscription.watch.channel.Live)
    (hcapacity : 0 < subscription.watch.channel.capacity) {moves : List Move}
    (hspares : ∀ move ∈ moves, move.Spares number) (hkeeps : hub.KeepsUp number moves) :
    hub.Delivers number moves (subscription.watch.channel.upcoming ++
      subscription.noted (hub.store.log (moves.flatMap Move.writes))) := by
  obtain ⟨final, hfinal, hfinalLive, hsame, heq⟩ :=
    delivered_append_upcoming h hlive hspares hkeeps
  have hdrain := hfinalLive.drain (hsame ▸ hcapacity)
  refine ⟨⟨_, heq⟩, ?_, ?_⟩
  · intro other hother hpending hheld
    obtain rfl := Option.some.inj (hfinal.symm.trans hother)
    rw [← heq, Channel.upcoming, hpending, hheld]
    simp
  · have hwatch : WatchHost.watch? (hub.play moves) number = some final.watch := by
      change (hub.play moves).subscriptions[number]?.map _ = _
      rw [hfinal]
      rfl
    unfold WatchHost.drain
    rw [hwatch, Option.map_some]
    refine ⟨_, _, _, rfl, ?_⟩
    change _ ++ final.watch.channel.drain.1 = _
    rw [hdrain, heq]

end Hub

/-- A watch that is opened in any state that a run of writes has led to, and is neither ended
nor left behind in what follows, delivers one event for each published change that concerns
it. This is one event for each successful write of an object that is selected, and none for
the others, exactly if no write that fails has been carried out and told to the watcher. -/
theorem delivers_notices_iff {start : Store} (hstart : start.Fresh) {earlier : List Write}
    (hearlier : ∀ write ∈ earlier, write.WellFormed) {hub : Hub}
    (hhub : hub.store = start.after earlier) (hcapacity : 0 < hub.capacity)
    {collection : Collection} {options : ListOptions} {selection : Selection}
    (hselection : Store.selectionOf collection options = .ok selection) {number : Nat}
    {opened : Hub} (hopen : hub.openWatch collection options = (.ok number, opened))
    {moves : List Move} (hmoves : ∀ write ∈ moves.flatMap Move.writes, write.WellFormed)
    (hspares : ∀ move ∈ moves, move.Spares number) (hkeeps : opened.KeepsUp number moves) :
    opened.Delivers number moves ((opened.store.log (moves.flatMap Move.writes)).filterMap
      (Change.event? selection collection.newItem)) ∧
    (opened.Delivers number moves
        (opened.store.notices selection collection.newItem (moves.flatMap Move.writes)) ↔
      ¬ ∃ before write rest, moves.flatMap Move.writes = before ++ write :: rest ∧
        (opened.store.after before).Misleads selection collection.newItem write) := by
  obtain ⟨hstore, hsubscription⟩ := Hub.of_openWatch hselection hopen
  have hsound : opened.store.Sound := by
    rw [hstore, hhub]
    exact hstart.sound.after hearlier
  have hdelivers := Hub.delivers_noted hsubscription (Channel.live_openEnded _) hcapacity hspares
    hkeeps
  have hdue := hsound.notices_eq_iff (hub.subscriptionOf collection selection) hmoves
  rw [Store.misleadsIn_iff] at hdue
  refine ⟨hdelivers, Iff.trans ⟨fun h => h.unique hdelivers, fun heq => ?_⟩ hdue⟩
  rw [show opened.store.notices selection collection.newItem _ = _ from heq]
  exact hdelivers

/-! ## Config maps -/

/-- The collection of the generic config maps. -/
def configMapCollection : Collection := .ofPrototype (.generic Schema.configMap.gvk)

/-- The selection of all config maps. -/
def everyConfigMap : Selection := ⟨configMapCollection.itemGvk, "", []⟩

theorem selectionOf_everyConfigMap :
    Store.selectionOf configMapCollection (.inNamespace "") = .ok everyConfigMap := rfl

/-- A fresh hub with a watch on all config maps. -/
def watching : Hub :=
  ((Hub.ofStore Store.still 1).openWatch configMapCollection (.inNamespace "")).2

theorem openWatch_watching :
    (Hub.ofStore Store.still 1).openWatch configMapCollection (.inNamespace "") =
      (.ok 0, watching) := by
  rw [watching, Hub.openWatch_eq selectionOf_everyConfigMap]
  rfl

/-- A config map is created, and the producer of the watch takes a step. -/
def creation : List Move := [.write (.create Store.named), .watch 0 .produce]

/-- The watch delivers the creation. -/
theorem delivers_notices_named :
    watching.Delivers 0 creation (watching.store.notices everyConfigMap
      configMapCollection.newItem (creation.flatMap Move.writes)) := by
  have hwrites : ∀ write ∈ creation.flatMap Move.writes, write.WellFormed :=
    fun write hwrite => List.mem_singleton.mp hwrite ▸ Store.wellFormed_named
  have hspares : ∀ move ∈ creation, move.Spares 0 :=
    List.forall_mem_cons.mpr ⟨trivial, List.forall_mem_singleton.mpr fun _ => Or.inl rfl⟩
  have hcreates : (Store.still.write (.create Store.named)).result.isOk = true := by
    decide +kernel
  have hsubscription := (Hub.of_openWatch selectionOf_everyConfigMap openWatch_watching).2
  have hkeeps := @Hub.keepsUp_of_length_le _ _ _ hsubscription creation (by decide)
  refine (delivers_notices_iff Store.fresh_still (List.forall_mem_nil _) rfl Nat.one_pos
    selectionOf_everyConfigMap openWatch_watching hwrites hspares hkeeps).2.mpr ?_
  rintro ⟨before, write, rest, hsplit, ⟨e, hfails⟩, _⟩
  obtain ⟨rfl, rfl⟩ : before = [] ∧ write = .create Store.named := by
    have hone : [Write.create Store.named] = before ++ write :: rest := hsplit
    cases before <;> simp_all
  rw [show (Store.still.write (.create Store.named)).result = .error e from hfails] at hcreates
  exact Bool.noConfusion hcreates

/-- A config map whose data is no map, as a generic client creates it, and a patch by a typed
client that labels it. -/
def foreignPatch : Option (Container × Write) :=
  ((Container.generic Schema.configMap.gvk).load
      (Store.configMapValue [] [("data", .ofInt 5)])).toOption.bind fun odd =>
    ((Container.ofTyped Schema.configMap).load (Store.configMapValue [] [])).toOption.bind
      fun base =>
        ((Container.ofTyped Schema.configMap).load
          (Store.configMapValue [("x", .str "y")] [])).toOption.map fun object =>
            (odd, .patch base object)

theorem wellFormed_foreignPatch {odd : Container} {write : Write}
    (h : foreignPatch = some (odd, write)) : odd.WellFormed ∧ write.WellFormed := by
  obtain ⟨found, hfound, h⟩ := Option.bind_eq_some_iff.mp h
  obtain ⟨base, hbase, h⟩ := Option.bind_eq_some_iff.mp h
  obtain ⟨object, hobject, h⟩ := Option.map_eq_some_iff.mp h
  obtain ⟨rfl, rfl⟩ := Prod.mk.inj h
  have htyped := Container.lawful_ofTyped Schema.lawful_configMap
  exact ⟨Container.wellFormed_of_load (Container.lawful_generic _) (by decide +kernel)
      (eq_ok_of_toOption hfound),
    Container.wellFormed_of_load htyped (by decide +kernel) (eq_ok_of_toOption hbase),
    Container.wellFormed_of_load htyped (by decide +kernel) (eq_ok_of_toOption hobject)⟩

/-- The patch fails, but the watcher is told of it. -/
theorem not_delivers_foreign : ∃ odd write opened, foreignPatch = some (odd, write) ∧
    odd.WellFormed ∧ write.WellFormed ∧
    (Hub.ofStore (Store.still.after [.create odd]) 1).openWatch configMapCollection
      (.inNamespace "") = (.ok 0, opened) ∧
    ¬ opened.Delivers 0 [.write write]
      (opened.store.notices everyConfigMap configMapCollection.newItem [write]) := by
  have hrun : (foreignPatch.map fun found =>
      let opened := ((Hub.ofStore (Store.still.after [.create found.1]) 1).openWatch
        configMapCollection (.inNamespace "")).2
      ((WatchHost.drain (opened.play [.write found.2]) 0).map (·.1.length),
        (opened.store.notices everyConfigMap configMapCollection.newItem [found.2]).length)) =
      some (some 1, 0) := by decide +kernel
  obtain ⟨⟨odd, write⟩, hfound, hlengths⟩ := Option.map_eq_some_iff.mp hrun
  obtain ⟨hodd, hwrite⟩ := wellFormed_foreignPatch hfound
  obtain ⟨hdrained, hnotices⟩ := Prod.mk.inj hlengths
  have hopen := Hub.openWatch_eq selectionOf_everyConfigMap
    (Hub.ofStore (Store.still.after [.create odd]) 1)
  refine ⟨odd, write, _, hfound, hodd, hwrite, hopen, fun h => ?_⟩
  obtain ⟨rest, closed, final, hdrain, hdue⟩ := h.drained
  rw [hopen] at hdrained hnotices
  dsimp only at hdrained hnotices
  rw [hdrain] at hdrained
  -- Nothing is received before the drain, which finds one event more than is expected.
  have hlength := congrArg List.length hdue
  rw [hnotices, List.length_append] at hlength
  have hone := Option.some.inj hdrained
  simp only at hone
  omega

end ClusterObjects
