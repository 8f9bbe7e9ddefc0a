import ClusterObjects.Proofs.Store.Listings
import ClusterObjects.Proofs.Watch.Delivery

/-! # The versions of events and of lists

An event states the version of the value that it is about. For a change that takes a
version this is a new one, so that among the events of a watch each ADDED or MODIFIED
one has a later version than all before it. A DELETED one repeats the version of the
last event of its object, so it comes in order only in front of all events of other
types.

A list states the count of the store, which it reads after it has copied its objects: a
list that a write overtakes states a version that is too late for what it shows.
-/

namespace ClusterObjects

namespace Event

/-- The object of the event states the version with a number. -/
def HasNumber (event : Event) (n : Nat) : Prop :=
  event.object.metadata.resourceVersion? = some (Store.versionText n)

theorem HasNumber.eq {event : Event} {m n : Nat} (h : event.HasNumber m)
    (hother : event.HasNumber n) : m = n :=
  Store.versionText_injective (Option.some.inj (h.symm.trans hother))

/-- The version of an event is earlier than that of another. -/
def Precedes (first second : Event) : Prop :=
  ∃ m n, first.HasNumber m ∧ second.HasNumber n ∧ m < n

end Event

section

variable {selection : Selection} {prototype : Container} {change : Change} {event : Event}

/-- An event states the version of the value that the change is about. -/
theorem Change.hasNumber_of_event? (hprototype : prototype.Lawful)
    (h : change.event? selection prototype = some event)
    (hbelongs : Stored.Belongs change.key change.value) {n : Nat}
    (hversion : Store.HasVersion change.value n) : event.HasNumber n := by
  obtain ⟨_, hload, _⟩ := Change.event?_eq_some_iff.mp h
  exact hversion.of_load hprototype.emptyLike hbelongs.whole hload

end

/-- A relation holds along a list if each element is related to those before it. -/
theorem pairwise_of_split {α : Type} {R : α → α → Prop} {l : List α}
    (h : ∀ before last rest, l = before ++ last :: rest → ∀ first ∈ before, R first last) :
    l.Pairwise R := by
  refine List.pairwise_iff_forall_sublist.mpr fun {first last} hpair => ?_
  obtain ⟨front, back, rfl, hfirst, hlast⟩ := List.cons_sublist_iff.mp hpair
  obtain ⟨between, rest, rfl⟩ := List.append_of_mem (List.singleton_sublist.mp hlast)
  refine h (front ++ between) last rest ?_ first (List.mem_append_left _ hfirst)
  rw [List.append_assoc]

namespace Subscription

variable {subscription : Subscription} {store : Store} {writes : List Write}

/-- Of the events that a run gives a watcher, each has an earlier version than those after it,
DELETED ones apart. -/
theorem pairwise_noted (hprototype : subscription.prototype.Lawful) (h : store.Sound)
    (hwrites : ∀ write ∈ writes, write.WellFormed) :
    (subscription.noted (store.log writes)).Pairwise fun first second =>
      second.type ≠ .deleted → first.Precedes second := by
  rw [noted, List.pairwise_filterMap]
  refine (h.pairwise_log hwrites).imp_of_mem fun {change later} hchange hlater hprecedes => ?_
  intro first hfirst second hsecond hother
  obtain ⟨_, hbelongs, _⟩ := h.exists_version_of_mem_log hwrites hchange
  obtain ⟨_, hbelongsLater, _⟩ := h.exists_version_of_mem_log hwrites hlater
  rw [(Change.event?_eq_some_iff.mp hsecond).2.2] at hother
  obtain ⟨m, n, hm, hn, hlt⟩ := hprecedes hother
  exact ⟨m, n, Change.hasNumber_of_event? hprototype hfirst hbelongs hm,
    Change.hasNumber_of_event? hprototype hsecond hbelongsLater hn, hlt⟩

/-- The event of a deletion comes after one with the same version, or it has a version from
before the run. -/
theorem version_of_deleted (hprototype : subscription.prototype.Lawful) (h : store.Sound)
    (hwrites : ∀ write ∈ writes, write.WellFormed) {before rest : List Event} {last : Event}
    (hnoted : subscription.noted (store.log writes) = before ++ last :: rest)
    (hdeleted : last.type = .deleted) :
    ∃ n, last.HasNumber n ∧ (n ≤ store.revision ∨ ∃ first ∈ before, first.HasNumber n) := by
  obtain ⟨front, back, hlog, hfront, hback⟩ := List.filterMap_eq_append_iff.mp hnoted
  obtain ⟨between, change, others, rfl, hnone, hevent, _⟩ := List.filterMap_eq_cons_iff.mp hback
  have hbetween : subscription.noted (front ++ between) = before := by
    rw [noted_append, noted, hfront, noted, List.filterMap_eq_nil_iff.mpr hnone, List.append_nil]
  rw [← List.append_assoc] at hlog
  obtain ⟨hincludes, hload, htype⟩ := Change.event?_eq_some_iff.mp hevent
  obtain ⟨n, hbelongs, hversion, _⟩ := h.exists_version_of_mem_log hwrites
    (hlog ▸ List.mem_append_right _ List.mem_cons_self : change ∈ _)
  refine ⟨n, Change.hasNumber_of_event? hprototype hevent hbelongs hversion, ?_⟩
  rcases h.origin_of_deleted hwrites hlog (htype ▸ hdeleted) with
    hstored | ⟨made, hmade, _, hkey, hvalue⟩
  · obtain ⟨m, hm, hold⟩ := h.version _ _ hstored
    have hequal := (Store.versionOf_of_hasVersion hold).symm.trans
      (Store.versionOf_of_hasVersion hversion)
    exact Or.inl (Store.versionText_injective hequal ▸ hm)
  · -- The change that stored the value has given the watcher an event with the same object.
    rw [← hkey, ← hvalue] at hincludes hbelongs
    rw [← hvalue] at hload hversion
    have hmadeEvent : made.event? subscription.selection subscription.prototype =
        some ⟨made.type, last.object⟩ := Change.event?_eq_some_iff.mpr ⟨hincludes, hload, rfl⟩
    refine Or.inr ⟨⟨made.type, last.object⟩, ?_,
      Change.hasNumber_of_event? hprototype hmadeEvent hbelongs hversion⟩
    rw [← hbetween]
    exact List.mem_filterMap.mpr ⟨made, hmade, hmadeEvent⟩

/-- The first events of a run have ascending versions exactly if none of another type comes before
a DELETED one and the versions of these ascend. -/
theorem ascending_iff (hprototype : subscription.prototype.Lawful) (h : store.Sound)
    (hwrites : ∀ write ∈ writes, write.WellFormed) {events rest : List Event}
    (hnoted : subscription.noted (store.log writes) = events ++ rest) :
    events.Pairwise Event.Precedes ↔ events.Pairwise fun first second =>
      second.type = .deleted → first.type = .deleted ∧ first.Precedes second := by
  have hothers : events.Pairwise fun first second =>
      second.type ≠ .deleted → first.Precedes second := by
    have hall := pairwise_noted hprototype h hwrites
    rw [hnoted] at hall
    exact (List.pairwise_append.mp hall).1
  constructor
  · intro hascending
    refine pairwise_of_split fun before last tail hsplit first hfirst hdeleted => ?_
    rw [hsplit] at hascending hnoted
    have hprecedes : ∀ event ∈ before, event.Precedes last := fun event hevent =>
      (List.pairwise_append.mp hascending).2.2 event hevent last List.mem_cons_self
    refine ⟨Decidable.byContradiction fun hother => ?_, hprecedes first hfirst⟩
    rw [List.append_assoc] at hnoted
    obtain ⟨n, hn, hcases⟩ := version_of_deleted hprototype h hwrites hnoted hdeleted
    rcases hcases with hold | ⟨made, hmade, hsame⟩
    · -- The event in front has a version that was taken in the run.
      have hmem : first ∈ subscription.noted (store.log writes) := by
        rw [hnoted]
        exact List.mem_append_left _ hfirst
      obtain ⟨change, hchange, hevent⟩ := List.mem_filterMap.mp hmem
      obtain ⟨m, hbelongs, hversion, hlater⟩ := h.exists_version_of_mem_log hwrites hchange
      have hm := Change.hasNumber_of_event? hprototype hevent hbelongs hversion
      rw [(Change.event?_eq_some_iff.mp hevent).2.2] at hother
      have hnew := hlater hother
      obtain ⟨i, j, hi, hj, hlt⟩ := hprecedes first hfirst
      have := hi.eq hm
      have := hj.eq hn
      omega
    · obtain ⟨i, j, hi, hj, hlt⟩ := hprecedes made hmade
      have := hi.eq hsame
      have := hj.eq hn
      omega
  · intro hdeletions
    refine (hothers.and hdeletions).imp fun {first second} hboth => ?_
    by_cases hdeleted : second.type = .deleted
    · exact (hboth.2 hdeleted).2
    · exact hboth.1 hdeleted

end Subscription

namespace Hub

/-- The changes that the first moves of a run make, up to a number of moves. -/
def changes (hub : Hub) (moves : List Move) (upTo : Nat) : List Change :=
  hub.store.log ((moves.take upTo).flatMap Move.writes)

/-- How a second list of a run compares with the first. The first copies its objects at the start
and reads its version after a number of moves; the second copies its objects after some moves and
reads its version after some more. A version counts the changes made until it is read, deletions
apart. The lists show the same objects exactly if neither shows anything under a key that has been
touched between the copies; if the version of the second is the one that the store had at the
start, exactly if nothing that is selected has been deleted. -/
structure Relists (hub : Hub) (moves : List Move) (selection : Selection)
    (counted copied recounted : Nat) (listed relisted : Collection) : Prop where
  listedVersion : listed.resourceVersion = some (Store.versionText (hub.store.revision +
    (hub.changes moves counted).countP fun change => change.type ≠ .deleted))
  relistedVersion : relisted.resourceVersion = some (Store.versionText (hub.store.revision +
    (hub.changes moves recounted).countP fun change => change.type ≠ .deleted))
  objects : listed.items = relisted.items ↔ ∀ change ∈ hub.changes moves copied,
    hub.store.shown? selection change.key = none ∧
      (hub.play (moves.take copied)).store.shown? selection change.key = none
  deletions : relisted.resourceVersion = some (Store.versionText hub.store.revision) →
    (listed.items = relisted.items ↔ ∀ change ∈ hub.changes moves copied,
      selection.includes change.key change.value = false)

variable {hub : Hub} {moves : List Move}

theorem revision_play_take (hub : Hub) (moves : List Move) (upTo : Nat) :
    (hub.play (moves.take upTo)).store.revision =
      hub.store.revision + (hub.changes moves upTo).countP fun change =>
        change.type ≠ .deleted := by
  rw [store_play, Store.revision_after, changes]

/-- Later in a run the changes made before are still among those made. -/
theorem changes_subset {upTo later : Nat} (h : upTo ≤ later) :
    hub.changes moves upTo ⊆ hub.changes moves later := by
  have hsplit := List.take_append_drop upTo (moves.take later)
  rw [List.take_take, Nat.min_eq_left h] at hsplit
  rw [changes, changes, ← hsplit, List.flatMap_append, Store.log_append]
  exact List.subset_append_left _ _

/-- As long as the version stays the same, all changes are deletions. -/
theorem forall_deleted_of_revision {upTo : Nat}
    (h : (hub.play (moves.take upTo)).store.revision = hub.store.revision) :
    ∀ change ∈ hub.changes moves upTo, change.type = .deleted := by
  rw [revision_play_take, Nat.add_eq_left, List.countP_eq_zero] at h
  intro change hchange
  simpa using h change hchange

/-- Any two lists of a run, however they overlap with its writes and with each other, compare in
this way. -/
theorem relists_of_listUntil (hsound : hub.store.Sound)
    (hmoves : ∀ write ∈ moves.flatMap Move.writes, write.WellFormed) {collection : Collection}
    (hprototype : collection.prototype.Lawful) {options : ListOptions} {selection : Selection}
    (hselection : Store.selectionOf collection options = .ok selection)
    {counted copied recounted : Nat} (hcopied : copied ≤ recounted) {listed relisted : Collection}
    (hlisted : hub.store.listUntil (hub.play (moves.take counted)).store collection options =
      .ok listed)
    (hrelisted : (hub.play (moves.take copied)).store.listUntil
      (hub.play (moves.take recounted)).store collection options = .ok relisted) :
    hub.Relists moves selection counted copied recounted listed relisted := by
  obtain ⟨hitems, hversion⟩ := Store.listUntil_eq_ok hselection hlisted
  obtain ⟨hmore, hlater⟩ := Store.listUntil_eq_ok hselection hrelisted
  have hwrites : ∀ write ∈ (moves.take copied).flatMap Move.writes, write.WellFormed := by
    intro write hwrite
    obtain ⟨move, hmove, hwrite⟩ := List.mem_flatMap.mp hwrite
    exact hmoves write (List.mem_flatMap.mpr ⟨move, List.mem_of_mem_take hmove, hwrite⟩)
  refine ⟨?_, ?_, ?_, fun hsame => ?_⟩
  · rw [hversion, revision_play_take]
  · rw [hlater, revision_play_take]
  · rw [store_play] at hmore ⊢
    exact hsound.items_eq_iff hwrites hprototype hitems hmore
  · rw [hlater] at hsame
    have hdeletes :=
      forall_deleted_of_revision (Store.versionText_injective (Option.some.inj hsame))
    rw [store_play] at hmore
    exact hsound.items_eq_iff_of_deletions hwrites
      (fun change hchange => hdeletes change (changes_subset hcopied hchange)) hprototype hitems
      hmore

end Hub

/-- In any state that a run of writes has led to a watch is opened, and the same objects are listed
twice in what follows, the first time from the start. Whatever happens to the watch, each event
that it delivers has an earlier version than those after it, DELETED ones apart. If it is neither
ended nor left behind, the versions ascend exactly if no event of another type comes before a
DELETED one and the versions of these ascend. The version of a list counts the changes made until
it is read, deletions apart, and the two lists show the same objects exactly if neither shows
anything under a key that was touched between the copies that they are made from. -/
theorem version_order {start : Store} (hstart : start.Fresh) {earlier : List Write}
    (hearlier : ∀ write ∈ earlier, write.WellFormed) {hub : Hub}
    (hhub : hub.store = start.after earlier) {collection : Collection}
    (hprototype : collection.prototype.Lawful) {options : ListOptions} {selection : Selection}
    (hselection : Store.selectionOf collection options = .ok selection) {moves : List Move}
    (hmoves : ∀ write ∈ moves.flatMap Move.writes, write.WellFormed) :
    (∀ number opened, hub.openWatch collection options = (.ok number, opened) →
      (Hub.delivered number opened moves).Pairwise (fun first second =>
        second.type ≠ .deleted → first.Precedes second) ∧
      ((∀ move ∈ moves, move.Spares number) → opened.KeepsUp number moves →
        ((Hub.delivered number opened moves).Pairwise Event.Precedes ↔
          (Hub.delivered number opened moves).Pairwise fun first second =>
            second.type = .deleted → first.type = .deleted ∧ first.Precedes second))) ∧
    ∀ counted copied recounted listed relisted, copied ≤ recounted →
      hub.store.listUntil (hub.play (moves.take counted)).store collection options = .ok listed →
      (hub.play (moves.take copied)).store.listUntil (hub.play (moves.take recounted)).store
        collection options = .ok relisted →
      hub.Relists moves selection counted copied recounted listed relisted := by
  have hsound : hub.store.Sound := by
    rw [hhub]
    exact hstart.sound.after hearlier
  refine ⟨fun number opened hopen => ?_, ?_⟩
  · obtain ⟨hstore, hsubscription⟩ := Hub.of_openWatch hselection hopen
    rw [← hstore] at hsound
    have hlawful : (hub.subscriptionOf collection selection).prototype.Lawful :=
      hprototype.emptyLike
    refine ⟨?_, fun hspares hkeeps => ?_⟩
    · exact (Subscription.pairwise_noted hlawful hsound hmoves).sublist
        (Hub.delivered_sublist hsubscription moves)
    · obtain ⟨final, _, _, _, heq⟩ := Hub.delivered_append_upcoming hsubscription
        (Channel.live_openEnded _) hspares hkeeps
      exact Subscription.ascending_iff hlawful hsound hmoves heq.symm
  · intro counted copied recounted listed relisted hcopied hlisted hrelisted
    exact Hub.relists_of_listUntil hsound hmoves hprototype hselection hcopied hlisted hrelisted

/-! ## A config map that is created and deleted -/

/-- A config map is created and deleted, and the first watch delivers both events. -/
def churn : List Move :=
  [.write (.create Store.named), .watch 0 .produce, .watch 0 .produce, .watch 0 .receive,
    .write (.delete Store.named), .watch 0 .produce, .watch 0 .produce, .watch 0 .receive]

/-- The hub after the creation. -/
def created : Hub := (Hub.ofStore Store.still 1).play (churn.take 1)

/-- A list that copies its objects before the creation and reads its version after it has the
version of a list that is made next, although only that one shows the config map. -/
theorem version_order_churn :
    ((Hub.delivered 0 watching churn).Pairwise fun first second =>
      second.type ≠ .deleted → first.Precedes second) ∧
    ∃ listed relisted,
      Store.still.listUntil created.store configMapCollection (.inNamespace "") = .ok listed ∧
      created.store.list configMapCollection (.inNamespace "") = .ok relisted ∧
      listed.resourceVersion = relisted.resourceVersion ∧ listed.items ≠ relisted.items := by
  have hwrites : ∀ write ∈ churn.flatMap Move.writes, write.WellFormed :=
    List.forall_mem_cons.mpr ⟨Store.wellFormed_named,
      List.forall_mem_singleton.mpr Store.wellFormed_named⟩
  have horder := version_order Store.fresh_still (List.forall_mem_nil _)
    (show (Hub.ofStore Store.still 1).store = Store.still.after [] from rfl)
    (Container.lawful_generic _) selectionOf_everyConfigMap hwrites
  have hlists : (Store.still.listUntil created.store configMapCollection
        (.inNamespace "")).toOption.isSome = true ∧
      (created.store.list configMapCollection (.inNamespace "")).toOption.isSome = true := by
    decide +kernel
  have hshown : ((Hub.ofStore Store.still 1).changes churn 1).head?.map (fun change =>
      (created.store.shown? everyConfigMap change.key).isSome) = some true := by decide +kernel
  obtain ⟨listed, hlisted⟩ := Option.isSome_iff_exists.mp hlists.1
  obtain ⟨relisted, hrelisted⟩ := Option.isSome_iff_exists.mp hlists.2
  have hfirst := eq_ok_of_toOption hlisted
  have hsecond := eq_ok_of_toOption hrelisted
  have hrelists := horder.2 1 1 1 listed relisted (Nat.le_refl _) hfirst hsecond
  refine ⟨(horder.1 0 watching openWatch_watching).1, listed, relisted, hfirst, hsecond,
    hrelists.listedVersion.trans hrelists.relistedVersion.symm, fun hsame => ?_⟩
  obtain ⟨change, hchange, hsome⟩ := Option.map_eq_some_iff.mp hshown
  have hnone := (hrelists.objects.mp hsame change (List.mem_of_head? hchange)).2
  rw [show created.store.shown? everyConfigMap change.key = none from hnone] at hsome
  exact Bool.noConfusion hsome

/-- The two events have the same version, and so do the lists after the creation and after the
deletion, which show different objects. -/
theorem not_ascending_churn :
    ¬ (Hub.delivered 0 watching churn).Pairwise Event.Precedes ∧
    ∃ listed relisted,
      (watching.play (churn.take 4)).store.list configMapCollection (.inNamespace "") =
        .ok listed ∧
      (watching.play churn).store.list configMapCollection (.inNamespace "") = .ok relisted ∧
      listed.resourceVersion = relisted.resourceVersion ∧ listed.items ≠ relisted.items := by
  have hevents : (Hub.delivered 0 watching churn).map
      (fun event => event.object.metadata.resourceVersion?) = [some "1", some "1"] := by
    decide +kernel
  have hlists : ((watching.play (churn.take 4)).store.list configMapCollection
        (.inNamespace "")).toOption.map (fun listed =>
          (listed.resourceVersion, listed.items.length)) = some (some "1", 1) ∧
      ((watching.play churn).store.list configMapCollection
        (.inNamespace "")).toOption.map (fun listed =>
          (listed.resourceVersion, listed.items.length)) = some (some "1", 0) := by
    decide +kernel
  constructor
  · intro hascending
    obtain ⟨first, others, hsplit, hfirst, hothers⟩ := List.map_eq_cons_iff.mp hevents
    obtain ⟨second, none, rfl, hsecond, _⟩ := List.map_eq_cons_iff.mp hothers
    rw [hsplit] at hascending
    obtain ⟨m, n, hm, hn, hlt⟩ :=
      (List.pairwise_cons.mp hascending).1 second List.mem_cons_self
    have hequal : first.HasNumber n := hfirst.trans (hsecond.symm.trans hn)
    have := hm.eq hequal
    omega
  · obtain ⟨listed, hlisted, hfirst⟩ := Option.map_eq_some_iff.mp hlists.1
    obtain ⟨relisted, hrelisted, hsecond⟩ := Option.map_eq_some_iff.mp hlists.2
    obtain ⟨hversion, hlength⟩ := Prod.mk.inj hfirst
    obtain ⟨hlater, hnone⟩ := Prod.mk.inj hsecond
    refine ⟨listed, relisted, eq_ok_of_toOption hlisted, eq_ok_of_toOption hrelisted,
      hversion.trans hlater.symm, fun hsame => ?_⟩
    rw [hsame, hnone] at hlength
    exact absurd hlength Nat.zero_ne_one

end ClusterObjects
