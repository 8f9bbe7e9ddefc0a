import ClusterObjects.Proofs.Store.Loading
import ClusterObjects.Proofs.Store.Selected
import ClusterObjects.Proofs.Store.Versions
import ClusterObjects.Proofs.Watch.Delivery

/-! # What a watcher knows

A client that lists the objects of a selection and then applies the events of a watch
on it keeps a replica of what a list would show. An event is chosen by the value that
a write stores or removes, so a write that takes an object out of the selection but
leaves it in the store gives none: the replica keeps the object as it was when it was
selected last, until a later write brings it back into the selection.
-/

namespace ClusterObjects

/-- What a client knows of the objects of a collection, by their keys. -/
abbrev Replica := Entries Key Container

namespace Replica

/-- The replica of a client that has been shown objects. -/
def ofObjects (objects : List Container) : Replica :=
  objects.map fun object => (Key.ofContainer object, object)

def objects (replica : Replica) : List Container := replica.map (·.2)

/-- The replica after an event. -/
def apply (replica : Replica) (event : Event) : Replica :=
  match event.type with
  | .added | .modified => replica.insert (Key.ofContainer event.object) event.object
  | .deleted => replica.erase (Key.ofContainer event.object)
  | .error => replica

/-- The replica after events. -/
def replay (replica : Replica) (events : List Event) : Replica := events.foldl apply replica

theorem objects_ofObjects (objects : List Container) : (ofObjects objects).objects = objects := by
  rw [Replica.objects, ofObjects, List.map_map]
  exact List.map_id _

theorem keyed_ofObjects {objects : List Container} (h : (ofObjects objects).Ascending) (key : Key)
    (object : Container) (hobject : (ofObjects objects).get? key = some object) :
    Key.ofContainer object = key := by
  obtain ⟨_, _, hentry⟩ := List.mem_map.mp ((Entries.get?_eq_some_iff h).mp hobject)
  obtain ⟨hkey, rfl⟩ := Prod.mk.inj hentry
  exact hkey

section

variable {replica : Replica} (h : replica.Ascending)

include h

theorem ascending_apply (event : Event) : (replica.apply event).Ascending := by
  unfold apply
  split
  · exact h.insert _ _
  · exact h.insert _ _
  · exact h.erase _
  · exact h

/-- An event of a change tells what there is now under the key of its object. -/
theorem get?_apply {event : Event} (htype : event.type ≠ .error) (key : Key) :
    (replica.apply event).get? key =
      if Key.ofContainer event.object = key then
        if event.type = .deleted then none else some event.object
      else replica.get? key := by
  unfold apply
  split
  next hadded => simp [Entries.get?_insert, hadded]
  next hmodified => simp [Entries.get?_insert, hmodified]
  next hdeleted => rw [Entries.get?_erase h, if_pos hdeleted]
  next herror => exact absurd herror htype

variable (hkeyed : ∀ key object, replica.get? key = some object → Key.ofContainer object = key)

include hkeyed

/-- A replica whose objects have the keys that they are known by is made up of them. -/
theorem ofObjects_objects : ofObjects replica.objects = replica := by
  rw [ofObjects, objects, List.map_map]
  refine (List.map_congr_left fun entry hentry => ?_).trans (List.map_id _)
  have hfound := (Entries.get?_eq_some_iff h).mpr hentry
  exact Prod.ext (hkeyed _ _ hfound) rfl

theorem mem_objects_iff {object : Container} :
    object ∈ replica.objects ↔ replica.get? (Key.ofContainer object) = some object := by
  rw [Entries.get?_eq_some_iff h, objects, List.mem_map]
  constructor
  · rintro ⟨⟨key, other⟩, hentry, rfl⟩
    have hkey := hkeyed key other ((Entries.get?_eq_some_iff h).mpr hentry)
    exact hkey ▸ hentry
  · exact fun hentry => ⟨_, hentry, rfl⟩

end

end Replica

/-! ## Lists -/

/-- A value is shown in a collection as an object. -/
def Collection.Shows (collection : Collection) (value : Json) (object : Container) : Prop :=
  collection.newItem.load value = .ok object

section

variable {collection : Collection} {key : Key} {value : Json} {object : Container}

/-- The object that a value is shown as has the key that the value is stored under. -/
theorem Collection.Shows.key_eq (h : collection.Shows value object)
    (hprototype : collection.prototype.Lawful) (hvalue : Stored.Draft key value)
    (hkey : key.gvk = collection.itemGvk) : Key.ofContainer object = key := by
  have hgvk := (Collection.newItem_of_load hvalue hkey h).1
  exact (Store.keyOf_eq_ok_iff.mp
    (hvalue.keyOf_of_load hprototype.emptyLike hgvk.symm h)).2

/-- A value is shown as one object only. -/
theorem Collection.eq_of_shows {shown : Option Json} {known other : Option Container}
    (h : Option.Rel collection.Shows shown known)
    (hother : Option.Rel collection.Shows shown other) : known = other := by
  cases h with
  | some hknown =>
    cases hother with
    | some hagain => exact congrArg some (Except.ok.inj (hknown.symm.trans hagain))
  | none =>
    cases hother with
    | none => rfl

/-- A client that is shown the values of entries knows under each key what its value is shown
as. -/
theorem Replica.ofObjects_of_loadAll (hprototype : collection.prototype.Lawful)
    {entries : Entries Key Json}
    (hentries : ∀ entry ∈ entries,
      Stored.Draft entry.1 entry.2 ∧ entry.1.gvk = collection.itemGvk)
    {items : List Container} (h : collection.loadAll (entries.map (·.2)) = .ok items) :
    (ofObjects items).map (·.1) = entries.map (·.1) ∧
      ∀ key, Option.Rel collection.Shows (entries.get? key) ((ofObjects items).get? key) := by
  induction entries generalizing items with
  | nil =>
    obtain rfl := Except.ok.inj h
    exact ⟨rfl, fun _ => .none⟩
  | cons entry rest ih =>
    obtain ⟨stored, value⟩ := entry
    obtain ⟨⟨hvalue, hgvk⟩, hrest⟩ := List.forall_mem_cons.mp hentries
    rw [List.map_cons, Collection.loadAll] at h
    split at h
    · contradiction
    next object hobject =>
      split at h
      · contradiction
      next others hothers =>
        obtain rfl := Except.ok.inj h
        obtain ⟨hkeys, hshown⟩ := ih hrest hothers
        have hkey : Key.ofContainer object = stored :=
          Collection.Shows.key_eq hobject hprototype hvalue hgvk
        refine ⟨?_, fun key => ?_⟩
        · rw [ofObjects, List.map_cons, List.map_cons, List.map_cons, ← ofObjects, hkeys, hkey]
        · rw [ofObjects, List.map_cons, ← ofObjects, hkey, Entries.get?_cons, Entries.get?_cons]
          split
          · exact .some hobject
          · exact hshown key

end

namespace Store

/-- The objects of a list are known under each key as what the store shows there. -/
theorem Sound.ofObjects_listed {store : Store} (h : store.Sound) {collection : Collection}
    (hprototype : collection.prototype.Lawful) {selection : Selection}
    (hgvk : selection.gvk = collection.itemGvk) {items : List Container}
    (hitems : collection.loadAll (store.selected selection) = .ok items) :
    (Replica.ofObjects items).Ascending ∧ ∀ key, Option.Rel collection.Shows
      (store.shown? selection key) ((Replica.ofObjects items).get? key) := by
  have hentries : ∀ entry ∈ store.shown selection,
      Stored.Draft entry.1 entry.2 ∧ entry.1.gvk = collection.itemGvk := by
    intro entry hentry
    obtain ⟨hstored, hincludes⟩ := List.mem_filter.mp hentry
    have hbelongs := h.belongs _ _ ((Entries.get?_eq_some_iff h.ascending).mpr hstored)
    exact ⟨hbelongs.toDraft, (Selection.gvk_eq_of_includes hincludes).trans hgvk⟩
  obtain ⟨hkeys, hshown⟩ := Replica.ofObjects_of_loadAll hprototype hentries hitems
  constructor
  · have hascending : (store.shown selection).Ascending := h.ascending.sublist List.filter_sublist
    rw [Entries.ascending_iff_keys] at hascending ⊢
    rw [hkeys]
    exact hascending
  · intro key
    rw [← get?_shown h]
    exact hshown key

end Store

/-! ## Replicas -/

namespace Replica

/-- A replica shows what a client knows after a run: under each key the object that the store
shows there, or an object that the run has taken out of the selection. -/
structure Follows (replica : Replica) (collection : Collection) (selection : Selection)
    (store : Store) (writes : List Write) : Prop where
  ascending : replica.Ascending
  keyed : ∀ key object, replica.get? key = some object → Key.ofContainer object = key
  current : ∀ key, ¬ store.Strands selection key writes → Option.Rel collection.Shows
    ((store.after writes).shown? selection key) (replica.get? key)
  stranded : ∀ key, store.Strands selection key writes →
    (store.after writes).shown? selection key = none ∧ (replica.get? key).isSome

variable {replica : Replica} {collection : Collection} {selection : Selection} {store : Store}
  {writes : List Write}

/-- A client that has been shown a list knows what the store shows. -/
theorem follows_listed (h : store.Sound) (hprototype : collection.prototype.Lawful)
    (hgvk : selection.gvk = collection.itemGvk) {items : List Container}
    (hitems : collection.loadAll (store.selected selection) = .ok items) :
    (ofObjects items).Follows collection selection store [] := by
  obtain ⟨hascending, hshown⟩ := h.ofObjects_listed hprototype hgvk hitems
  exact ⟨hascending, keyed_ofObjects hascending, fun key _ => hshown key,
    fun key hstrands => absurd hstrands Store.not_strands_nil⟩

/-- A write that is refused leaves what the client knows. -/
theorem Follows.of_refused (h : replica.Follows collection selection store writes)
    {write : Write} {e : StoreError} (hrefused : (store.after writes).admitWrite write = .error e) :
    replica.Follows collection selection store (writes ++ [write]) := by
  have hafter := Store.after_of_refused hrefused
  refine ⟨h.ascending, h.keyed, fun key hcurrent => ?_, fun key hstrands => ?_⟩
  · rw [Store.strands_of_refused hrefused] at hcurrent
    rw [hafter]
    exact h.current key hcurrent
  · rw [Store.strands_of_refused hrefused] at hstrands
    rw [hafter]
    exact h.stranded key hstrands

section

variable (h : replica.Follows collection selection store writes)
  (hsound : (store.after writes).Sound) {write : Write} {change : Change}
  (hadmits : (store.after writes).admitWrite write = .ok change)

include h hsound hadmits

/-- A client that is told of a change knows its object. -/
theorem Follows.of_told (hincludes : selection.includes change.key change.value = true)
    {object : Container} (hobject : collection.Shows change.value object)
    (hkey : Key.ofContainer object = change.key) :
    (replica.apply ⟨change.type, object⟩).Follows collection selection store
      (writes ++ [write]) := by
  have hafter := Store.after_of_admitted hadmits
  have htype : (Event.mk change.type object).type ≠ .error :=
    Store.type_ne_error_of_admitWrite hadmits
  have hget := get?_apply h.ascending htype
  refine ⟨ascending_apply h.ascending _, fun key known hknown => ?_, fun key hcurrent => ?_,
    fun key hstrands => ?_⟩
  · rw [hget] at hknown
    split at hknown
    next hsame =>
      split at hknown
      · contradiction
      · rw [← Option.some.inj hknown]
        exact hsame
    next => exact h.keyed key known hknown
  · rw [Store.strands_of_admitted hsound.ascending hadmits, not_or] at hcurrent
    rw [hafter, Store.shown?_commit hsound.ascending, hget, hkey]
    by_cases hsame : change.key = key
    · subst hsame
      rw [if_pos rfl, if_pos rfl, hincludes]
      by_cases hdeleted : change.type = .deleted
      · simp [hdeleted]
      · simpa [hdeleted] using Option.Rel.some hobject
    · rw [if_neg hsame, if_neg hsame]
      exact h.current key fun hstrands => hcurrent.2 ⟨hstrands, fun heq => absurd heq hsame⟩
  · rw [Store.strands_of_admitted hsound.ascending hadmits] at hstrands
    have hother : change.key ≠ key := by
      rintro rfl
      rw [hincludes] at hstrands
      simp at hstrands
    rw [hafter, Store.shown?_commit hsound.ascending, hget, hkey, if_neg hother, if_neg hother]
    rcases hstrands with ⟨hsame, _⟩ | ⟨hstrands, _⟩
    · exact absurd hsame hother
    · exact h.stranded key hstrands

/-- A client that is not told of a change keeps what it knows. If the change is to an object in the
selection, this is what takes it out. -/
theorem Follows.of_untold (hexcluded : selection.includes change.key change.value = false) :
    replica.Follows collection selection store (writes ++ [write]) := by
  have hafter := Store.after_of_admitted hadmits
  have hhidden : (store.after (writes ++ [write])).shown? selection change.key = none := by
    rw [hafter, Store.shown?_commit hsound.ascending, if_pos rfl, if_pos (Or.inr hexcluded)]
  have hsame : ∀ key, change.key ≠ key → (store.after (writes ++ [write])).shown? selection key =
      (store.after writes).shown? selection key := by
    intro key hother
    rw [hafter, Store.shown?_commit hsound.ascending, if_neg hother]
  refine ⟨h.ascending, h.keyed, fun key hcurrent => ?_, fun key hstrands => ?_⟩
  · rw [Store.strands_of_admitted hsound.ascending hadmits, not_or] at hcurrent
    have hknown := h.current key fun hstrands => hcurrent.2 ⟨hstrands, fun heq => heq ▸ hexcluded⟩
    by_cases hkey : change.key = key
    · subst hkey
      have hnone : (store.after writes).shown? selection change.key = none := by
        cases hshown : (store.after writes).shown? selection change.key with
        | none => rfl
        | some value =>
          obtain ⟨hstored, hincludes⟩ := Store.shown?_eq_some_iff.mp hshown
          have hdeleted : change.type = .deleted := Decidable.byContradiction fun hother =>
            hcurrent.1 ⟨rfl, hother, hshown ▸ rfl, hexcluded⟩
          -- The value that is deleted is the one that was stored, which is in the selection.
          rw [Store.stored_of_deleted hadmits hdeleted] at hstored
          rw [← Option.some.inj hstored, hexcluded] at hincludes
          contradiction
      rw [hnone] at hknown
      rw [hhidden]
      exact hknown
    · rw [hsame key hkey]
      exact hknown
  · rw [Store.strands_of_admitted hsound.ascending hadmits] at hstrands
    rcases hstrands with ⟨rfl, _, hshown, _⟩ | ⟨hstrands, _⟩
    · refine ⟨hhidden, ?_⟩
      have hknown := h.current change.key fun hstrands => by
        rw [(h.stranded _ hstrands).1] at hshown
        contradiction
      obtain ⟨value, hvalue⟩ := Option.isSome_iff_exists.mp hshown
      rw [hvalue] at hknown
      cases hfound : replica.get? change.key with
      | none =>
        rw [hfound] at hknown
        cases hknown
      | some object => rfl
    · obtain ⟨hnone, hknown⟩ := h.stranded key hstrands
      refine ⟨?_, hknown⟩
      by_cases hkey : change.key = key
      · exact hkey ▸ hhidden
      · rw [hsame key hkey, hnone]

end

/-- A write whose change can be shown, if it is to a value in the selection, keeps a client that
takes its event into account up to date. -/
theorem Follows.of_write (h : replica.Follows collection selection store writes)
    (hsound : (store.after writes).Sound) (hprototype : collection.prototype.Lawful)
    (hgvk : selection.gvk = collection.itemGvk) {write : Write} (hwrite : write.WellFormed)
    (hdecodes : ∀ change ∈ ((store.after writes).write write).published,
      selection.includes change.key change.value = true →
        ∃ object, collection.Shows change.value object) :
    (replica.replay (((store.after writes).write write).published.bind
      (Change.event? selection collection.newItem)).toList).Follows collection selection store
      (writes ++ [write]) := by
  cases hadmits : (store.after writes).admitWrite write with
  | error e =>
    rw [Store.write_of_refused hadmits]
    exact h.of_refused hadmits
  | ok change =>
    rw [Store.write_of_admitted hadmits] at hdecodes ⊢
    rw [Option.bind_some]
    cases hincludes : selection.includes change.key change.value with
    | true =>
      obtain ⟨object, hobject⟩ := hdecodes change rfl hincludes
      obtain ⟨_, hchange⟩ := hsound.exists_numbered hwrite hadmits
      have hkind := (Selection.gvk_eq_of_includes hincludes).trans hgvk
      have hempty := (Collection.newItem_of_load hchange.belongs.toDraft hkind hobject).2
      have hevent : change.event? selection collection.newItem = some ⟨change.type, object⟩ :=
        Change.event?_eq_some_iff.mpr ⟨hincludes, hempty.symm ▸ hobject, rfl⟩
      rw [hevent]
      exact h.of_told hsound hadmits hincludes hobject
        (hobject.key_eq hprototype hchange.belongs.toDraft hkind)
    | false =>
      have hnone : change.event? selection collection.newItem = none := by
        unfold Change.event?
        rw [hincludes]
        rfl
      rw [hnone]
      exact h.of_untold hsound hadmits hincludes

/-- A client that takes all events of a run into account is up to date after it. -/
theorem Follows.append (h : replica.Follows collection selection store writes)
    (hsound : (store.after writes).Sound) (hprototype : collection.prototype.Lawful)
    (hgvk : selection.gvk = collection.itemGvk) {later : List Write}
    (hlater : ∀ write ∈ later, write.WellFormed)
    (hdecodes : ∀ change ∈ (store.after writes).log later,
      selection.includes change.key change.value = true →
        ∃ object, collection.Shows change.value object) :
    (replica.replay (((store.after writes).log later).filterMap
      (Change.event? selection collection.newItem))).Follows collection selection store
      (writes ++ later) := by
  induction later generalizing writes replica with
  | nil =>
    rw [List.append_nil]
    exact h
  | cons write rest ih =>
    obtain ⟨hwrite, hrest⟩ := List.forall_mem_cons.mp hlater
    rw [Store.log] at hdecodes ⊢
    obtain ⟨hnow, hthen⟩ := List.forall_mem_append.mp hdecodes
    have hstep := h.of_write hsound hprototype hgvk hwrite
      fun change hchange => hnow change (Option.mem_toList.mpr hchange)
    have hafter : store.after (writes ++ [write]) =
        ((store.after writes).write write).store := store.after_append writes [write]
    rw [← hafter] at hthen
    have hlast := ih hstep (hafter ▸ hsound.write hwrite) hrest hthen
    rw [List.append_assoc, List.singleton_append, hafter] at hlast
    rw [List.filterMap_append, filterMap_toList, replay, List.foldl_append]
    exact hlast

/-- What the store shows to a client that is up to date can be listed. -/
theorem Follows.exists_loadAll (h : replica.Follows collection selection store writes)
    (hsound : (store.after writes).Sound) :
    ∃ items, collection.loadAll ((store.after writes).selected selection) = .ok items := by
  refine Collection.exists_loadAll_iff.mpr fun value hvalue => ?_
  obtain ⟨key, hshown⟩ := (Store.mem_selected hsound.ascending).mp hvalue
  have hcurrent := h.current key fun hstrands => by
    rw [(h.stranded key hstrands).1] at hshown
    contradiction
  rw [hshown] at hcurrent
  generalize replica.get? key = known at hcurrent
  cases hcurrent with
  | some hobject => exact ⟨_, hobject⟩

/-- A replica that is up to date has all the objects that a list shows, and those that the run has
taken out of the selection besides. -/
theorem Follows.listed (h : replica.Follows collection selection store writes)
    (hsound : (store.after writes).Sound) (hprototype : collection.prototype.Lawful)
    (hgvk : selection.gvk = collection.itemGvk) {items : List Container}
    (hitems : collection.loadAll ((store.after writes).selected selection) = .ok items) :
    (∀ object ∈ items, object ∈ replica.objects) ∧
      (∀ object ∈ replica.objects, object ∉ items →
        store.Strands selection (Key.ofContainer object) writes) ∧
      (replica.objects = items ↔ ∀ key, ¬ store.Strands selection key writes) := by
  obtain ⟨hascending, hshown⟩ := hsound.ofObjects_listed hprototype hgvk hitems
  have hcurrent : ∀ key, ¬ store.Strands selection key writes →
      (ofObjects items).get? key = replica.get? key :=
    fun key hcurrent => Collection.eq_of_shows (hshown key) (h.current key hcurrent)
  have hstranded : ∀ key, store.Strands selection key writes →
      (ofObjects items).get? key = none := by
    intro key hstrands
    have hnone := hshown key
    rw [(h.stranded key hstrands).1] at hnone
    exact Collection.eq_of_shows hnone .none
  have hmem : ∀ object, object ∈ items ↔
      (ofObjects items).get? (Key.ofContainer object) = some object := by
    intro object
    rw [← mem_objects_iff hascending (keyed_ofObjects hascending), objects_ofObjects]
  have hknown := @mem_objects_iff replica h.ascending h.keyed
  refine ⟨fun object hobject => ?_, fun object hobject hlost => ?_, ?_, ?_⟩
  · rw [hmem] at hobject
    rw [hknown, ← hcurrent _ fun hstrands => ?_]
    · exact hobject
    · rw [hstranded _ hstrands] at hobject
      contradiction
  · rw [hknown] at hobject
    rw [hmem] at hlost
    exact Classical.byContradiction fun hstrands => hlost (hcurrent _ hstrands ▸ hobject)
  · intro heq key hstrands
    have hsome := (h.stranded key hstrands).2
    rw [← ofObjects_objects h.ascending h.keyed, heq, hstranded key hstrands] at hsome
    contradiction
  · intro hnever
    have heq : ofObjects items = replica :=
      hascending.ext h.ascending fun key => hcurrent key (hnever key)
    rw [← heq, objects_ofObjects]

end Replica

/-- In any state that a run of writes has led to a client lists the objects of a selection and opens
a watch on it, which is neither ended nor left behind in what follows, and every change to a value
in the selection can be shown. Then the list that the client would be given in the end has no
object that its replica lacks after all events, and what the replica has besides are objects that a
write has taken out of the selection but left in the store, with no later change at the key to a
value in the selection. So the replica is the list exactly if there are none of these. -/
theorem replica_eq_list_iff {start : Store} (hstart : start.Fresh) {earlier : List Write}
    (hearlier : ∀ write ∈ earlier, write.WellFormed) {hub : Hub}
    (hhub : hub.store = start.after earlier) (hcapacity : 0 < hub.capacity)
    {collection listed : Collection} (hprototype : collection.prototype.Lawful)
    {options : ListOptions} {selection : Selection}
    (hselection : Store.selectionOf collection options = .ok selection)
    (hlisted : hub.store.list collection options = .ok listed) {number : Nat} {opened : Hub}
    (hopen : hub.openWatch collection options = (.ok number, opened)) {moves : List Move}
    (hmoves : ∀ write ∈ moves.flatMap Move.writes, write.WellFormed)
    (hspares : ∀ move ∈ moves, move.Spares number) (hkeeps : opened.KeepsUp number moves)
    (hdecodes : ∀ change ∈ hub.store.log (moves.flatMap Move.writes),
      selection.includes change.key change.value = true →
        ∃ object, collection.Shows change.value object) :
    ∃ due replica final, opened.Delivers number moves due ∧
      (Replica.ofObjects listed.items).replay due = replica ∧
      (opened.play moves).store.list collection options = .ok final ∧
      (∀ object ∈ final.items, object ∈ replica.objects) ∧
      (∀ object ∈ replica.objects, object ∉ final.items →
        hub.store.Strands selection (Key.ofContainer object) (moves.flatMap Move.writes)) ∧
      (replica.objects = final.items ↔
        ∀ key, ¬ hub.store.Strands selection key (moves.flatMap Move.writes)) := by
  obtain ⟨hstore, hsubscription⟩ := Hub.of_openWatch hselection hopen
  have hsound : hub.store.Sound := by
    rw [hhub]
    exact hstart.sound.after hearlier
  have hgvk := Store.gvk_of_selectionOf hselection
  have hdelivers := Hub.delivers_noted hsubscription (Channel.live_openEnded _) hcapacity hspares
    hkeeps
  rw [hstore] at hdelivers
  have hfollows := (Replica.follows_listed hsound hprototype hgvk
    (Store.listUntil_eq_ok hselection hlisted).1).append hsound hprototype hgvk hmoves hdecodes
  have hafter := hsound.after hmoves
  obtain ⟨items, hitems⟩ := hfollows.exists_loadAll hafter
  obtain ⟨final, hfinal, rfl⟩ := Store.exists_list hselection hlisted hitems
  refine ⟨_, _, final, hdelivers, rfl, ?_, hfollows.listed hafter hprototype hgvk hitems⟩
  rw [Hub.store_play, hstore]
  exact hfinal

/-- A config map is created while a client watches all of them: its replica is the list. -/
theorem replica_eq_list_creation :
    ∃ due replica final, watching.Delivers 0 creation due ∧
      (Replica.ofObjects []).replay due = replica ∧
      (watching.play creation).store.list configMapCollection (.inNamespace "") = .ok final ∧
      replica.objects = final.items := by
  have hwrites : ∀ write ∈ creation.flatMap Move.writes, write.WellFormed :=
    fun write hwrite => List.mem_singleton.mp hwrite ▸ Store.wellFormed_named
  have hspares : ∀ move ∈ creation, move.Spares 0 :=
    List.forall_mem_cons.mpr ⟨trivial, List.forall_mem_singleton.mpr fun _ => Or.inl rfl⟩
  have hsubscription := (Hub.of_openWatch selectionOf_everyConfigMap openWatch_watching).2
  have hkeeps := @Hub.keepsUp_of_length_le _ _ _ hsubscription creation (by decide)
  have hshows : ((Store.still.log (creation.flatMap Move.writes)).all fun change =>
      (configMapCollection.newItem.load change.value).isOk) = true := by decide +kernel
  have hdecodes : ∀ change ∈ Store.still.log (creation.flatMap Move.writes),
      everyConfigMap.includes change.key change.value = true →
        ∃ object, configMapCollection.Shows change.value object := by
    intro change hchange _
    have hload := List.all_eq_true.mp hshows change hchange
    unfold Collection.Shows
    cases hresult : configMapCollection.newItem.load change.value with
    | ok object => exact ⟨object, rfl⟩
    | error e =>
      rw [hresult] at hload
      contradiction
  obtain ⟨due, replica, final, hdelivers, hreplay, hfinal, _, _, hequal⟩ :=
    replica_eq_list_iff Store.fresh_still (List.forall_mem_nil _)
      (show (Hub.ofStore Store.still 1).store = Store.still.after [] from rfl) Nat.one_pos
      (Container.lawful_generic _) selectionOf_everyConfigMap
      (show Store.still.list configMapCollection (.inNamespace "") = .ok _ from rfl)
      openWatch_watching hwrites hspares hkeeps hdecodes
  refine ⟨due, replica, final, hdelivers, hreplay, hfinal, hequal.mpr ?_⟩
  -- The only write finds nothing that it could take out of the selection.
  rintro key ⟨before, write, later, hsplit, hwithdraws, _⟩
  obtain rfl : before = [] := by
    have hone : [Write.create Store.named] = before ++ write :: later := hsplit
    cases before with
    | nil => rfl
    | cons => simp at hone
  exact absurd hwithdraws.shown nofun

/-! ## A config map that is labelled anew -/

/-- The config maps whose label says that they are for the web. -/
def webOptions : ListOptions := { ListOptions.inNamespace "" with labels := some "app=web" }

def webConfigMaps : Selection := ⟨configMapCollection.itemGvk, "", [.equals "app" "web"]⟩

theorem selectionOf_webConfigMaps :
    Store.selectionOf configMapCollection webOptions = .ok webConfigMaps := by
  have hrequirements : webOptions.requirements = .ok [.equals "app" "web"] :=
    eq_ok_of_toOption (by decide +kernel)
  rw [Store.selectionOf, hrequirements]
  rfl

/-- A config map with this label, and the same with another one. -/
def relabelling : Option (Container × Container) :=
  ((Container.generic Schema.configMap.gvk).load
      (Store.configMapValue [("app", .str "web")] [])).toOption.bind fun web =>
    ((Container.generic Schema.configMap.gvk).load
      (Store.configMapValue [("app", .str "db")] [])).toOption.map fun db => (web, db)

theorem wellFormed_relabelling {web db : Container} (h : relabelling = some (web, db)) :
    web.WellFormed ∧ db.WellFormed := by
  obtain ⟨found, hfound, h⟩ := Option.bind_eq_some_iff.mp h
  obtain ⟨other, hother, h⟩ := Option.map_eq_some_iff.mp h
  obtain ⟨rfl, rfl⟩ := Prod.mk.inj h
  have hgeneric := Container.lawful_generic Schema.configMap.gvk
  exact ⟨Container.wellFormed_of_load hgeneric (by decide +kernel) (eq_ok_of_toOption hfound),
    Container.wellFormed_of_load hgeneric (by decide +kernel) (eq_ok_of_toOption hother)⟩

/-- The client is not told that the config map has left the selection: its replica keeps it, and the
list is empty. -/
theorem not_replica_eq_list_relabelled : ∃ web db listed opened due final,
    relabelling = some (web, db) ∧ web.WellFormed ∧ db.WellFormed ∧
    (Store.still.after [.create web]).list configMapCollection webOptions = .ok listed ∧
    (Hub.ofStore (Store.still.after [.create web]) 1).openWatch configMapCollection webOptions =
      (.ok 0, opened) ∧
    ((Store.still.after [.create web]).write (.update db)).result.isOk = true ∧
    opened.KeepsUp 0 [.write (.update db)] ∧ opened.Delivers 0 [.write (.update db)] due ∧
    (opened.play [.write (.update db)]).store.list configMapCollection webOptions = .ok final ∧
    ((Replica.ofObjects listed.items).replay due).objects ≠ final.items := by
  have hrun : (relabelling.bind fun found =>
      let store := Store.still.after [.create found.1]
      let due := (store.log [.update found.2]).filterMap
        (Change.event? webConfigMaps configMapCollection.newItem)
      (store.list configMapCollection webOptions).toOption.bind fun listed =>
        ((store.after [.update found.2]).list configMapCollection webOptions).toOption.map
          fun final => ((store.write (.update found.2)).result.isOk,
            ((Replica.ofObjects listed.items).replay due).objects.length,
            final.items.length)) = some (true, 1, 0) := by decide +kernel
  obtain ⟨⟨web, db⟩, hfound, hrun⟩ := Option.bind_eq_some_iff.mp hrun
  obtain ⟨listed, hlisted, hrun⟩ := Option.bind_eq_some_iff.mp hrun
  obtain ⟨final, hfinal, hlengths⟩ := Option.map_eq_some_iff.mp hrun
  obtain ⟨hsucceeds, hlengths⟩ := Prod.mk.inj hlengths
  obtain ⟨hkept, hnone⟩ := Prod.mk.inj hlengths
  obtain ⟨hweb, hdb⟩ := wellFormed_relabelling hfound
  have hopen := Hub.openWatch_eq selectionOf_webConfigMaps
    (Hub.ofStore (Store.still.after [.create web]) 1)
  have hsubscription := (Hub.of_openWatch selectionOf_webConfigMaps hopen).2
  have hkeeps := @Hub.keepsUp_of_length_le _ _ _ hsubscription [.write (.update db)]
    (show 0 + 1 ≤ Channel.backlog by decide)
  refine ⟨web, db, listed, _, _, final, hfound, hweb, hdb, eq_ok_of_toOption hlisted, hopen,
    hsucceeds, hkeeps, Hub.delivers_noted hsubscription (Channel.live_openEnded _) Nat.one_pos
      (List.forall_mem_singleton.mpr trivial) hkeeps, ?_, fun heq => ?_⟩
  · rw [Hub.store_play]
    exact eq_ok_of_toOption hfinal
  · rw [← heq] at hnone
    exact absurd (hkept.symm.trans hnone) Nat.one_ne_zero

end ClusterObjects
