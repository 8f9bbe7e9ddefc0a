import ClusterObjects.Proofs.Entries
import ClusterObjects.Proofs.Scheme
import Mathlib.Data.Finset.Card

/-! # What a registry shows of its registrations

Whatever is registered, and under however many names, the index of a registry and its entries
stay in bijection: every name has one position, and its entry stands there. The entries keep the
order in which their names came up first, and a name gives what was registered under it last.
-/

namespace ClusterObjects.Registry

/-! ## Sequences of registrations -/

/-- The entry that a registration makes. -/
def Addition.entry : Addition → Registration
  | .typed name kind => ⟨name, ⟨kind.gvk.group, kind.gvk.version, name⟩, some kind.gvk, some kind⟩
  | .generic name gvr kind => ⟨name, gvr, kind, none⟩

variable {registry : Registry} {made : List Registration} {entry : Registration} {name : String}

theorem add_eq_register (registry : Registry) (addition : Addition) :
    registry.add addition = registry.register addition.entry := by
  cases addition <;> rfl

theorem ofAdditions_concat (additions : List Addition) (addition : Addition) :
    ofAdditions (additions ++ [addition]) = (ofAdditions additions).register addition.entry := by
  rw [ofAdditions, List.foldl_concat, add_eq_register]
  rfl

/-- The last of some registrations under a name. -/
def last? (made : List Registration) (name : String) : Option Registration :=
  made.findRev? fun entry => entry.name = name

theorem last?_concat (made : List Registration) (entry : Registration) (name : String) :
    last? (made ++ [entry]) name = if entry.name = name then some entry else last? made name := by
  rw [last?, last?, List.findRev?_eq_find?_reverse, List.findRev?_eq_find?_reverse,
    List.reverse_concat, List.find?_cons]
  by_cases hname : entry.name = name <;> simp [hname]

theorem last?_eq_none_iff : last? made name = none ↔ name ∉ made.map Registration.name := by
  rw [last?, List.findRev?_eq_find?_reverse, List.find?_eq_none]
  simp

/-- The names of the entries, in their order. -/
def names (registry : Registry) : List String := registry.entries.map Registration.name

theorem getElem?_names_eq_some_iff {position : Nat} :
    registry.names[position]? = some name ↔
      ∃ entry, registry.entries[position]? = some entry ∧ entry.name = name := by
  rw [names, List.getElem?_map, Option.map_eq_some_iff]

/-! ## What every registration keeps -/

theorem eraseDups_concat (names : List String) (name : String) :
    (names ++ [name]).eraseDups =
      if name ∈ names then names.eraseDups else names.eraseDups ++ [name] := by
  rw [List.eraseDups_append]
  by_cases h : name ∈ names
  · have hnothing : List.removeAll [name] names = [] := by simp [List.removeAll, h]
    rw [hnothing, if_pos h, List.eraseDups_nil, List.append_nil]
  · have hall : List.removeAll [name] names = [name] := by simp [List.removeAll, h]
    rw [hall, if_neg h]
    rfl

/-- The entries have different names, which stand in the order in which they came up first, the
index holds these with their positions and nothing else, and every entry is the last registration
under its name. -/
structure Follows (registry : Registry) (made : List Registration) : Prop where
  distinct : registry.names.Nodup
  index : registry.positions.Perm registry.names.zipIdx
  ordered : registry.names = (made.map Registration.name).eraseDups
  latest : ∀ (position : Nat) entry, registry.entries[position]? = some entry →
    last? made entry.name = some entry

theorem follows_empty : empty.Follows [] where
  distinct := List.nodup_nil
  index := List.Perm.refl []
  ordered := rfl
  latest := fun _ _ hentry => nomatch hentry

/-- A name has a position exactly if the entry there has this name. -/
theorem Follows.get?_positions_eq_some_iff (h : registry.Follows made) {position : Nat} :
    registry.positions.get? name = some position ↔ registry.names[position]? = some name := by
  have hkeys : (registry.positions.map Prod.fst).Nodup := by
    rw [(h.index.map Prod.fst).nodup_iff, List.zipIdx_map_fst]
    exact h.distinct
  rw [Entries.get?_eq_some_iff_mem hkeys, h.index.mem_iff, List.mk_mem_zipIdx_iff_getElem?]

theorem Follows.get?_positions_eq_none_iff (h : registry.Follows made) :
    registry.positions.get? name = none ↔ name ∉ registry.names := by
  rw [Option.eq_none_iff_forall_ne_some, List.mem_iff_getElem?, not_exists]
  exact forall_congr' fun position => not_congr h.get?_positions_eq_some_iff

theorem Follows.mem_names_iff (h : registry.Follows made) :
    name ∈ registry.names ↔ name ∈ made.map Registration.name := by
  rw [h.ordered, List.mem_eraseDups]

/-- A registration under a known name takes the place of the entry that has it. -/
theorem Follows.replace (h : registry.Follows made) {position : Nat}
    (hposition : registry.names[position]? = some entry.name) :
    Follows { registry with entries := registry.entries.set position entry } (made ++ [entry]) := by
  obtain ⟨hlt, hname⟩ := List.getElem?_eq_some_iff.mp hposition
  have hnames : names { registry with entries := registry.entries.set position entry } =
      registry.names := by
    rw [names, List.map_set, ← hname]
    exact List.set_getElem_self hlt
  have hknown : entry.name ∈ made.map Registration.name :=
    h.mem_names_iff.mp (List.mem_of_getElem? hposition)
  constructor
  · rw [hnames]
    exact h.distinct
  · rw [hnames]
    exact h.index
  · rw [hnames, List.map_append, List.map_singleton, eraseDups_concat, if_pos hknown]
    exact h.ordered
  · intro other found hfound
    rw [List.getElem?_set] at hfound
    rw [last?_concat]
    split at hfound
    next hsame =>
      have hnew : entry = found := by
        split at hfound
        · exact Option.some.inj hfound
        · contradiction
      rw [hnew, if_pos rfl]
    next hother =>
      -- No other position has the name of the new entry.
      have hdiffers : entry.name ≠ found.name := by
        intro heq
        have hsame : registry.names[other]? = some entry.name :=
          getElem?_names_eq_some_iff.mpr ⟨found, hfound, heq.symm⟩
        exact hother ((List.getElem?_inj hlt h.distinct).mp (hposition.trans hsame.symm))
      rw [if_neg hdiffers]
      exact h.latest other found hfound

/-- A registration under a new name adds an entry behind the others. -/
theorem Follows.extend (h : registry.Follows made) (hnew : entry.name ∉ registry.names) :
    Follows ⟨registry.entries ++ [entry],
      registry.positions.insert entry.name registry.entries.length⟩ (made ++ [entry]) := by
  have hnames : names ⟨registry.entries ++ [entry],
      registry.positions.insert entry.name registry.entries.length⟩ =
        registry.names ++ [entry.name] := List.map_append
  have hunknown : entry.name ∉ made.map Registration.name := mt h.mem_names_iff.mpr hnew
  constructor
  · rw [hnames]
    exact (List.perm_append_singleton _ _).nodup_iff.mpr (List.nodup_cons.mpr ⟨hnew, h.distinct⟩)
  · rw [hnames, List.zipIdx_append]
    have hlength : registry.names.length = registry.entries.length := List.length_map _
    rw [hlength, Nat.zero_add]
    exact (Entries.perm_insert (h.get?_positions_eq_none_iff.mpr hnew) _).trans
      ((h.index.cons _).trans (List.perm_append_singleton _ _).symm)
  · rw [hnames, List.map_append, List.map_singleton, eraseDups_concat, if_neg hunknown,
      h.ordered]
  · intro position found hfound
    rw [last?_concat]
    rcases List.mem_append.mp (List.mem_of_getElem? hfound) with hold | hlast
    · have hdiffers : entry.name ≠ found.name := by
        intro heq
        exact hnew (heq ▸ List.mem_map_of_mem hold)
      obtain ⟨place, hplace⟩ := List.mem_iff_getElem?.mp hold
      rw [if_neg hdiffers]
      exact h.latest place found hplace
    · rw [List.mem_singleton.mp hlast, if_pos rfl]

theorem Follows.register (h : registry.Follows made) (entry : Registration) :
    (registry.register entry).Follows (made ++ [entry]) := by
  unfold Registry.register
  split
  next position hposition => exact h.replace (h.get?_positions_eq_some_iff.mp hposition)
  next hnone => exact h.extend (h.get?_positions_eq_none_iff.mp hnone)

theorem follows_ofAdditions (additions : List Addition) :
    (ofAdditions additions).Follows (additions.map Addition.entry) := by
  induction additions using List.reverseRecOn with
  | nil => exact follows_empty
  | append_singleton earlier addition ih =>
    rw [ofAdditions_concat, List.map_append, List.map_singleton]
    exact ih.register addition.entry

/-! ## What a name gives -/

/-- An entry is found under its own name. -/
theorem Follows.entry?_of_mem (h : registry.Follows made) (hentry : entry ∈ registry.entries) :
    registry.entry? entry.name = some entry := by
  obtain ⟨position, hposition⟩ := List.mem_iff_getElem?.mp hentry
  have hfound : registry.positions.get? entry.name = some position :=
    h.get?_positions_eq_some_iff.mpr (getElem?_names_eq_some_iff.mpr ⟨entry, hposition, rfl⟩)
  unfold entry?
  rw [hfound]
  exact hposition

theorem Follows.entry?_eq (h : registry.Follows made) (name : String) :
    registry.entry? name = last? made name := by
  cases hposition : registry.positions.get? name with
  | none =>
    have hunknown := mt h.mem_names_iff.mpr (h.get?_positions_eq_none_iff.mp hposition)
    unfold entry?
    rw [hposition, last?_eq_none_iff.mpr hunknown]
    rfl
  | some position =>
    obtain ⟨entry, hentry, rfl⟩ :=
      getElem?_names_eq_some_iff.mp (h.get?_positions_eq_some_iff.mp hposition)
    rw [h.latest position entry hentry]
    exact h.entry?_of_mem (List.mem_of_getElem? hentry)

theorem Follows.size_eq (h : registry.Follows made) :
    registry.size = (made.map Registration.name).toFinset.card := by
  have hsame : registry.names.toFinset = (made.map Registration.name).toFinset := by
    ext name
    rw [List.mem_toFinset, List.mem_toFinset, h.mem_names_iff]
  rw [← hsame, List.toFinset_card_of_nodup h.distinct, names, List.length_map]
  rfl

theorem lookup_eq_ok_iff {gvr : Gvr} :
    registry.lookup name = .ok gvr ↔
      ∃ entry, registry.entry? name = some entry ∧ entry.gvr = gvr := by
  unfold lookup
  cases registry.entry? name with
  | none => simp
  | some entry => simp

theorem lookup_eq_error_iff {e : ObjectError} :
    registry.lookup name = .error e ↔
      registry.entry? name = none ∧ e = .unsupportedResource name := by
  unfold lookup
  cases registry.entry? name with
  | none => simp [eq_comm]
  | some entry => simp

theorem newObject_eq_ok_iff {container : Container} :
    registry.newObject name = .ok container ↔ ∃ entry kind,
      registry.entry? name = some entry ∧ entry.typed = some kind ∧ container = .ofTyped kind := by
  unfold newObject
  cases registry.entry? name with
  | none => simp
  | some entry =>
    cases htyped : entry.typed with
    | none => simp [htyped]
    | some kind => simp [htyped, eq_comm]

theorem newObject_eq_error_iff {e : ObjectError} :
    registry.newObject name = .error e ↔
      (registry.entry? name = none ∨
        ∃ entry, registry.entry? name = some entry ∧ entry.typed = none) ∧
      e = .unsupportedResource name := by
  unfold newObject
  cases registry.entry? name with
  | none => simp [eq_comm]
  | some entry =>
    cases htyped : entry.typed with
    | none => simp [htyped, eq_comm]
    | some kind => simp [htyped]

/-- A registry shows the registrations that were made: every name has the one position at which
its entry stands, the entries stand in the order in which their names came up first, one for each
name, and a name gives what was registered under it last or, without such a registration or the
constructor that is asked for, an error. -/
structure Represents (registry : Registry) (made : List Registration) : Prop
    extends Follows registry made where
  position_iff : ∀ name position, registry.positions.get? name = some position ↔
    ∃ entry, registry.entries[position]? = some entry ∧ entry.name = name
  entry?_eq : ∀ name, registry.entry? name = last? made name
  size_eq : registry.size = (made.map Registration.name).toFinset.card
  lookup_ok : ∀ name gvr, registry.lookup name = .ok gvr ↔
    ∃ entry, last? made name = some entry ∧ entry.gvr = gvr
  lookup_error : ∀ name e, registry.lookup name = .error e ↔
    name ∉ made.map Registration.name ∧ e = .unsupportedResource name
  newObject_ok : ∀ name container, registry.newObject name = .ok container ↔
    ∃ entry kind, last? made name = some entry ∧ entry.typed = some kind ∧
      container = .ofTyped kind
  newObject_error : ∀ name e, registry.newObject name = .error e ↔
    (name ∉ made.map Registration.name ∨
      ∃ entry, last? made name = some entry ∧ entry.typed = none) ∧
    e = .unsupportedResource name

theorem Follows.represents (h : registry.Follows made) : registry.Represents made where
  toFollows := h
  position_iff := fun _ _ => h.get?_positions_eq_some_iff.trans getElem?_names_eq_some_iff
  entry?_eq := h.entry?_eq
  size_eq := h.size_eq
  lookup_ok := fun name _ => by rw [lookup_eq_ok_iff, h.entry?_eq]
  lookup_error := fun name _ => by rw [lookup_eq_error_iff, h.entry?_eq, last?_eq_none_iff]
  newObject_ok := fun name _ => by simp only [newObject_eq_ok_iff, h.entry?_eq]
  newObject_error := fun name _ => by
    rw [newObject_eq_error_iff, h.entry?_eq, last?_eq_none_iff]

/-- Whatever is registered, the registry represents it. -/
theorem represents_ofAdditions (additions : List Addition) :
    (ofAdditions additions).Represents (additions.map Addition.entry) :=
  (follows_ofAdditions additions).represents

example : (ofAdditions [.generic "things" ⟨"a.io", "v1", "things"⟩ none,
    .generic "others" ⟨"a.io", "v1", "others"⟩ none,
    .generic "things" ⟨"a.io", "v2", "things"⟩ none]).entries.map
      (fun entry => (entry.name, entry.gvr.version)) = [("things", "v2"), ("others", "v1")] := rfl

end ClusterObjects.Registry
