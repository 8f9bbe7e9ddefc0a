import ClusterObjects.Proofs.Json.WellFormed

/-! # Equality of documents

Equality of documents is reflexive, and between objects in normal form it is
equality under every key.
-/

namespace ClusterObjects

theorem Double.same_refl (d : Double) : d.same d = true := by
  simp [Double.same]

theorem Number.same_refl (n : Number) : n.same n = true := by
  cases n with
  | integer n => simp [Number.same]
  | double d => exact d.same_refl

namespace Json

theorem sameItems_refl {items : List Json} (h : ∀ item ∈ items, item.same item = true) :
    sameItems items items = true := by
  induction items with
  | nil => rfl
  | cons item rest ih =>
    rw [sameItems, h item List.mem_cons_self, ih fun other hother =>
      h other (List.mem_cons_of_mem _ hother)]
    rfl

theorem sameFields_refl {fields : List (String × Json)}
    (h : ∀ field ∈ fields, field.2.same field.2 = true) : sameFields fields fields = true := by
  induction fields with
  | nil => rfl
  | cons field rest ih =>
    obtain ⟨key, value⟩ := field
    have hvalue : value.same value = true := h (key, value) List.mem_cons_self
    rw [sameFields, sameField, hvalue, ih fun other hother =>
      h other (List.mem_cons_of_mem _ hother)]
    simp

/-- Every document equals itself. -/
theorem same_refl (value : Json) : value.same value = true := by
  induction value using induction with
  | null => rfl
  | bool b => simp [same]
  | num n => exact n.same_refl
  | str s => simp [same]
  | arr items ih => exact sameItems_refl ih
  | obj fields ih => exact sameFields_refl ih

/-- Nothing equals nothing, and a value equals an equal value. -/
abbrev SameAt : Option Json → Option Json → Prop :=
  Option.Rel fun left right => left.same right = true

theorem SameAt.refl (found : Option Json) : SameAt found found := by
  cases found with
  | none => exact .none
  | some value => exact .some value.same_refl

/-- Equal objects have equal members. -/
theorem get?_of_sameFields {left right : Fields} (h : sameFields left right = true)
    (key : String) : SameAt (left.get? key) (right.get? key) := by
  induction left generalizing right with
  | nil =>
    cases right with
    | nil => exact .none
    | cons => contradiction
  | cons head rest ih =>
    cases right with
    | nil => contradiction
    | cons other more =>
      obtain ⟨k, v⟩ := head
      obtain ⟨l, w⟩ := other
      simp only [sameFields, sameField, Bool.and_eq_true, beq_iff_eq] at h
      obtain ⟨⟨rfl, hvalue⟩, hrest⟩ := h
      rw [Entries.get?_cons, Entries.get?_cons]
      split
      · exact .some hvalue
      · exact ih hrest

/-- Objects in normal form with equal members are equal. -/
theorem sameFields_of_get? {left right : Fields} (hleft : left.Ascending)
    (hright : right.Ascending) (h : ∀ key, SameAt (left.get? key) (right.get? key)) :
    sameFields left right = true := by
  induction left generalizing right with
  | nil =>
    cases right with
    | nil => rfl
    | cons other more =>
      have hother := h other.1
      rw [Entries.get?_nil, Entries.get?_cons, if_pos rfl] at hother
      cases hother
  | cons head rest ih =>
    obtain ⟨k, v⟩ := head
    cases right with
    | nil =>
      have hhead := h k
      rw [Entries.get?_nil, Entries.get?_cons, if_pos rfl] at hhead
      cases hhead
    | cons other more =>
      obtain ⟨l, w⟩ := other
      obtain ⟨hk, hrest⟩ := List.pairwise_cons.mp hleft
      obtain ⟨hl, hmore⟩ := List.pairwise_cons.mp hright
      have hfirst := h k
      have hother := h l
      rw [Entries.get?_cons, if_pos rfl, Entries.get?_cons] at hfirst
      rw [Entries.get?_cons, Entries.get?_cons, if_pos rfl] at hother
      -- Each head key is among the other's keys, and neither can lie behind the other's head.
      have hkeys : k = l := by
        by_cases hne : l = k
        · exact hne.symm
        · rw [if_neg hne] at hfirst
          rw [if_neg fun heq => hne heq.symm] at hother
          cases hfound : Entries.get? more k with
          | none => rw [hfound] at hfirst; cases hfirst
          | some value =>
            cases hback : Entries.get? rest l with
            | none => rw [hback] at hother; cases hother
            | some back =>
              have hlk := hl _ ((Entries.get?_eq_some_iff hmore).mp hfound)
              have hkl := hk _ ((Entries.get?_eq_some_iff hrest).mp hback)
              have hlt := Std.TransCmp.lt_trans hlk hkl
              simp [Std.ReflCmp.compare_self] at hlt
      subst hkeys
      rw [if_pos rfl] at hfirst
      have htail : sameFields rest more = true := by
        apply ih hrest hmore
        intro key
        by_cases hkey : k = key
        · subst hkey
          rw [Entries.get?_eq_none_of_lt hk, Entries.get?_eq_none_of_lt hl]
          exact .none
        · have hmember := h key
          rwa [Entries.get?_cons, Entries.get?_cons, if_neg hkey, if_neg hkey] at hmember
      have hvalue : v.same w = true := by
        cases hfirst with
        | some h => exact h
      rw [sameFields, sameField, hvalue, htail]
      simp

/-- Well-formed objects are equal if their members are. -/
theorem same_of_get? {left right : Json} (hleft : left.WellFormed) (hright : right.WellFormed)
    (hleftObject : left.isObject = true) (hrightObject : right.isObject = true)
    (h : ∀ key, SameAt (left.get? key) (right.get? key)) : left.same right = true := by
  rw [eq_obj_of_isObject hleftObject, eq_obj_of_isObject hrightObject]
  exact sameFields_of_get? hleft.ascending_fields hright.ascending_fields h

theorem isObject_eq_of_same {left right : Json} (h : left.same right = true) :
    left.isObject = right.isObject := by
  cases left <;> cases right <;> simp_all [same, isObject]

/-- Equal documents have equal members. -/
theorem get?_of_same {left right : Json} (h : left.same right = true) (key : String) :
    SameAt (left.get? key) (right.get? key) := by
  cases left with
  | obj fields =>
    cases right with
    | obj others => exact get?_of_sameFields h key
    | _ => contradiction
  | _ =>
    cases right with
    | obj others => contradiction
    | _ => exact .none

end Json

end ClusterObjects
