import ClusterObjects.Proofs.Store.Run

/-! # Reading back what a write has stored

The client of a write gets the object as it was stored: its container loads the
new value after the change has been carried out. For a creation and an update
this goes well as long as the container states its kind coherently. For a patch
it depends on the value stored before, which another representation of the kind
may have written: it goes well if the container could load that value.
-/

namespace ClusterObjects

namespace Stored

/-- A container that accepts a value accepts every draft that differs in the metadata only. -/
theorem accepts_of_accepts {c : Container} (hlawful : c.Lawful) {key : Key}
    {value found : Json} (hfound : Draft key found)
    (hsame : ∀ member, member ≠ "metadata" → found.get? member = value.get? member)
    (h : c.Accepts value) : c.Accepts found := by
  obtain ⟨members, hmembers, hfits⟩ := hfound.metadata
  refine ⟨hfound.isObject, ?_, fun member required shape hmember => ?_⟩
  · have hversion : found.fields.get? "apiVersion" = value.fields.get? "apiVersion" :=
      hsame "apiVersion" (by decide)
    have hkind : found.fields.get? "kind" = value.fields.get? "kind" := hsame "kind" (by decide)
    unfold Container.StatesKind Container.stated?
    rw [hversion, hkind]
    exact h.statesKind
  · by_cases hmetadata : member = "metadata"
    · subst hmetadata
      rw [Container.get?_decodedMembers_metadata hlawful] at hmember
      rw [hmembers, ← (Prod.mk.inj (Option.some.inj hmember)).2]
      exact hfits.memberFits
    · rw [hsame member hmetadata]
      exact h.members member required shape hmember

theorem get?_sealed {key : Key} {value : Json} (h : Draft key value) (uid version : String)
    {created : String} (hcreated : CreationText created) {member : String}
    (hne : member ≠ "metadata") :
    (sealed uid created version value).get? member = value.get? member := by
  have hfits : Shape.time.Fits (.str created) := ⟨_, hcreated⟩
  have huid := h.setMetadata "uid" uid rfl (fits_text uid) (by decide) (by decide)
  have hcreation :=
    huid.setMetadata "creationTimestamp" created rfl hfits (by decide) (by decide)
  obtain ⟨_, hmembers, _⟩ := h.metadata
  obtain ⟨_, huidMembers, _⟩ := huid.metadata
  obtain ⟨_, hcreationMembers, _⟩ := hcreation.metadata
  rw [sealed, get?_setMetadata hcreationMembers, if_neg hne.symm, get?_setMetadata huidMembers,
    if_neg hne.symm, get?_setMetadata hmembers, if_neg hne.symm]

/-- The metadata members that the store states. -/
def stampedFields : List String := ["uid", "creationTimestamp", "resourceVersion"]

theorem metadata?_sealed {key : Key} {value : Json} (h : Draft key value) (uid version : String)
    {created : String} (hcreated : CreationText created) {field : String}
    (hfield : field ∉ stampedFields) :
    metadata? (sealed uid created version value) field = metadata? value field := by
  have hfits : Shape.time.Fits (.str created) := ⟨_, hcreated⟩
  have huid := h.setMetadata "uid" uid rfl (fits_text uid) (by decide) (by decide)
  have hcreation :=
    huid.setMetadata "creationTimestamp" created rfl hfits (by decide) (by decide)
  simp only [stampedFields, List.mem_cons, List.not_mem_nil, or_false, not_or] at hfield
  rw [sealed, hcreation.metadata?_setMetadata, if_neg (Ne.symm hfield.2.2),
    huid.metadata?_setMetadata, if_neg (Ne.symm hfield.2.1), h.metadata?_setMetadata,
    if_neg (Ne.symm hfield.1)]

theorem sameAt_metadata? {left right : Json} (h : left.same right = true) (field : String) :
    Json.SameAt (metadata? left field) (metadata? right field) := by
  unfold metadata?
  have hmetadata := Json.get?_of_same h "metadata"
  cases hleft : left.get? "metadata" with
  | none =>
    cases hright : right.get? "metadata" with
    | none => exact .none
    | some other => rw [hleft, hright] at hmetadata; nomatch hmetadata
  | some members =>
    cases hright : right.get? "metadata" with
    | none => rw [hleft, hright] at hmetadata; nomatch hmetadata
    | some other =>
      rw [hleft, hright] at hmetadata
      cases hmetadata with
      | some hsame => exact Json.get?_of_same hsame field

/-- Drafts that are equal once sealed differ at most in what the seal states. -/
theorem same_of_same_sealed {key : Key} {left right : Json} (hleft : Draft key left)
    (hright : Draft key right) (uid version : String) {created : String}
    (hcreated : CreationText created)
    (h : (sealed uid created version left).same (sealed uid created version right) = true)
    (hstamped : ∀ field ∈ stampedFields, metadata? left field = metadata? right field) :
    left.same right = true := by
  refine Json.same_of_get? hleft.whole hright.whole hleft.isObject hright.isObject fun other => ?_
  by_cases hother : other = "metadata"
  · subst hother
    obtain ⟨leftMembers, hleftMembers, _⟩ := hleft.metadata
    obtain ⟨rightMembers, hrightMembers, _⟩ := hright.metadata
    rw [hleftMembers, hrightMembers]
    refine .some (Json.same_of_get? (hleft.whole.get? hleftMembers)
      (hright.whole.get? hrightMembers) rfl rfl fun field => ?_)
    change Json.SameAt (Entries.get? leftMembers field) (Entries.get? rightMembers field)
    have hleftField := metadata?_eq hleftMembers field
    have hrightField := metadata?_eq hrightMembers field
    change metadata? left field = Entries.get? leftMembers field at hleftField
    change metadata? right field = Entries.get? rightMembers field at hrightField
    rw [← hleftField, ← hrightField]
    by_cases hfield : field ∈ stampedFields
    · -- The seal hides the members that it states, so these need the hypothesis.
      rw [hstamped field hfield]
      exact .refl _
    · rw [← metadata?_sealed hleft uid version hcreated hfield,
        ← metadata?_sealed hright uid version hcreated hfield]
      exact sameAt_metadata? h field
  · rw [← get?_sealed hleft uid version hcreated hother,
      ← get?_sealed hright uid version hcreated hother]
    exact Json.get?_of_same h other

/-- Sealing makes no difference to the containers that accept a draft. -/
theorem accepts_sealed_iff {c : Container} (hlawful : c.Lawful) {key : Key} {value : Json}
    (h : Draft key value) (uid version : String) {created : String}
    (hcreated : CreationText created) :
    c.Accepts (sealed uid created version value) ↔ c.Accepts value := by
  have hsealed := (h.sealed uid version hcreated).1.toDraft
  constructor
  · exact accepts_of_accepts hlawful h fun member hne =>
      (get?_sealed h uid version hcreated hne).symm
  · exact accepts_of_accepts hlawful hsealed fun member hne =>
      get?_sealed h uid version hcreated hne

end Stored

namespace Container

/-- A well-formed container accepts what it prints exactly if it states its kind
coherently. -/
theorem accepts_toJson_iff {c : Container} (h : c.WellFormed) :
    c.Accepts c.toJson ↔ c.Coherent := by
  constructor
  · intro haccepts
    have hstates := haccepts.statesKind.1
    have hget : Entries.get? c.toJson.fields "apiVersion" = some (.str c.statedKind.1) :=
      c.get?_toJson "apiVersion"
    unfold stated? at hstates
    rw [hget, Option.bind_some, Json.text?, Option.filter_some] at hstates
    split at hstates
    · exact hstates
    next hempty =>
      have htext : c.statedKind.1 = "" := by simpa using hempty
      unfold Coherent gvk
      unfold statedKind at htext ⊢
      cases hrep : c.representation with
      | typed kind => rfl
      | generic apiVersion kind =>
        rw [hrep] at htext
        obtain rfl : apiVersion = "" := htext
        rfl
  · intro hcoherent
    exact accepts_toJson h hcoherent rfl

/-- A container that accepts what is stored accepts it again after a patch to its own object,
whatever the patch starts from. -/
theorem accepts_applyPatch {base object : Container} {stored : Json} (hbase : base.WellFormed)
    (hobject : object.WellFormed) (hcoherent : object.Coherent) (hstored : stored.WellFormed)
    (h : object.Accepts stored) :
    object.Accepts (stored.applyPatch (Store.patchDocument base object)) := by
  have hown := (accepts_toJson_iff hobject).mpr hcoherent
  have hget : ∀ key, (stored.applyPatch (Store.patchDocument base object)).get? key =
      Json.merged (stored.get? key) (base.toJson.get? key) (object.toJson.get? key) :=
    fun key => Json.get?_applyPatch_diff hstored hbase.toJson hobject.toJson key
  have hstated : ∀ (key text expected : String), object.toJson.get? key = some (.str text) →
      (stated? stored.fields key).getD expected = expected →
      (stated? object.toJson.fields key).getD expected = expected →
      (stated? (stored.applyPatch (Store.patchDocument base object)).fields key).getD expected =
        expected := by
    intro key text expected hnew hold hobject
    have hmerged := hget key
    rw [hnew] at hmerged
    unfold stated? at hold hobject ⊢
    rcases Json.merged_str (stored.get? key) (base.toJson.get? key) text with heq | heq
    · rw [heq] at hmerged
      change Entries.get? _ key = Entries.get? _ key at hmerged
      rwa [hmerged]
    · rw [heq, ← hnew] at hmerged
      change Entries.get? _ key = Entries.get? _ key at hmerged
      rwa [hmerged]
  refine ⟨?_, ⟨?_, ?_⟩, fun key required shape hkey => ?_⟩
  · rw [Store.patchDocument, object.toJson_eq, Json.applyPatch_diff_eq_obj]
    rfl
  · exact hstated _ _ _ (object.get?_toJson "apiVersion") h.statesKind.1 hown.statesKind.1
  · exact hstated _ _ _ (object.get?_toJson "kind") h.statesKind.2 hown.statesKind.2
  · have hold := h.members key required shape hkey
    have hdecoded : ∀ value, object.toJson.get? key = some value →
        shape.lawful = true ∧ shape.decode value = .ok value := by
      intro value hvalue
      by_cases hmetadata : key = "metadata"
      · subst hmetadata
        rw [get?_decodedMembers_metadata hobject.lawful] at hkey
        rw [get?_toJson, if_pos rfl] at hvalue
        rw [← (Prod.mk.inj (Option.some.inj hkey)).2, ← Option.some.inj hvalue]
        exact ⟨Schema.lawful_metadata, hobject.metadata.canonical⟩
      · obtain ⟨kind, hkind, hmember⟩ := typed_of_decodedMembers hkey hmetadata
        have hlawful := (hobject.lawful kind hkind).lawful_of_get? hmember
        rw [hobject.get?_toJson_of_member hkind hmember hmetadata] at hvalue
        have hdecoded := hobject.members kind hkind key hmetadata
        rw [hmember, hvalue] at hdecoded
        exact ⟨hlawful, Shape.decode_of_decodeMember hlawful hdecoded⟩
    -- The member is gone, or the one stored, or that one patched: each suits the shape.
    rw [hget]
    refine Shape.memberFits_merged (hstored.getD_get? key) (hbase.toJson.getD_get? key)
      (fun _ => hobject.toJson.get?) hold fun value hvalue => ?_
    obtain ⟨hlawful, hcanonical⟩ := hdecoded value hvalue
    exact ⟨hlawful, Shape.keepsMerged hlawful, hcanonical⟩

end Container

namespace Store

/-- The client of the write can load what the write would store: it states its kind
coherently, and the patched value suits its container. -/
def ReadsBack (store : Store) : Write → Prop
  | .create object | .update object => object.Coherent
  | .patch base object => ∀ key stored, keyOf object = .ok key →
      store.items.get? key = some stored →
      object.Accepts (stored.applyPatch (patchDocument base object))
  | .delete _ => True

theorem exists_loadInto_iff {object : Container} (hobject : object.WellFormed) {value : Json}
    (hvalue : value.WellFormed) :
    (∃ loaded, loadInto object value = .ok loaded) ↔ object.Accepts value := by
  rw [← Container.exists_load_iff hobject.lawful hvalue]
  unfold loadInto
  cases object.load value with
  | ok loaded => exact iff_of_true ⟨_, rfl⟩ ⟨_, rfl⟩
  | error e =>
    exact iff_of_false not_exists_error_eq_ok not_exists_error_eq_ok

theorem Seals.exists_loadInto_iff {store : Store} {submitted value : Json}
    (h : store.Seals submitted value) {key : Key} (hdraft : Stored.Draft key submitted)
    {object : Container} (hobject : object.WellFormed) :
    (∃ loaded, loadInto object value = .ok loaded) ↔ object.Accepts submitted := by
  obtain ⟨uid, created, hcreated, rfl⟩ := h
  have hsealed := (hdraft.sealed uid store.nextVersion hcreated).1
  rw [Store.exists_loadInto_iff hobject hsealed.whole,
    Stored.accepts_sealed_iff hobject.lawful hdraft uid store.nextVersion hcreated]

theorem exists_map_ok_iff {ε α β : Type} {x : Except ε α} {f : α → β} :
    (∃ b, x.map f = .ok b) ↔ ∃ a, x = .ok a := by
  cases x with
  | ok a => exact iff_of_true ⟨_, rfl⟩ ⟨_, rfl⟩
  | error e =>
    exact iff_of_false not_exists_error_eq_ok not_exists_error_eq_ok

/-- A change that has been admitted is read back by its client exactly if its container can
load it. -/
theorem Sound.exists_readBack_iff {store : Store} (h : store.Sound) {write : Write}
    (hwrite : write.WellFormed) {change : Change} (hadmits : store.admitWrite write = .ok change) :
    (∃ result, readBack write change = .ok result) ↔ store.ReadsBack write := by
  have hkey := keyOf_of_admitWrite hadmits
  cases write with
  | create object =>
    have hseals := (h.seals_create hwrite hadmits).2
    refine exists_map_ok_iff.trans ?_
    rw [hseals.exists_loadInto_iff (Stored.draft_toJson hwrite hkey) hwrite]
    exact Container.accepts_toJson_iff hwrite
  | update object =>
    have hseals := (h.seals_update hadmits).2
    refine exists_map_ok_iff.trans ?_
    rw [hseals.exists_loadInto_iff (Stored.draft_toJson hwrite hkey) hwrite]
    exact Container.accepts_toJson_iff hwrite
  | patch base object =>
    obtain ⟨_, stored, hstored, hseals⟩ := h.seals_patch hadmits
    have hdraft :=
      Stored.draft_applyPatch (h.belongs change.key stored hstored) hwrite.1 hwrite.2 hkey
    refine exists_map_ok_iff.trans ?_
    rw [hseals.exists_loadInto_iff hdraft hwrite.2]
    constructor
    · intro haccepts key found hother hfound
      rw [show keyOf object = .ok change.key from hkey] at hother
      obtain rfl := Except.ok.inj hother
      rw [hstored] at hfound
      exact Option.some.inj hfound ▸ haccepts
    · intro hreads
      exact hreads change.key stored hkey hstored
  | delete object => exact iff_of_true ⟨none, rfl⟩ trivial

end Store

end ClusterObjects
