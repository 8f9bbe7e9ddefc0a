import ClusterObjects.Proofs.Json.Path
import ClusterObjects.Proofs.Object.Container
import ClusterObjects.Proofs.Query.FieldSelector
import ClusterObjects.Proofs.Query.Listing

/-! # Field selectors on metadata

The metadata of an object can be asked for twice: a filter reads a text of it, and a field
selector is parsed, walks down the printed object and compares what it finds there. Both ask for
the same as long as the text that is asked for is not empty, since a text that is missing reads
as an empty one but cannot be walked to.
-/

namespace ClusterObjects

namespace FieldSelector

/-- The selector that asks for a value at a path. -/
def equalTo (path value : String) : String := path ++ "=" ++ String.ofList (escape value.toList)

theorem equalTo_eq (path value : String) :
    equalTo path value = String.ofList (Spelling.mk path .single value).text := by
  rw [← String.toList_inj, equalTo, String.toList_append, String.toList_append,
    String.toList_ofList, String.toList_ofList, String.toList_ofList, List.append_assoc]
  rfl

/-- Whether the path of a clause is plain has nothing to do with its value. -/
theorem Spelling.IsPlain.withValue {spelling : Spelling} (h : spelling.IsPlain) (value : String) :
    { spelling with value }.IsPlain :=
  ⟨h.ne_empty, h.first, h.last, h.free⟩

/-- Such a selector has one clause, whatever the value. -/
theorem parse_equalTo {path : String} (hpath : (Spelling.mk path .single "").IsPlain)
    (value : String) : parse (equalTo path value) = .ok ⟨[⟨path, .equals, value⟩]⟩ := by
  have h := hpath.withValue value
  have havoids : Avoids ',' (Spelling.mk path .single value).text :=
    Spelling.avoids_text (Or.inl (.of_forall fun c hc => ⟨(h.free c hc).2.1, (h.free c hc).1⟩))
  have hterms := filter_terms_join (List.forall_mem_singleton.mpr havoids)
  have hfull : (!(Spelling.mk path .single value).text.isEmpty) = true := by
    simpa using Spelling.text_ne_nil h
  have hkept : [(Spelling.mk path .single value).text].filter (fun term => !term.isEmpty) =
      [(Spelling.mk path .single value).text] := List.filter_cons_of_pos hfull
  rw [hkept, Text.join] at hterms
  rw [parse_eq_ok_iff, equalTo_eq, String.toList_ofList, hterms]
  exact congrArg ([·]) (Spelling.requirement_of_isPlain h)

end FieldSelector

/-- A path into the metadata of an object leads to a member of it. -/
theorem Container.lookupAt_metadata (object : Container) {key : String}
    (hkey : Json.IsPlainKey key) :
    object.toJson.lookupAt ('$' :: '.' :: Text.join ['.'] (["metadata", key].map String.toList)) =
      object.metadata.toJson.member key := by
  have hplain : ∀ part ∈ ["metadata", key], Json.IsPlainKey part :=
    List.forall_mem_cons.mpr ⟨by decide, List.forall_mem_singleton.mpr hkey⟩
  have hmetadata : object.toJson.member "metadata" = .ok object.metadata.toJson :=
    Json.member_eq_ok_iff.mpr ((object.get?_toJson "metadata").trans (if_pos rfl))
  rw [Json.lookupAt_keys (List.cons_ne_nil _ _) hplain, List.foldlM_cons, hmetadata]
  change (object.metadata.toJson.member key).bind Except.ok = _
  cases object.metadata.toJson.member key <;> rfl

namespace Filter

variable {object : Container} {value : String}

/-- On its own, a field selector selects objects as a whole. -/
theorem admits_fieldSelector {text : String} {selector : FieldSelector}
    (h : FieldSelector.parse text = .ok selector) :
    admits .fieldSelector text object = selector.selects object.toJson := by
  have hfound : (Query.all.filter .fieldSelector text).filters.get? .fieldSelector = some text :=
    (Entries.get?_insert _ _ _ _).trans (if_pos rfl)
  unfold admits selectorOf accepts
  rw [hfound, Option.bind_some, h]
  rfl

/-- Asking for a text of the metadata by its path compares that text, if it is not to be
empty. -/
theorem admits_equalTo (key : String) {path : String} (hkey : Json.IsPlainKey key)
    (hplain : (FieldSelector.Spelling.mk path .single "").IsPlain)
    (hpath : path.toList = Text.join ['.'] (["metadata", key].map String.toList))
    (htext : Entries.get? Schema.metadataMembers key = some (false, .text))
    (hobject : object.metadata.WellFormed) (hvalue : value ≠ "") :
    admits .fieldSelector (FieldSelector.equalTo path value) object =
      (object.metadata.textAt key == value) := by
  rw [admits_fieldSelector (FieldSelector.parse_equalTo hplain value), FieldSelector.selects,
    List.all_cons, List.all_nil, Bool.and_true, Requirement.isMetBy]
  dsimp only
  rw [hpath, object.lookupAt_metadata hkey]
  unfold Metadata.textAt
  cases hmember : object.metadata.toJson.member key with
  | error e =>
    -- The path breaks off, and the filter compares with the empty text.
    have hmissing : object.metadata.fields.get? key = none := by
      rw [Option.eq_none_iff_forall_ne_some]
      intro found hfound
      have hmet : object.metadata.toJson.member key = .ok found := Json.member_eq_ok_iff.mpr hfound
      rw [hmet] at hmember
      contradiction
    rw [hmissing]
    exact (beq_false_of_ne hvalue.symm).symm
  | ok found =>
    have hfound : object.metadata.fields.get? key = some found := Json.member_eq_ok_iff.mp hmember
    obtain ⟨text, rfl⟩ := hobject.eq_str htext hfound
    rw [hfound]
    rfl

/-- A field selector that asks for a text of the metadata agrees with the filter that reads it,
for every text but the empty one; names may not hold the comma that separates them. -/
theorem admits_equalTo_metadata (hobject : object.metadata.WellFormed)
    (hnamed : object.isNamed = true) (hvalue : value ≠ "") :
    admits .fieldSelector (FieldSelector.equalTo "metadata.namespace" value) object =
        admits .namespaceName value object ∧
      admits .fieldSelector (FieldSelector.equalTo "metadata.uid" value) object =
        admits .uid value object ∧
      (',' ∉ value.toList →
        admits .fieldSelector (FieldSelector.equalTo "metadata.name" value) object =
          admits .names value object) := by
  refine ⟨?_, ?_, fun hcomma => ?_⟩
  · rw [admits_of_isNamed (by decide) value hnamed]
    exact admits_equalTo "namespace" (by decide) (by decide) (by decide) rfl hobject hvalue
  · rw [admits_of_isNamed (by decide) value hnamed]
    exact admits_equalTo "uid" (by decide) (by decide) (by decide) rfl hobject hvalue
  · rw [admits_of_isNamed (by decide) value hnamed, acceptsMetadata,
      Text.pieces_of_not_mem hcomma, List.any_cons, List.any_nil, Bool.or_false,
      String.ofList_toList, BEq.comm]
    exact admits_equalTo "name" (by decide) (by decide) (by decide) rfl hobject hvalue

/-- An object whose name and namespace hold what must be escaped in a selector. -/
def marked : Container :=
  ((Container.generic ⟨"", "v1", "ConfigMap"⟩).setText "name" "a=\\").setText "namespace" "a=\\"

theorem admits_equalTo_metadata_marked :
    FieldSelector.equalTo "metadata.namespace" "a=\\" = "metadata.namespace=a\\=\\\\" ∧
      admits .fieldSelector (FieldSelector.equalTo "metadata.namespace" "a=\\") marked = true ∧
      admits .fieldSelector (FieldSelector.equalTo "metadata.uid" "a=\\") marked = false ∧
      admits .fieldSelector (FieldSelector.equalTo "metadata.name" "a=\\") marked = true := by
  have hobject : marked.metadata.WellFormed :=
    (((Container.wellFormed_generic _).setText "name" _ rfl rfl).setText "namespace" _ rfl
      rfl).metadata
  have hvalue : "a=\\" ≠ "" := by decide
  obtain ⟨hnamespace, huid, hname⟩ := admits_equalTo_metadata hobject (by decide) hvalue
  refine ⟨by decide, hnamespace.trans ?_, huid.trans ?_, (hname (by decide)).trans ?_⟩
  all_goals decide

end Filter

end ClusterObjects
