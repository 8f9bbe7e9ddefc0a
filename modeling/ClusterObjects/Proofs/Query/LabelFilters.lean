import ClusterObjects.Query.Filter

/-! # Label filters

A label filter writes a key alone, a key and a value with an equals sign in between, or the same
with an exclamation mark in front of the sign. It is cut at its first equals sign, so whatever the
value holds, the filter is read as it was written unless the key holds that sign or ends in that
mark. The filters on a key all ask for the label. Among the objects that have it, the filter with
the mark is the opposite of the one without, except that a star is any value without the mark and
a value like others with it.
-/

namespace ClusterObjects

namespace Filter

/-- The value of a label, if there are labels and it is one of them. -/
def labelValue? (labels : Option (Entries String String)) (key : String) : Option String :=
  labels.bind (Entries.get? · key)

/-- A key that is read back from the filters that name it. -/
structure IsLabelKey (key : String) : Prop where
  uncut : '=' ∉ key.toList
  unmarked : key.toList.getLast? ≠ some '!'

instance (key : String) : Decidable (IsLabelKey key) :=
  decidable_of_iff ('=' ∉ key.toList ∧ key.toList.getLast? ≠ some '!')
    ⟨fun h => ⟨h.1, h.2⟩, fun h => ⟨h.uncut, h.unmarked⟩⟩

variable {labels : Option (Entries String String)} {key value actual : String}

/-! ## Reading a filter -/

theorem IsLabelKey.dropSuffix?_eq_none (h : IsLabelKey key) :
    Text.dropSuffix? ['!'] key.toList = none := by
  rw [Option.eq_none_iff_forall_ne_some]
  intro stem hstem
  refine h.unmarked ?_
  rw [Text.dropSuffix?_eq_some_iff.mp hstem, List.getLast?_concat]

theorem labelTest_key (h : IsLabelKey key) : labelTest key = ⟨key, false, "*"⟩ := by
  unfold labelTest
  rw [Text.cut_singleton_eq_none_iff.mpr h.uncut, Option.getD_none]
  dsimp only
  rw [h.dropSuffix?_eq_none]
  dsimp only
  rw [String.ofList_toList]

theorem labelTest_equals (h : IsLabelKey key) (value : String) :
    labelTest (key ++ "=" ++ value) = ⟨key, false, value⟩ := by
  have hcut : Text.cut ['='] (key ++ "=" ++ value).toList = some (key.toList, value.toList) := by
    rw [Text.cut_singleton_eq_some_iff]
    exact ⟨by simp, h.uncut⟩
  unfold labelTest
  rw [hcut, Option.getD_some]
  dsimp only
  rw [h.dropSuffix?_eq_none]
  dsimp only
  rw [String.ofList_toList, String.ofList_toList]

theorem labelTest_differs (h : IsLabelKey key) (value : String) :
    labelTest (key ++ "!=" ++ value) = ⟨key, true, value⟩ := by
  have hcut : Text.cut ['='] (key ++ "!=" ++ value).toList =
      some (key.toList ++ ['!'], value.toList) := by
    rw [Text.cut_singleton_eq_some_iff]
    refine ⟨by simp, ?_⟩
    simp [h.uncut]
  unfold labelTest
  rw [hcut, Option.getD_some]
  dsimp only
  rw [Text.dropSuffix?_eq_some_iff.mpr rfl]
  dsimp only
  rw [String.ofList_toList, String.ofList_toList]

/-! ## Passing a filter -/

/-- Every filter asks for its label. -/
theorem acceptsLabels_of_absent {filter : String}
    (h : labelValue? labels (labelTest filter).key = none) :
    acceptsLabels labels filter = false := by
  unfold labelValue? at h
  unfold acceptsLabels
  dsimp only
  rw [h]

theorem acceptsLabels_of_present {filter : String}
    (h : labelValue? labels (labelTest filter).key = some actual) :
    acceptsLabels labels filter =
      if (labelTest filter).negated then actual != (labelTest filter).value
      else (labelTest filter).value == "*" || actual == (labelTest filter).value := by
  unfold labelValue? at h
  unfold acceptsLabels
  dsimp only
  rw [h]

theorem acceptsLabels_key (h : IsLabelKey key) :
    acceptsLabels labels key = (labelValue? labels key).isSome := by
  have htest := labelTest_key h
  cases hvalue : labelValue? labels key with
  | none => exact acceptsLabels_of_absent (by rw [htest, hvalue])
  | some actual =>
    rw [acceptsLabels_of_present (by rw [htest, hvalue]), htest]
    rfl

theorem acceptsLabels_equals (h : IsLabelKey key) (hvalue : labelValue? labels key = some actual) :
    acceptsLabels labels (key ++ "=" ++ value) = (value == "*" || actual == value) := by
  have htest := labelTest_equals h value
  rw [acceptsLabels_of_present (by rw [htest, hvalue]), htest]
  rfl

theorem acceptsLabels_differs (h : IsLabelKey key)
    (hvalue : labelValue? labels key = some actual) :
    acceptsLabels labels (key ++ "!=" ++ value) = (actual != value) := by
  have htest := labelTest_differs h value
  rw [acceptsLabels_of_present (by rw [htest, hvalue]), htest]
  rfl

/-- What the filters on a key and a value say of labels by themselves: the key alone asks for the
label, without the label none of the three is passed, and an equals sign asks for the value unless
this is a star. -/
structure Discerns (labels : Option (Entries String String)) (key value : String) : Prop where
  present : acceptsLabels labels key = true ↔ ∃ actual, labelValue? labels key = some actual
  absent : labelValue? labels key = none →
    ∀ filter ∈ [key, key ++ "=" ++ value, key ++ "!=" ++ value],
      acceptsLabels labels filter = false
  equals : value ≠ "*" →
    (acceptsLabels labels (key ++ "=" ++ value) = true ↔ labelValue? labels key = some value)

/-- Labels that have the key pass exactly one of the filters with and without the mark. -/
def Splits (labels : Option (Entries String String)) (key value : String) : Prop :=
  ∀ actual, labelValue? labels key = some actual →
    acceptsLabels labels (key ++ "!=" ++ value) = !acceptsLabels labels (key ++ "=" ++ value)

theorem discerns (h : IsLabelKey key) : Discerns labels key value := by
  have habsent : labelValue? labels key = none →
      ∀ filter ∈ [key, key ++ "=" ++ value, key ++ "!=" ++ value],
        acceptsLabels labels filter = false := by
    intro hnone filter hfilter
    refine acceptsLabels_of_absent ?_
    simp only [List.mem_cons, List.not_mem_nil, or_false] at hfilter
    rcases hfilter with rfl | rfl | rfl
    · rw [labelTest_key h, hnone]
    · rw [labelTest_equals h, hnone]
    · rw [labelTest_differs h, hnone]
  refine ⟨?_, habsent, fun hvalue => ?_⟩
  · rw [acceptsLabels_key h, Option.isSome_iff_exists]
  · cases hfound : labelValue? labels key with
    | none =>
      rw [habsent hfound _ (by simp)]
      exact iff_of_false Bool.false_ne_true nofun
    | some actual =>
      rw [acceptsLabels_equals h hfound]
      simp [hvalue]

/-- Every object with the label passes one of the filters and fails the other, unless they ask for
a star and the label has another value; such an object passes both. -/
theorem discerns_and_splits_iff (h : IsLabelKey key) :
    Discerns labels key value ∧
      (Splits labels key value ↔ (value = "*" → ∀ actual, labelValue? labels key = some actual →
        actual = "*")) := by
  refine ⟨discerns h, ⟨fun hsplits hvalue actual hfound => ?_, fun hstar actual hfound => ?_⟩⟩
  · have hopposite := hsplits actual hfound
    rw [acceptsLabels_equals h hfound, acceptsLabels_differs h hfound, hvalue] at hopposite
    simpa using hopposite
  · rw [acceptsLabels_equals h hfound, acceptsLabels_differs h hfound]
    by_cases hvalue : value = "*"
    · simp [hvalue, hstar hvalue actual hfound]
    · simp [hvalue, bne]

/-- A key that holds the mark, and a value that is written with all signs of a filter. -/
theorem splits_marked :
    IsLabelKey "a!b" ∧ Discerns (some [("a!b", "=*!")]) "a!b" "=*!" ∧
      Splits (some [("a!b", "=*!")]) "a!b" "=*!" ∧
      acceptsLabels (some [("a!b", "=*!")]) "a!b==*!" = true := by
  have hkey : IsLabelKey "a!b" := by decide
  obtain ⟨hdiscerns, hsplits⟩ :=
    @discerns_and_splits_iff (some [("a!b", "=*!")]) "a!b" "=*!" hkey
  refine ⟨hkey, hdiscerns, hsplits.mpr fun hstar => absurd hstar (by decide), ?_⟩
  exact (hdiscerns.equals (by decide)).mpr (by decide)

/-- A label with another value than a star passes both filters that ask for a star. -/
theorem not_splits_star :
    IsLabelKey "team" ∧ labelValue? (some [("team", "web")]) "team" = some "web" ∧
      acceptsLabels (some [("team", "web")]) "team=*" = true ∧
      acceptsLabels (some [("team", "web")]) "team!=*" = true ∧
      ¬ Splits (some [("team", "web")]) "team" "*" := by
  have hkey : IsLabelKey "team" := by decide
  have hfound : labelValue? (some [("team", "web")]) "team" = some "web" := by decide
  refine ⟨hkey, hfound, by decide +kernel, by decide +kernel, fun hsplits => ?_⟩
  have hopposite := hsplits "web" hfound
  rw [acceptsLabels_equals hkey hfound, acceptsLabels_differs hkey hfound] at hopposite
  contradiction

end Filter

end ClusterObjects
