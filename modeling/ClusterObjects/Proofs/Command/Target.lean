import ClusterObjects.Command.Target
import ClusterObjects.Proofs.Identity.Kind
import ClusterObjects.Proofs.Registry

/-! # Identities and the texts they are read from

The text of a kind or a resource leaves an empty group out and has slashes between the other
parts, and whoever reads it takes every slash for a separator, or the first one if it reads the
group and the version of a kind. What comes back are the identities in whose parts no slash is
taken for one, and a resource that is registered under a short name is also found by that name.
-/

namespace ClusterObjects

namespace Gvr

/-- No part of the address holds a slash. -/
def SlashFree (gvr : Gvr) : Prop :=
  '/' ∉ gvr.group.toList ∧ '/' ∉ gvr.version.toList ∧ '/' ∉ gvr.resource.toList

instance (gvr : Gvr) : Decidable gvr.SlashFree := inferInstanceAs (Decidable (_ ∧ _))

/-- What slashes separate in the text that names the resource. -/
def parts (gvr : Gvr) : List String :=
  if gvr.group = "" then [gvr.version, gvr.resource] else [gvr.group, gvr.version, gvr.resource]

theorem toList_text (gvr : Gvr) :
    gvr.text.toList = Text.join ['/'] (gvr.parts.map String.toList) := by
  unfold text apiVersion joinApiVersion parts
  by_cases hgroup : gvr.group = ""
  · rw [if_pos (String.isEmpty_iff.mpr hgroup), if_pos hgroup]
    simp [Text.join]
  · rw [if_neg fun h => hgroup (String.isEmpty_iff.mp h), if_neg hgroup]
    simp [Text.join]

theorem slash_mem_text (gvr : Gvr) : '/' ∈ gvr.text.toList := by
  simp [text]

theorem SlashFree.of_mem_parts {gvr : Gvr} (h : gvr.SlashFree) {part : String}
    (hpart : part ∈ gvr.parts) : '/' ∉ part.toList := by
  unfold parts at hpart
  split at hpart <;> simp only [List.mem_cons, List.not_mem_nil, or_false] at hpart
  · rcases hpart with rfl | rfl
    exacts [h.2.1, h.2.2]
  · rcases hpart with rfl | rfl | rfl
    exacts [h.1, h.2.1, h.2.2]

theorem SlashFree.pieces_text {gvr : Gvr} (h : gvr.SlashFree) :
    (Text.pieces '/' gvr.text.toList).map String.ofList = gvr.parts := by
  have hparts : gvr.parts.map String.toList ≠ [] := by
    unfold parts
    split <;> simp
  rw [toList_text, Text.pieces_join hparts, List.map_map]
  · simp [Function.comp_def]
  · intro chars hchars
    obtain ⟨part, hpart, rfl⟩ := List.mem_map.mp hchars
    exact h.of_mem_parts hpart

end Gvr

namespace Registry

variable {registry : Registry} {gvr : Gvr} {text : String}

/-- A text without a slash names what is registered under it. -/
theorem target_of_lookup (htext : '/' ∉ text.toList) (h : registry.lookup text = .ok gvr) :
    registry.target text = .ok gvr := by
  rw [target, Text.pieces_of_not_mem htext]
  simp only [List.map_cons, List.map_nil, String.ofList_toList]
  rw [h]

theorem target_text_of_slashFree (registry : Registry) (h : gvr.SlashFree) :
    registry.target gvr.text = .ok gvr := by
  rw [target, h.pieces_text, Gvr.parts]
  by_cases hgroup : gvr.group = ""
  · rw [if_pos hgroup]
    change Except.ok (⟨"", gvr.version, gvr.resource⟩ : Gvr) = .ok gvr
    rw [← hgroup]
  · rw [if_neg hgroup]

/-- The resource that a text with a slash names consists of pieces of the text. -/
theorem slashFree_of_target_eq_ok (htext : '/' ∈ text.toList)
    (h : registry.target text = .ok gvr) : gvr.SlashFree := by
  have hpieces : ∀ part ∈ (Text.pieces '/' text.toList).map String.ofList,
      '/' ∉ part.toList := by
    intro part hpart
    obtain ⟨piece, hpiece, rfl⟩ := List.mem_map.mp hpart
    rw [String.toList_ofList]
    exact Text.not_mem_of_mem_pieces hpiece
  unfold target at h
  split at h
  next name hname =>
    obtain ⟨piece, hpiece, _⟩ := List.map_eq_singleton_iff.mp hname
    exact absurd htext (Text.not_mem_of_pieces_eq_singleton hpiece)
  next version resource hparts =>
    rw [← Except.ok.inj h]
    rw [hparts] at hpieces
    exact ⟨List.not_mem_nil, hpieces version (by simp), hpieces resource (by simp)⟩
  next group version resource hparts =>
    rw [← Except.ok.inj h]
    rw [hparts] at hpieces
    exact ⟨hpieces group (by simp), hpieces version (by simp), hpieces resource (by simp)⟩
  next => contradiction

/-- A resource is read back from the text that names it exactly if its parts hold no slash. -/
theorem target_text_iff : registry.target gvr.text = .ok gvr ↔ gvr.SlashFree :=
  ⟨slashFree_of_target_eq_ok gvr.slash_mem_text, registry.target_text_of_slashFree⟩

/-- An entry is what its name stands for on the command line, unless the name holds a slash. -/
theorem Follows.target_name {made : List Registration} (h : registry.Follows made)
    {entry : Registration} (hentry : entry ∈ registry.entries) (hname : '/' ∉ entry.name.toList) :
    registry.target entry.name = .ok entry.gvr :=
  target_of_lookup hname (lookup_eq_ok_iff.mpr ⟨entry, h.entry?_of_mem hentry, rfl⟩)

end Registry

/-- What comes back from the texts of identities: a kind if its group holds no slash and, where the
group is left out, neither does its version; the text that a kind was read from if no slash stands
in front; and a resource if none of its parts holds a slash. Then its text stands for the same as
a name under which the resource is registered. -/
theorem identities_reread :
    (∀ gvk : Gvk, .ofApiVersion gvk.apiVersion gvk.kind = gvk ↔
      '/' ∉ gvk.group.toList ∧ (gvk.group = "" → '/' ∉ gvk.version.toList)) ∧
    (∀ text kind, (Gvk.ofApiVersion text kind).apiVersion = text ↔
      text.toList.head? ≠ some '/') ∧
    (∀ (registry : Registry) (gvr : Gvr), registry.target gvr.text = .ok gvr ↔ gvr.SlashFree) ∧
    ∀ additions, ∀ entry ∈ (Registry.ofAdditions additions).entries,
      '/' ∉ entry.name.toList →
        (Registry.ofAdditions additions).target entry.name = .ok entry.gvr ∧
          ((Registry.ofAdditions additions).target entry.gvr.text =
            (Registry.ofAdditions additions).target entry.name ↔ entry.gvr.SlashFree) := by
  refine ⟨fun _ => Gvk.ofApiVersion_apiVersion_iff, fun _ _ => Gvk.apiVersion_ofApiVersion_iff,
    fun _ _ => Registry.target_text_iff, fun additions entry hentry hname => ?_⟩
  have htarget := (Registry.follows_ofAdditions additions).target_name hentry hname
  rw [htarget]
  exact ⟨rfl, Registry.target_text_iff⟩

namespace Registry

/-- A resource of the core group under a short name. -/
def maps : Registration := ⟨"maps", ⟨"", "v1", "configmaps"⟩, none, none⟩

/-- The short name was given to another resource before. -/
def renamings : List Addition :=
  [.generic maps.name ⟨"a.io", "v1", "maps"⟩ none, .generic maps.name maps.gvr none]

end Registry

/-- The short name and the text of the resource that has it now stand for the same. -/
theorem identities_reread_renamed :
    Registry.maps ∈ (Registry.ofAdditions Registry.renamings).entries ∧
      '/' ∉ Registry.maps.name.toList ∧ Registry.maps.gvr.SlashFree ∧
      (Registry.ofAdditions Registry.renamings).target "maps" = .ok ⟨"", "v1", "configmaps"⟩ ∧
      (Registry.ofAdditions Registry.renamings).target "v1/configmaps" =
        (Registry.ofAdditions Registry.renamings).target "maps" := by
  have hentry : Registry.maps ∈ (Registry.ofAdditions Registry.renamings).entries :=
    List.mem_singleton_self _
  have hname : '/' ∉ Registry.maps.name.toList := by decide
  have hparts : Registry.maps.gvr.SlashFree := by decide
  obtain ⟨htarget, htext⟩ := identities_reread.2.2.2 Registry.renamings Registry.maps hentry hname
  exact ⟨hentry, hname, hparts, htarget, htext.mpr hparts⟩

end ClusterObjects
