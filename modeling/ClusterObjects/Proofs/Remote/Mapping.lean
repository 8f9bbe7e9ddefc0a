import ClusterObjects.Remote.Mapping
import Mathlib.Data.List.Induction

/-! # What is remembered of the resources of a cluster

Resources are remembered with their kinds, one after another. A resource has the kind that it was
last remembered with, and a kind is served under the resource that was last remembered with it:
of two resources that share a kind only one serves it.
-/

namespace ClusterObjects

/-- The resources of a registry whose kind is known in advance, with their kinds. -/
def Registry.seeds (registry : Registry) : List (Gvr × Gvk) :=
  registry.entries.filterMap fun entry => entry.kind.map fun gvk => (entry.gvr, gvk)

/-- A kind as it is served under the name of a resource. -/
def ServedResource.under (gvr : Gvr) (gvk : Gvk) : ServedResource :=
  ⟨gvk.group, gvk.version, gvk.kind, gvr.resource⟩

namespace Mapping

/-- The mapping once resources have been remembered with their kinds. -/
def after (mapping : Mapping) (history : List (Gvr × Gvk)) : Mapping :=
  history.foldl (fun mapping (gvr, gvk) => mapping.remember gvr gvk) mapping

theorem after_append (mapping : Mapping) (earlier later : List (Gvr × Gvk)) :
    mapping.after (earlier ++ later) = (mapping.after earlier).after later :=
  List.foldl_append

theorem after_concat (mapping : Mapping) (history : List (Gvr × Gvk)) (gvr : Gvr) (gvk : Gvk) :
    mapping.after (history ++ [(gvr, gvk)]) = (mapping.after history).remember gvr gvk :=
  mapping.after_append history [(gvr, gvk)]

theorem ofRegistry_eq (registry : Registry) : ofRegistry registry = empty.after registry.seeds := by
  unfold ofRegistry after Registry.seeds
  rw [List.foldl_filterMap]
  congr 1
  funext mapping entry
  cases entry.kind <;> rfl

/-- The kind that a resource was last remembered with. -/
def lastKind? (history : List (Gvr × Gvk)) (gvr : Gvr) : Option Gvk :=
  (history.findRev? fun pair => pair.1 == gvr).map Prod.snd

/-- The resource that was last remembered with a kind. -/
def lastResource? (history : List (Gvr × Gvk)) (gvk : Gvk) : Option Gvr :=
  (history.findRev? fun pair => pair.2 == gvk).map Prod.fst

theorem findRev?_concat {α : Type} (p : α → Bool) (history : List α) (last : α) :
    (history ++ [last]).findRev? p = if p last then some last else history.findRev? p := by
  rw [List.findRev?_eq_find?_reverse, List.reverse_concat, List.find?_cons,
    List.findRev?_eq_find?_reverse]
  cases p last <;> rfl

theorem kind?_after (history : List (Gvr × Gvk)) (gvr : Gvr) :
    (empty.after history).kind? gvr = lastKind? history gvr := by
  induction history using List.reverseRecOn with
  | nil => rfl
  | append_singleton history last ih =>
    obtain ⟨found, gvk⟩ := last
    rw [after_concat, lastKind?, findRev?_concat]
    change ((found, gvk) :: _).lookup gvr = _
    rw [List.lookup_cons, BEq.comm]
    change _ = lastKind? history gvr at ih
    dsimp only
    cases found == gvr with
    | false => exact ih
    | true => rfl

theorem resource?_after (history : List (Gvr × Gvk)) (gvk : Gvk) :
    (empty.after history).resource? gvk =
      (lastResource? history gvk).map fun gvr => .under gvr gvk := by
  induction history using List.reverseRecOn with
  | nil => rfl
  | append_singleton history last ih =>
    obtain ⟨gvr, found⟩ := last
    rw [after_concat, lastResource?, findRev?_concat]
    change ((found, _) :: _).lookup gvk = _
    rw [List.lookup_cons, BEq.comm]
    dsimp only
    cases hsame : found == gvk with
    | false => exact ih
    | true =>
      obtain rfl := eq_of_beq hsame
      rfl

theorem mem_of_findRev? {α : Type} {p : α → Bool} {history : List α} {found : α}
    (h : history.findRev? p = some found) : found ∈ history ∧ p found = true := by
  rw [List.findRev?_eq_find?_reverse] at h
  exact ⟨List.mem_reverse.mp (List.mem_of_find?_eq_some h), List.find?_some h⟩

theorem mem_of_lastKind? {history : List (Gvr × Gvk)} {gvr : Gvr} {gvk : Gvk}
    (h : lastKind? history gvr = some gvk) : (gvr, gvk) ∈ history := by
  obtain ⟨pair, hpair, rfl⟩ := Option.map_eq_some_iff.mp h
  obtain ⟨hmem, hsame⟩ := mem_of_findRev? hpair
  rwa [← eq_of_beq hsame]

/-- Once a resource has been remembered with a kind, the kind is served. -/
theorem exists_lastResource? {history : List (Gvr × Gvk)} {gvr : Gvr} {gvk : Gvk}
    (h : (gvr, gvk) ∈ history) : ∃ last, lastResource? history gvk = some last := by
  have hsome : (history.findRev? fun pair => pair.2 == gvk).isSome := by
    rw [List.findRev?_eq_find?_reverse, List.find?_isSome]
    exact ⟨_, List.mem_reverse.mpr h, beq_self_eq_true gvk⟩
  obtain ⟨pair, hpair⟩ := Option.isSome_iff_exists.mp hsome
  exact ⟨pair.1, by rw [lastResource?, hpair, Option.map_some]⟩

end Mapping

end ClusterObjects
