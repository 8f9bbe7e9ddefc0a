import ClusterObjects.Proofs.Object.Container

/-! # The catalog is lawful

The typed kinds of the catalog list their members in key order, with the metadata
among them, and have an identity that can be read back.
-/

namespace ClusterObjects.Schema

/-- Whether a kind is lawful, apart from knowing its metadata. -/
def checkKind (kind : TypedKind) : Bool :=
  (Shape.record kind.gvk.kind kind.fields).lawful &&
    !Entries.contains kind.fields "apiVersion" && !Entries.contains kind.fields "kind" &&
    decide (Gvk.ofApiVersion kind.gvk.apiVersion kind.gvk.kind = kind.gvk)

theorem lawful_of_checkKind {kind : TypedKind} (hmetadata : metadataMember ∈ kind.fields)
    (h : checkKind kind = true) : kind.Lawful := by
  simp only [checkKind, Bool.and_eq_true, Bool.not_eq_true', Entries.contains,
    Option.isSome_eq_false_iff, Option.isNone_iff_eq_none, decide_eq_true_eq] at h
  obtain ⟨⟨⟨hshape, hversion⟩, hkind⟩, hidentity⟩ := h
  have hascending := (Shape.lawful_record_iff.mp hshape).1
  exact ⟨hshape, (Entries.get?_eq_some_iff hascending).mpr hmetadata, hversion, hkind, hidentity⟩

theorem metadataMember_mem_catalog : ∀ entry ∈ catalog, metadataMember ∈ entry.2.fields := by
  simp [catalog, kind]

/-- Every kind of the catalog is lawful. -/
theorem lawful_of_mem_catalog {entry : String × TypedKind} (h : entry ∈ catalog) :
    entry.2.Lawful := by
  have hall : catalog.all (fun entry => checkKind entry.2) = true := by decide +kernel
  exact lawful_of_checkKind (metadataMember_mem_catalog entry h) (List.all_eq_true.mp hall entry h)

/-- The kind of config maps. -/
def configMap : TypedKind :=
  kind "" "v1" "ConfigMap" [Shape.optional "binaryData" (.mapOf .base64),
    Shape.optional "data" texts, Shape.optional "immutable" .bool] []

theorem lawful_configMap : configMap.Lawful :=
  lawful_of_checkKind (by simp [configMap, kind]) (by decide +kernel)

end ClusterObjects.Schema
