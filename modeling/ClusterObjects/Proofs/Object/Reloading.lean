import ClusterObjects.Proofs.Object.Printing
import ClusterObjects.Proofs.Schema.Catalog
import Mathlib.Data.List.Induction

/-! # Loading again

What a container prints after loading is in canonical form, and loading that form changes
nothing. Only the kind of a generic container is not always read back: it is kept as a text, of
which reading drops a slash in front.

What a container loads depends on its kind alone, and loading keeps the kind wherever it is read
back. A container that was given any bodies then behaves like an empty one, and holds what the
last body that it loaded gave.
-/

namespace ClusterObjects

/-- The identity of a lawful kind is not written with a slash in front. -/
theorem TypedKind.Lawful.head?_apiVersion {kind : TypedKind} (h : kind.Lawful) :
    kind.gvk.apiVersion.toList.head? ≠ some '/' :=
  Gvk.apiVersion_ofApiVersion_iff.mp (congrArg Gvk.apiVersion h.identity)

namespace Container

variable {c d e : Container} {value : Json}

/-! ## Empty containers of a kind -/

theorem coherent_emptyLike_iff (h : c.Lawful) :
    c.emptyLike.Coherent ↔ c.gvk.apiVersion.toList.head? ≠ some '/' := by
  rw [coherent_iff]
  unfold emptyLike gvk
  cases hrep : c.representation with
  | typed kind =>
    exact iff_of_true (fun _ _ hother => Representation.noConfusion hother)
      (h kind hrep).head?_apiVersion
  | generic apiVersion kind =>
    constructor
    · intro hslash
      exact hslash _ _ rfl
    · intro hslash _ _ hother
      rwa [← (Representation.generic.inj hother).1]

/-- An empty container states its kind as the container does that it is like, if that one is
coherent. -/
theorem Coherent.representation_emptyLike (h : c.Coherent) :
    c.emptyLike.representation = c.representation := by
  have hkind := c.snd_statedKind
  unfold Coherent at h
  unfold statedKind at h hkind
  unfold emptyLike
  cases hrep : c.representation with
  | typed kind => rfl
  | generic apiVersion kind =>
    rw [hrep] at h hkind
    exact (congrArg₂ Representation.generic h hkind).symm

/-- A container that is typed, or whose kind has no slash in its group and version, is like an
empty one of the same kind. -/
theorem gvk_emptyLike_of_slashFree (h : c.isTyped = false → c.gvk.SlashFree) :
    c.emptyLike.gvk = c.gvk := by
  cases hrep : c.representation with
  | typed kind => exact gvk_emptyLike_of_typed hrep
  | generic apiVersion kind =>
    have hfree : c.gvk.SlashFree := h (by rw [isTyped, hrep])
    rw [gvk_emptyLike_of_generic hrep, Gvk.ofApiVersion_apiVersion hfree]

/-! ## Loading what was loaded -/

/-- Two containers print the same and show the same object. -/
structure Alike (c d : Container) : Prop where
  toJson : c.toJson = d.toJson
  document : c.document = d.document
  gvk : c.gvk = d.gvk
  isTyped : c.isTyped = d.isTyped
  name : c.name = d.name
  namespaceName : c.namespaceName = d.namespaceName
  labels : c.metadata.labels? = d.metadata.labels?
  annotations : c.metadata.annotations? = d.metadata.annotations?
  owners : c.metadata.owners = d.metadata.owners

/-- The instant of the creation is the one thing that containers do not print. -/
theorem alike_of_members (hrep : c.representation = d.representation)
    (hfields : c.metadata.fields = d.metadata.fields) (hbody : c.body = d.body) : c.Alike d := by
  obtain ⟨representation, ⟨fields, created⟩, body⟩ := c
  obtain ⟨other, ⟨others, instant⟩, members⟩ := d
  obtain rfl : representation = other := hrep
  obtain rfl : fields = others := hfields
  obtain rfl : body = members := hbody
  exact ⟨rfl, rfl, rfl, rfl, rfl, rfl, rfl, rfl, rfl⟩

/-- What the container prints can be loaded into an empty container of its kind, which then is
no different. -/
def Reloads (c : Container) : Prop := ∃ e, c.emptyLike.load c.toJson = .ok e ∧ e.Alike c

theorem WellFormed.reloads (h : c.WellFormed) (hcoherent : c.Coherent) : c.Reloads := by
  have hempty := hcoherent.representation_emptyLike
  have hempties : c.emptyLike.Coherent := coherent_of_representation hempty hcoherent
  have haccepts : c.emptyLike.Accepts c.toJson := accepts_toJson h hempties hempty.symm
  obtain ⟨e, hload⟩ := (exists_load_iff h.lawful.emptyLike h.toJson).mpr haccepts
  have hloaded := loaded_of_load h.lawful.emptyLike h.toJson hload
  have hrep : c.representation = c.emptyLike.emptyLike.representation :=
    (hempties.representation_emptyLike.trans hempty).symm
  exact ⟨e, hload, alike_of_members (hloaded.representation.trans hrep.symm)
    (Json.obj.inj (hloaded.metadata_toJson_eq h)) (hloaded.body_eq h hrep)⟩

/-- A container that is not coherent states a kind that an empty container of its kind does not
have. -/
theorem coherent_of_reloads (h : c.Reloads) : c.Coherent := by
  obtain ⟨e, hload, -⟩ := h
  obtain ⟨fields, hfields, hstates, -⟩ := load_eq_ok_iff.mp hload
  have hstated := getD_stated?_iff.mp hstates.1 c.statedKind.1 (c.get?_toJson "apiVersion")
  refine (coherent_iff c).mpr fun apiVersion kind hrep => ?_
  have htext : c.statedKind.1 = apiVersion := by rw [statedKind, hrep]
  have hkind : c.gvk = Gvk.ofApiVersion apiVersion kind := by rw [gvk, hrep]
  rw [htext, gvk_emptyLike_of_generic hrep, hkind] at hstated
  rw [← @Gvk.apiVersion_ofApiVersion_iff apiVersion kind]
  by_cases hempty : apiVersion = ""
  · subst hempty
    rfl
  · exact Gvk.apiVersion_ofApiVersion_of_twice (hstated hempty).symm

/-- Loading is canonical: what a container prints after it has loaded a body is loaded and printed
again by an empty container of its kind, unless the text of the kind it had begins with a slash. -/
theorem reloads_iff (hlawful : c.Lawful) (hvalue : value.WellFormed)
    (hload : c.load value = .ok d) :
    d.Reloads ↔ c.gvk.apiVersion.toList.head? ≠ some '/' := by
  have hrep := representation_of_load hload
  rw [← coherent_emptyLike_iff hlawful]
  constructor
  · intro hreloads
    exact coherent_of_representation hrep.symm (coherent_of_reloads hreloads)
  · intro hcoherent
    exact (wellFormed_of_load hlawful hvalue hload).reloads
      (coherent_of_representation hrep hcoherent)

/-- A config map with the record of who manages it, with a member that config maps do not have,
and created on the last evening of a year that is over in UTC. -/
def eve : Json :=
  .obj [("data", .obj [("k", .str "1")]), ("extra", .null),
    ("metadata", .obj [("creationTimestamp", .str "9999-12-31T23:00:00.75-02:00"),
      ("managedFields", .arr []), ("name", .str "a")])]

theorem reloads_eve : ∃ d, (ofTyped Schema.configMap).load eve = .ok d ∧
    d.metadata.textAt "creationTimestamp" = "+10000-01-01T01:00:00Z" ∧ d.Reloads := by
  have hcreated : ((ofTyped Schema.configMap).load eve).toOption.map
      (·.metadata.textAt "creationTimestamp") = some "+10000-01-01T01:00:00Z" := by decide +kernel
  obtain ⟨d, hload, hcreated⟩ := Option.map_eq_some_iff.mp hcreated
  have hiff := reloads_iff (lawful_ofTyped Schema.lawful_configMap) (by decide)
    (eq_ok_of_toOption hload)
  exact ⟨d, eq_ok_of_toOption hload, hcreated, hiff.mpr (by decide)⟩

/-- With two slashes in front of its version a kind is not read back: one of them is printed, and
an empty container of what is then the kind expects none. -/
theorem not_reloads_slashes : ¬ ∀ (c d : Container) (value : Json), c.Lawful → value.WellFormed →
    c.load value = .ok d → d.Reloads := by
  intro h
  have hrefused : ((generic ⟨"", "//v1", "ConfigMap"⟩).load eve).toOption.map
      (fun d => (d.emptyLike.load d.toJson).toOption.isSome) = some false := by decide +kernel
  obtain ⟨d, hload, hnone⟩ := Option.map_eq_some_iff.mp hrefused
  obtain ⟨e, hagain, -⟩ := h _ d eve (lawful_generic _) (by decide) (eq_ok_of_toOption hload)
  rw [hagain] at hnone
  exact Bool.noConfusion hnone

/-! ## Loading bodies in turn -/

/-- The container after it was given a body to load; one that it refuses leaves it as it was. -/
def given (c : Container) (body : Json) : Container := (c.load body).toOption.getD c

/-- The container after it was given bodies in turn. -/
def after (c : Container) (bodies : List Json) : Container := bodies.foldl given c

/-- What the container holds after the last of the bodies that it can load, if there is one. -/
def last? (c : Container) (bodies : List Json) : Option Container :=
  bodies.reverse.findSome? fun body => (c.load body).toOption

theorem kin_emptyLike (h : c.emptyLike.gvk = c.gvk) : c.emptyLike.Kin c :=
  ⟨h, fun _ => representation_emptyLike⟩

/-- Loading keeps the kind where it is read back. -/
theorem kin_of_load (h : c.emptyLike.gvk = c.gvk) (hload : c.load value = .ok d) : d.Kin c := by
  have hrep := representation_of_load hload
  refine ⟨(gvk_eq_of_representation hrep).trans h, fun kind => ?_⟩
  rw [hrep]
  exact representation_emptyLike

theorem after_concat (c : Container) (bodies : List Json) (body : Json) :
    c.after (bodies ++ [body]) = (c.after bodies).given body := by
  rw [after, List.foldl_append]
  rfl

theorem last?_concat (c : Container) (bodies : List Json) (body : Json) :
    c.last? (bodies ++ [body]) = (c.load body).toOption.or (c.last? bodies) := by
  rw [last?, List.reverse_append, List.reverse_singleton, List.singleton_append,
    List.findSome?_cons]
  cases (c.load body).toOption <;> rfl

/-- A container that was given bodies is of the kind it was, and holds what the last of them gave
that it could load. -/
theorem kin_after (h : c.emptyLike.gvk = c.gvk) (bodies : List Json) :
    (c.after bodies).Kin c ∧ c.after bodies = (c.last? bodies).getD c := by
  induction bodies using List.reverseRecOn with
  | nil => exact ⟨kin_of_representation rfl, rfl⟩
  | append_singleton bodies body ih =>
    obtain ⟨hkin, hlast⟩ := ih
    rw [after_concat, last?_concat, given, hkin.load_eq]
    cases hload : c.load body with
    | error e => exact ⟨hkin, hlast⟩
    | ok d => exact ⟨kin_of_load h hload, rfl⟩

/-! ## Bodies of another kind -/

/-- A body states another kind than the given one: a text that is not empty stands where the kind
is stated, and differs. -/
def Misstates (gvk : Gvk) (body : Json) : Prop :=
  ∃ text, text ≠ "" ∧ (body.get? "apiVersion" = some (.str text) ∧ text ≠ gvk.apiVersion ∨
    body.get? "kind" = some (.str text) ∧ text ≠ gvk.kind)

theorem misstates_iff {gvk : Gvk} {body : Json} : Misstates gvk body ↔ ¬ StatesKind gvk body := by
  unfold Misstates StatesKind
  rw [getD_stated?_iff, getD_stated?_iff, not_and_or]
  constructor
  · rintro ⟨text, hne, ⟨hfound, hother⟩ | ⟨hfound, hother⟩⟩
    · exact Or.inl fun h => hother (h text hfound hne)
    · exact Or.inr fun h => hother (h text hfound hne)
  · simp only [not_forall]
    rintro (⟨text, hfound, hne, hother⟩ | ⟨text, hfound, hne, hother⟩)
    · exact ⟨text, hne, Or.inl ⟨hfound, hother⟩⟩
    · exact ⟨text, hne, Or.inr ⟨hfound, hother⟩⟩

/-- A body is refused for its kind exactly if it states another one. -/
theorem load_eq_kindMismatch_iff {body : Json} :
    (∃ expected found, c.load body = .error (.kindMismatch expected found)) ↔
      Misstates c.gvk body := by
  rw [misstates_iff]
  constructor
  · rintro ⟨expected, found, hload⟩ hstates
    cases body with
    | obj fields =>
      obtain ⟨reason, hreason⟩ := exists_decode_of_load_eq_error rfl hstates hload
      exact ObjectError.noConfusion hreason
    | _ => exact ObjectError.noConfusion (Except.error.inj hload)
  · intro hother
    obtain ⟨text, -, hfound⟩ := misstates_iff.mpr hother
    cases body with
    | obj fields =>
      have hcheck : checkKind c.gvk (.obj fields) = .error (.kindMismatch _ _) := if_neg hother
      exact ⟨_, _, by rw [load, hcheck]⟩
    | _ => rcases hfound with ⟨hfound, -⟩ | ⟨hfound, -⟩ <;> contradiction

/-- A container has no memory: whatever bodies it was given, it is of the kind and the
representation that it was, loads what an empty container of its kind loads, with the same result,
refuses for their kind exactly the bodies that state another one, and holds what an empty container
holds after the last body that it could load. -/
structure Memoryless (c : Container) : Prop where
  gvk : ∀ bodies, (c.after bodies).gvk = c.gvk
  isTyped : ∀ bodies, (c.after bodies).isTyped = c.isTyped
  loads : ∀ bodies body, (c.after bodies).load body = c.emptyLike.load body
  mismatch : ∀ bodies body,
    (∃ expected found, (c.after bodies).load body = .error (.kindMismatch expected found)) ↔
      Misstates c.gvk body
  holds : ∀ bodies, c.after bodies = (c.emptyLike.last? bodies).getD c

/-- Typed containers have no memory, and neither do generic ones of a kind without slashes in its
group and version. -/
theorem memoryless (h : c.isTyped = false → c.gvk.SlashFree) : c.Memoryless := by
  have hread := gvk_emptyLike_of_slashFree h
  have hafter := kin_after hread
  have hempty : ∀ body, c.emptyLike.load body = c.load body := (kin_emptyLike hread).load_eq
  refine ⟨fun bodies => (hafter bodies).1.gvk, fun bodies => (hafter bodies).1.isTyped,
    fun bodies body => ?_, fun bodies body => ?_, fun bodies => ?_⟩
  · rw [hempty, (hafter bodies).1.load_eq]
  · rw [load_eq_kindMismatch_iff, (hafter bodies).1.gvk]
  · have hlast : c.emptyLike.last? bodies = c.last? bodies := by simp only [last?, hempty]
    rw [hlast]
    exact (hafter bodies).2

/-- Of these bodies the second states another kind, and the last has no metadata. -/
theorem memoryless_widget :
    (generic ⟨"example.io", "v1", "Widget"⟩).gvk.SlashFree ∧
      (generic ⟨"example.io", "v1", "Widget"⟩).Memoryless ∧
      ((generic ⟨"example.io", "v1", "Widget"⟩).after
        [.obj [("metadata", .obj [("name", .str "a")]), ("size", .null)],
          .obj [("kind", .str "Gadget"), ("metadata", .obj [("name", .str "b")])],
          .obj [("apiVersion", .str ""), ("metadata", .obj [("name", .str "c")])],
          .obj [("metadata", .str "d")]]).name = "c" := by
  have hfree : (generic ⟨"example.io", "v1", "Widget"⟩).gvk.SlashFree := by decide +kernel
  exact ⟨hfree, memoryless fun _ => hfree, by decide +kernel⟩

end Container

end ClusterObjects
