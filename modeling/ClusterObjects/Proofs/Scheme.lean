import ClusterObjects.Proofs.Schema.Catalog
import ClusterObjects.Scheme

/-! # Lawful schemes

In the scheme of a registry every typed kind is known under its own identity,
whatever has been registered. The registry that the program starts from has
lawful kinds only, and registering another lawful one keeps this.
-/

namespace ClusterObjects

/-- Every typed kind is known under its own identity. -/
def Scheme.Identified (scheme : Scheme) : Prop :=
  ∀ gvk kind, scheme.kinds.get? gvk = some kind → kind.gvk = gvk

/-- Every typed kind is lawful and known under its own identity. -/
def Scheme.Lawful (scheme : Scheme) : Prop :=
  ∀ gvk kind, scheme.kinds.get? gvk = some kind → kind.gvk = gvk ∧ kind.Lawful

theorem Scheme.Lawful.identified {scheme : Scheme} (h : scheme.Lawful) : scheme.Identified :=
  fun gvk kind hkind => (h gvk kind hkind).1

/-- A shape that is registered for a kind is that of a kind of this identity. -/
def Registration.Identified (entry : Registration) : Prop :=
  ∀ gvk kind, entry.kind = some gvk → entry.typed = some kind → kind.gvk = gvk

/-- A shape that is registered for a kind is that of a lawful kind of this identity. -/
def Registration.Lawful (entry : Registration) : Prop :=
  ∀ gvk kind, entry.kind = some gvk → entry.typed = some kind → kind.gvk = gvk ∧ kind.Lawful

namespace Registry

/-- Every registration is lawful. -/
def Lawful (registry : Registry) : Prop := ∀ entry ∈ registry.entries, entry.Lawful

theorem lawful_empty : empty.Lawful := List.forall_mem_nil _

/-- What holds of all entries and of another holds of all entries once this is registered. -/
theorem forall_register {P : Registration → Prop} {registry : Registry}
    (h : ∀ entry ∈ registry.entries, P entry) {entry : Registration} (hentry : P entry) :
    ∀ other ∈ (registry.register entry).entries, P other := by
  intro other hother
  unfold register at hother
  split at hother
  · rcases List.mem_or_eq_of_mem_set hother with hold | rfl
    · exact h other hold
    · exact hentry
  · rcases List.mem_append.mp hother with hold | hnew
    · exact h other hold
    · rw [List.mem_singleton.mp hnew]
      exact hentry

theorem Lawful.register {registry : Registry} (h : registry.Lawful) {entry : Registration}
    (hentry : entry.Lawful) : (registry.register entry).Lawful :=
  forall_register h hentry

theorem Lawful.registerTyped {registry : Registry} (h : registry.Lawful) (name : String)
    {kind : TypedKind} (hkind : kind.Lawful) : (registry.registerTyped name kind).Lawful := by
  refine h.register fun gvk other hgvk hother => ?_
  rw [← Option.some.inj hgvk, ← Option.some.inj hother]
  exact ⟨rfl, hkind⟩

theorem Lawful.foldl_registerTyped {registry : Registry} (h : registry.Lawful)
    {kinds : List (String × TypedKind)} (hkinds : ∀ entry ∈ kinds, entry.2.Lawful) :
    (kinds.foldl (fun registry (name, kind) => registry.registerTyped name kind)
      registry).Lawful := by
  induction kinds generalizing registry with
  | nil => exact h
  | cons entry rest ih =>
    obtain ⟨hentry, hrest⟩ := List.forall_mem_cons.mp hkinds
    exact ih (h.registerTyped entry.1 hentry) hrest

/-- The registry that the program starts from is lawful. -/
theorem lawful_builtin : builtin.Lawful := by
  have hcatalog := lawful_empty.foldl_registerTyped fun _ => Schema.lawful_of_mem_catalog
  exact hcatalog.register fun _ _ _ hother => nomatch hother

/-- A registration: of a typed kind, or of a resource whose objects stay generic. -/
inductive Addition where
  | typed (name : String) (kind : TypedKind)
  | generic (name : String) (gvr : Gvr) (kind : Option Gvk)

def add (registry : Registry) : Addition → Registry
  | .typed name kind => registry.registerTyped name kind
  | .generic name gvr kind => registry.registerGeneric name gvr kind

/-- The registry that registrations lead to. -/
def ofAdditions (additions : List Addition) : Registry := additions.foldl add empty

/-- The registrations that the program starts with. -/
def builtinAdditions : List Addition :=
  Schema.catalog.map (fun (name, kind) => .typed name kind) ++
    [.generic guestbooks.name guestbooks.gvr guestbooks.kind]

theorem builtin_eq_ofAdditions : builtin = ofAdditions builtinAdditions := by
  unfold ofAdditions builtinAdditions
  rw [List.foldl_append, List.foldl_map]
  rfl

/-- However a registry came about, its shapes are registered for the kinds they are of. -/
theorem identified_ofAdditions (additions : List Addition) :
    ∀ entry ∈ (ofAdditions additions).entries, entry.Identified := by
  suffices h : ∀ registry : Registry, (∀ entry ∈ registry.entries, entry.Identified) →
      ∀ entry ∈ (additions.foldl add registry).entries, entry.Identified from
    h empty (List.forall_mem_nil _)
  induction additions with
  | nil => exact fun registry hregistry => hregistry
  | cons addition rest ih =>
    refine fun registry hregistry => ih (registry.add addition) ?_
    cases addition with
    | typed name kind =>
      refine forall_register hregistry fun gvk other hgvk hother => ?_
      rw [← Option.some.inj hgvk, ← Option.some.inj hother]
    | generic name gvr kind => exact forall_register hregistry fun _ _ _ hother => nomatch hother

end Registry

namespace Scheme

/-- What holds of every shape that is registered for a kind holds of the scheme of the
registry. -/
theorem forall_ofRegistry {P : Gvk → TypedKind → Prop} {registry : Registry}
    (h : ∀ entry ∈ registry.entries, ∀ gvk kind, entry.kind = some gvk →
      entry.typed = some kind → P gvk kind) :
    ∀ gvk kind, (ofRegistry registry).kinds.get? gvk = some kind → P gvk kind := by
  unfold ofRegistry
  have hkinds : ∀ gvk kind, Entries.get? ([] : Entries Gvk TypedKind) gvk = some kind →
      P gvk kind := fun _ _ hkind => nomatch hkind
  generalize registry.entries = entries at h ⊢
  -- It holds of the kinds registered so far.
  generalize ([] : Entries Gvk TypedKind) = kinds at hkinds ⊢
  induction entries generalizing kinds with
  | nil => exact hkinds
  | cons entry rest ih =>
    obtain ⟨hentry, hrest⟩ := List.forall_mem_cons.mp h
    refine ih hrest _ ?_
    dsimp only
    split
    next gvk kind hgvk hkind =>
      intro other found hfound
      rw [Entries.get?_insert] at hfound
      split at hfound
      next heq =>
        rw [← heq, ← Option.some.inj hfound]
        exact hentry gvk kind hgvk hkind
      next => exact hkinds other found hfound
    next => exact hkinds

/-- The scheme of a lawful registry is lawful. -/
theorem lawful_ofRegistry {registry : Registry} (h : registry.Lawful) :
    (ofRegistry registry).Lawful := forall_ofRegistry h

theorem identified_ofRegistry {registry : Registry}
    (h : ∀ entry ∈ registry.entries, entry.Identified) : (ofRegistry registry).Identified :=
  forall_ofRegistry h

end Scheme

end ClusterObjects
