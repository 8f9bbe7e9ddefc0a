import ClusterObjects.Proofs.Remote.Requests

/-! # Resources and the kinds they have

A client answers which kind a resource has, and the requests about the objects of a kind go to the
collection that the kind is served under. The two belong together as far as the mapping can say:
the kind stays served from then on, under the resource that was last remembered with it.
-/

namespace ClusterObjects

/-- The path of a resource in a namespace, or in all of them if it is empty. -/
def Gvr.path (gvr : Gvr) (namespaceName : String) : String :=
  ServedResource.path ⟨gvr.group, gvr.version, "", gvr.resource⟩ namespaceName

/-- The collection of a kind under the name of a resource. -/
def Gvk.collection (gvk : Gvk) (gvr : Gvr) : Gvr := ⟨gvk.group, gvk.version, gvr.resource⟩

namespace Remote

/-- What happens to a client: it carries out an operation, or it remembers what a version of an
API group lists, as discovery does whose operation is under way. -/
inductive Turn where
  | act (operation : Operation)
  | remember (list : Json)

def Turn.run : Turn → Remote → Remote
  | .act operation, remote => operation.run remote
  | .remember list, remote => (learn (listedResources list) remote).2

/-- The client after all that has happened to it. -/
def after (remote : Remote) (turns : List Turn) : Remote :=
  turns.foldl (fun remote turn => turn.run remote) remote

theorem after_append (remote : Remote) (earlier later : List Turn) :
    remote.after (earlier ++ later) = (remote.after earlier).after later :=
  List.foldl_append

theorem Turn.exists_mapping_run (turn : Turn) (remote : Remote) :
    ∃ found, (∀ pair ∈ found, Listed pair) ∧
      (turn.run remote).mapping = remote.mapping.after found := by
  cases turn with
  | act operation => exact operation.exists_mapping_run remote
  | remember list => exact ⟨listedResources list, fun _ => listed_of_mem, rfl⟩

/-- Only what has been listed is ever remembered, and nothing of it is forgotten. -/
theorem exists_mapping_after (turns : List Turn) (remote : Remote) :
    ∃ found, (∀ pair ∈ found, Listed pair) ∧
      (remote.after turns).mapping = remote.mapping.after found := by
  induction turns generalizing remote with
  | nil => exact ⟨[], nofun, rfl⟩
  | cons turn rest ih =>
    obtain ⟨found, hfound, hmapping⟩ := turn.exists_mapping_run remote
    obtain ⟨more, hmore, hlater⟩ := ih (turn.run remote)
    refine ⟨found ++ more, List.forall_mem_append.mpr ⟨hfound, hmore⟩, ?_⟩
    rw [Mapping.after_append, ← hmapping]
    exact hlater

/-- How a client serves a kind after a history of what it has remembered: its tables hold the
last of the history, the kind is served under the resource that was last remembered with it, and
all requests about objects of the kind go to that collection. -/
structure Serves (remote : Remote) (history : List (Gvr × Gvk)) (gvk : Gvk) (last : Gvr) :
    Prop where
  mapping_eq : remote.mapping = Mapping.empty.after history
  lastResource?_eq : Mapping.lastResource? history gvk = some last
  resource?_eq : remote.mapping.resource? gvk =
    some ⟨gvk.group, gvk.version, gvk.kind, last.resource⟩
  sent_run : ∀ operation : Operation, ∀ target ∈ operation.target?, target.kind = gvk →
    ∃ requests, (operation.run remote).sent = remote.sent ++ requests ∧
      requests.map HttpRequest.path =
        target.paths ((gvk.collection last).path target.namespaceName)

theorem exists_serves {remote : Remote} {history : List (Gvr × Gvk)}
    (hmapping : remote.mapping = Mapping.empty.after history) {gvr : Gvr} {gvk : Gvk}
    (h : (gvr, gvk) ∈ history) : ∃ last, remote.Serves history gvk last := by
  obtain ⟨last, hlast⟩ := Mapping.exists_lastResource? h
  have hserved : remote.mapping.resource? gvk = some (.under last gvk) := by
    rw [hmapping, Mapping.resource?_after, hlast, Option.map_some]
  refine ⟨last, hmapping, hlast, hserved, ?_⟩
  rintro operation target htarget rfl
  have hsent := Operation.exists_sent_run htarget hserved
  exact hsent

/-- Once a resource has a kind, the kind is served in every later state. The requests about its
objects go to the collection of the resource exactly if the resource that was last remembered with
the kind has its name and, where the registry states the kind, the resource is in its group and
version; a listed resource always is. -/
theorem exists_serves_after (registry : Registry) (server : Server) (capacity : Nat)
    (earlier later : List Turn) {gvr : Gvr} {gvk : Gvk}
    (h : ((ofRegistry registry server capacity).after earlier).mapping.kind? gvr = some gvk) :
    ∃ found last, (∀ pair ∈ found, Listed pair) ∧
      ((ofRegistry registry server capacity).after (earlier ++ later)).Serves
        (registry.seeds ++ found) gvk last ∧
      (gvk.collection last = gvr ↔ last.resource = gvr.resource ∧
        ((gvr, gvk) ∈ registry.seeds → gvr.group = gvk.group ∧ gvr.version = gvk.version)) := by
  have hstart : (ofRegistry registry server capacity).mapping =
      Mapping.empty.after registry.seeds := Mapping.ofRegistry_eq registry
  obtain ⟨found, hfound, hearlier⟩ := exists_mapping_after earlier
    (ofRegistry registry server capacity)
  obtain ⟨more, hmore, hlater⟩ := exists_mapping_after later
    ((ofRegistry registry server capacity).after earlier)
  rw [hstart, ← Mapping.after_append] at hearlier
  rw [hearlier, ← after_append, ← Mapping.after_append] at hlater
  rw [hearlier, Mapping.kind?_after] at h
  have hmem := Mapping.mem_of_lastKind? h
  obtain ⟨last, hserves⟩ := exists_serves hlater (List.mem_append_left more hmem)
  rw [List.append_assoc] at hserves
  refine ⟨found ++ more, last, List.forall_mem_append.mpr ⟨hfound, hmore⟩, hserves, ?_⟩
  have hlisted : (gvr, gvk) ∉ registry.seeds → Listed (gvr, gvk) := fun hseed =>
    hfound _ ((List.mem_append.mp hmem).resolve_left hseed)
  constructor
  · rintro rfl
    exact ⟨rfl, fun _ => ⟨rfl, rfl⟩⟩
  · rintro ⟨hname, hseed⟩
    have hsame : gvr.group = gvk.group ∧ gvr.version = gvk.version := by
      by_cases hmem : (gvr, gvk) ∈ registry.seeds
      · exact hseed hmem
      · exact ⟨(hlisted hmem).group_eq, (hlisted hmem).version_eq⟩
    rw [Gvk.collection, hname, ← hsame.1, ← hsame.2]

def widget : Gvk := ⟨"x.io", "v1", "Widget"⟩

def widgets : Gvr := ⟨"x.io", "v1", "widgets"⟩

/-- Two resources that are registered with one kind. -/
def renamed : Registry :=
  (Registry.empty.registerGeneric "widgets" widgets (some widget)).registerGeneric "oldwidgets"
    ⟨"x.io", "v1", "oldwidgets"⟩ (some widget)

/-- A version that lists only one of them. -/
def listsWidgets : Json :=
  .obj [("groupVersion", .str "x.io/v1"), ("resources", .arr [.obj [("kind", .str "Widget"),
    ("name", .str "widgets"), ("namespaced", .bool true)]])]

theorem exists_serves_widgets :
    ((ofRegistry renamed [] 8).after []).mapping.kind? widgets = some widget ∧
    ((ofRegistry renamed [] 8).after [.remember listsWidgets]).mapping.resource? widget =
      some ⟨"x.io", "v1", "Widget", "widgets"⟩ ∧
    ∃ found last, (∀ pair ∈ found, Listed pair) ∧
      ((ofRegistry renamed [] 8).after ([] ++ [.remember listsWidgets])).Serves
        (renamed.seeds ++ found) widget last ∧
      (widget.collection last = widgets ↔ last.resource = widgets.resource ∧
        ((widgets, widget) ∈ renamed.seeds →
          widgets.group = widget.group ∧ widgets.version = widget.version)) :=
  ⟨by decide, by decide +kernel,
    exists_serves_after renamed [] 8 [] [.remember listsWidgets] (by decide)⟩

/-- The kind of a resource need not be served under the name of the resource: of two resources
that are registered with one kind, both have it, and the second serves it. -/
theorem not_served_under_own_name :
    ¬ ∀ (registry : Registry) (server : Server) (capacity : Nat) (turns : List Turn) (gvr : Gvr)
      (gvk : Gvk),
      ((ofRegistry registry server capacity).after turns).mapping.kind? gvr = some gvk →
      ∃ served, ((ofRegistry registry server capacity).after turns).mapping.resource? gvk =
        some served ∧ served.group = gvk.group ∧ served.version = gvk.version ∧
          served.kind = gvk.kind ∧ served.plural = gvr.resource := by
  intro h
  obtain ⟨served, hserved, _, _, _, hplural⟩ := h renamed [] 8 [] widgets widget (by decide)
  have hlast : ((ofRegistry renamed [] 8).after []).mapping.resource? widget =
      some ⟨"x.io", "v1", "Widget", "oldwidgets"⟩ := by decide
  obtain rfl := Option.some.inj (hserved.symm.trans hlast)
  exact absurd hplural (by decide)

end Remote

end ClusterObjects
