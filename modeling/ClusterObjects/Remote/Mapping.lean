import ClusterObjects.Registry

/-! # Resources of a cluster

What is known about the resources that a cluster serves: the kind of a resource,
and the resource under which a kind is served. The two tables are filled
together, one entry in each for every resource, and the latest entry counts.
-/

namespace ClusterObjects

/-- The resource under which a kind is served. -/
structure ServedResource where
  group : String
  version : String
  kind : String
  plural : String
deriving DecidableEq

/-- The known resources, the latest first. -/
structure Mapping where
  kinds : List (Gvr × Gvk)
  resources : List (Gvk × ServedResource)

namespace Mapping

/-- Nothing is known. -/
def empty : Mapping := ⟨[], []⟩

/-- It is known that a resource has a kind. -/
def remember (mapping : Mapping) (gvr : Gvr) (gvk : Gvk) : Mapping :=
  { kinds := (gvr, gvk) :: mapping.kinds
    resources := (gvk, ⟨gvk.group, gvk.version, gvk.kind, gvr.resource⟩) :: mapping.resources }

/-- The registered resources whose kind is known in advance. -/
def ofRegistry (registry : Registry) : Mapping :=
  registry.entries.foldl (fun mapping entry =>
    match entry.kind with
    | some gvk => mapping.remember entry.gvr gvk
    | none => mapping) empty

def kind? (mapping : Mapping) (gvr : Gvr) : Option Gvk := mapping.kinds.lookup gvr

/-- The resource under which a kind is served. -/
def resource? (mapping : Mapping) (gvk : Gvk) : Option ServedResource :=
  mapping.resources.lookup gvk

end Mapping

namespace ServedResource

/-- The path of the resource in a namespace, or in all of them if it is empty. -/
def path (resource : ServedResource) (namespaceName : String) : String :=
  (if resource.group.isEmpty then "/api/" else "/apis/") ++
    joinApiVersion resource.group resource.version ++
    (if namespaceName.isEmpty then "/" else "/namespaces/" ++ namespaceName ++ "/") ++
    resource.plural

end ServedResource

end ClusterObjects
