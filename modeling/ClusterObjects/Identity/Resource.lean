import ClusterObjects.Identity.Kind

/-! # Resources

The address of a collection in the API: an API group, a version of it and the
plural name under which the objects of one kind are served.
-/

namespace ClusterObjects

/-- The address of a collection in the API. -/
structure Gvr where
  group : String
  version : String
  resource : String
deriving DecidableEq, Inhabited

namespace Gvr

def apiVersion (gvr : Gvr) : String := joinApiVersion gvr.group gvr.version

/-- The text that names a resource in messages. -/
def text (gvr : Gvr) : String := gvr.apiVersion ++ "/" ++ gvr.resource

end Gvr

end ClusterObjects
