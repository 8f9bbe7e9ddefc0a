import ClusterObjects.Identity.Resource
import ClusterObjects.Schema.Shape

/-! # The catalog of typed kinds

The kinds whose objects have a known shape, each with the resource that serves
it. A typed kind lists the members of its objects in key order; the members
that state the kind itself are not among them.
-/

namespace ClusterObjects

/-- A kind whose objects have a known shape. -/
structure TypedKind where
  gvk : Gvk
  fields : List Shape.Member

namespace Schema

open Shape

def texts : Shape := .mapOf .text

def ownerReference : Shape :=
  .record "OwnerReference" [
    required "apiVersion" .text,
    optional "blockOwnerDeletion" .bool,
    optional "controller" .bool,
    required "kind" .text,
    required "name" .text,
    required "uid" .text]

/-- The metadata that every object has. -/
def metadata : Shape :=
  .record "ObjectMeta" [
    optional "annotations" texts,
    optional "creationTimestamp" .time,
    optional "deletionGracePeriodSeconds" .int64,
    optional "deletionTimestamp" .time,
    optional "finalizers" (.listOf .text),
    optional "generateName" .text,
    optional "generation" .int64,
    optional "labels" texts,
    optional "name" .text,
    optional "namespace" .text,
    optional "ownerReferences" (.listOf ownerReference),
    optional "resourceVersion" .text,
    optional "selfLink" .text,
    optional "uid" .text]

/-- The metadata member, which is always present. -/
def metadataMember : Member := required "metadata" metadata

/-- A reference to an object of any kind. -/
def objectReference : Shape :=
  .record "ObjectReference" [
    optional "apiVersion" .text,
    optional "fieldPath" .text,
    optional "kind" .text,
    optional "name" .text,
    optional "namespace" .text,
    optional "resourceVersion" .text,
    optional "uid" .text]

def localReference : Shape := .record "LocalObjectReference" [optional "name" .text]

/-- What a label selector of a workload asks for. -/
def labelSelector : Shape :=
  .record "LabelSelector" [
    optional "matchExpressions" (.listOf (.record "LabelSelectorRequirement" [
      required "key" .text,
      required "operator" .text,
      optional "values" (.listOf .text)])),
    optional "matchLabels" texts]

def podContainer : Shape :=
  .record "Container" [optional "image" .text, required "name" .text]

def podSpec : Shape :=
  .record "PodSpec" [
    required "containers" (.listOf podContainer),
    optional "hostNetwork" .bool,
    optional "nodeName" .text,
    optional "restartPolicy" .text]

def podStatus : Shape :=
  .record "PodStatus" [optional "phase" .text, optional "podIP" .text]

/-- The pods that a workload makes. -/
def podTemplate : Shape :=
  .record "PodTemplateSpec" [optional "metadata" metadata, optional "spec" podSpec]

/-- What a deployment is to keep running. -/
def deploymentSpec : Shape :=
  .record "DeploymentSpec" [
    optional "paused" .bool,
    optional "replicas" .int32,
    required "selector" labelSelector,
    required "template" podTemplate]

/-- The role that a binding grants. -/
def roleReference : Shape :=
  .record "RoleRef" [required "apiGroup" .text, required "kind" .text, required "name" .text]

/-- What a custom kind is called and where it is served. -/
def customResourceSpec : Shape :=
  .record "CustomResourceDefinitionSpec" [
    required "group" .text,
    required "names" (.record "CustomResourceDefinitionNames" [
      required "kind" .text,
      required "plural" .text]),
    required "scope" .text,
    required "versions" (.listOf (.record "CustomResourceDefinitionVersion" [
      required "name" .text,
      required "served" .bool,
      required "storage" .bool]))]

/-- A typed kind that knows its metadata and the given members. -/
def kind (group version name : String) (before after : List Member) : TypedKind :=
  ⟨⟨group, version, name⟩, before ++ metadataMember :: after⟩

/-- The typed kinds and the resources that serve them, in the order in which they
are listed. -/
def catalog : List (String × TypedKind) := [
  ("namespaces", kind "" "v1" "Namespace" []
    [optional "spec" (.record "NamespaceSpec" [optional "finalizers" (.listOf .text)]),
     optional "status" (.record "NamespaceStatus" [optional "phase" .text])]),
  ("nodes", kind "" "v1" "Node" [] []),
  ("pods", kind "" "v1" "Pod" [] [optional "spec" podSpec, optional "status" podStatus]),
  ("services", kind "" "v1" "Service" [] []),
  ("secrets", kind "" "v1" "Secret"
    [optional "data" (.mapOf .base64), optional "immutable" .bool]
    [optional "stringData" texts, optional "type" .text]),
  ("configmaps", kind "" "v1" "ConfigMap"
    [optional "binaryData" (.mapOf .base64), optional "data" texts, optional "immutable" .bool] []),
  ("serviceaccounts", kind "" "v1" "ServiceAccount"
    [optional "automountServiceAccountToken" .bool,
     optional "imagePullSecrets" (.listOf localReference)]
    [optional "secrets" (.listOf objectReference)]),
  ("resourcequotas", kind "" "v1" "ResourceQuota" [] []),
  ("persistentvolumeclaims", kind "" "v1" "PersistentVolumeClaim" [] []),
  ("persistentvolumes", kind "" "v1" "PersistentVolume" [] []),
  ("roles", kind "rbac.authorization.k8s.io" "v1" "Role" [] []),
  ("rolebindings", kind "rbac.authorization.k8s.io" "v1" "RoleBinding" []
    [required "roleRef" roleReference]),
  ("clusterroles", kind "rbac.authorization.k8s.io" "v1" "ClusterRole" [] []),
  ("clusterrolebindings", kind "rbac.authorization.k8s.io" "v1" "ClusterRoleBinding" []
    [required "roleRef" roleReference]),
  ("deployments", kind "apps" "v1" "Deployment" [] [optional "spec" deploymentSpec]),
  ("daemonsets", kind "apps" "v1" "DaemonSet" [] []),
  ("replicasets", kind "apps" "v1" "ReplicaSet" [] []),
  ("statefulsets", kind "apps" "v1" "StatefulSet" [] []),
  ("controllerrevisions", kind "apps" "v1" "ControllerRevision" []
    [required "revision" .int64]),
  ("storageclasses", kind "storage.k8s.io" "v1" "StorageClass" []
    [required "provisioner" .text]),
  ("customresourcedefinitions", kind "apiextensions.k8s.io" "v1" "CustomResourceDefinition" []
    [required "spec" customResourceSpec]),
  ("jobs", kind "batch" "v1" "Job" [] []),
  ("cronjobs", kind "batch" "v1" "CronJob" [] []),
  ("ingresses", kind "networking.k8s.io" "v1" "Ingress" [] []),
  ("horizontalpodautoscalers", kind "autoscaling" "v2" "HorizontalPodAutoscaler" [] [])]

end Schema

end ClusterObjects
