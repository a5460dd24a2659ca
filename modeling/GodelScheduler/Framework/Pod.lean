import GodelScheduler.Framework.Resource

/-!
# Pods

A pod with the fields the scheduler and the binder read. Annotations appear as
their parsed values: an absent or empty string is `none`, and an annotation the
source parses with an error keeps that case. Node names are never empty, so the
source's test for an empty node name is a test for `none`.
-/

namespace GodelScheduler

open Library

structure NodeName where
  val : String
  nonempty : val ≠ ""
  deriving DecidableEq

theorem node_append_ne_empty (suffix : String) : "node" ++ suffix ≠ "" := by simp

def nodeNamed (suffix : String) : NodeName := ⟨"node" ++ suffix, node_append_ne_empty suffix⟩

inductive PodState
  | notInit
  | pending
  | dispatched
  | assumed
  | other
  deriving DecidableEq, Repr

inductive PodResourceType
  | guaranteed
  | bestEffort
  deriving DecidableEq, Repr

inductive PodLauncher
  | kubelet
  | nodeManager
  deriving DecidableEq, Repr

/-- The nominated-node annotation: it may fail to parse or carry no node name. -/
inductive NominatedNode
  | unparsable
  | parsed (nodeName : Option NodeName)
  deriving DecidableEq

/-- The micro-topology annotation: what is allocated to the pod on each NUMA. An empty text and
`null` allocate nothing. -/
inductive MicroTopology
  | unparsable
  | parsed (numaAllocations : GoMap ℤ ResourceList)
  deriving DecidableEq

/-- The kinds of owners whose labels the scheduler keeps. -/
inductive OwnerType
  | daemonSet
  | replicaSet
  deriving DecidableEq, Repr

def OwnerType.ofKind : String → Option OwnerType
  | "DaemonSet" => some .daemonSet
  | "ReplicaSet" => some .replicaSet
  | _ => none

structure OwnerReference where
  kind : String
  name : String
  uid : String := ""
  deriving DecidableEq, Repr

/-- The owner a pod counts under: a workload, its request template or its pod group. -/
structure OwnerInfo where
  type : String
  ns : String
  name : String
  uid : String := ""
  deriving DecidableEq, Repr

def getOwnerInfoKey (ownerInfo : OwnerInfo) : String :=
  ownerInfo.type ++ "/" ++ ownerInfo.ns ++ "/" ++ ownerInfo.name ++ "/" ++ ownerInfo.uid

structure ContainerPort where
  hostIP : String := ""
  protocol : String := ""
  hostPort : ℤ := 0
  deriving DecidableEq, Repr

structure Pod where
  uid : String
  ns : String
  name : String
  resourceVersion : ℕ := 0
  generation : ℕ := 0
  status : ℕ := 0
  /-- `Spec.NodeName`. -/
  nodeName : Option NodeName := none
  schedulerName : String := ""
  podState : PodState := .notInit
  /-- The selected-scheduler annotation. -/
  scheduler : Option String := none
  assumedNode : Option NodeName := none
  nominatedNode : Option NominatedNode := none
  /-- The pod-group-name annotation. -/
  podGroupName : Option String := none
  /-- `none` for an unsupported resource type. -/
  podResourceType : Option PodResourceType := some .guaranteed
  /-- `none` for an unsupported launcher. -/
  podLauncher : Option PodLauncher := some .kubelet
  deletionTimestamp : Option ℤ := none
  isReservationPlaceholderPod : Bool := false
  podsWithAffinity : Bool := false
  podsWithRequiredAntiAffinity : Bool := false
  labels : GoMap String String := ∅
  ownerReferences : List OwnerReference := []
  /-- The requests of each container. -/
  containers : List ResourceList := []
  initContainers : List ResourceList := []
  /-- The ports of each container. -/
  ports : List (List ContainerPort) := []
  overhead : Option ResourceList := none
  /-- Whether the annotation that lifts the pod limit is present. -/
  ignorePodsLimit : Bool := false
  /-- `none` without the annotation. -/
  microTopology : Option MicroTopology := none
  /-- The request-template annotation. -/
  requestTemplate : Option String := none
  /-- The movement-name annotation. -/
  movementName : Option String := none
  /-- The placeholder of the reservation the pod belongs to. -/
  reservationPlaceholder : Option String := none
  /-- The key of the placeholder pod whose reservation the pod takes over. -/
  matchedReservationPlaceholderPod : Option String := none
  /-- `Spec.Priority`. -/
  priority : Option ℤ := none
  /-- `Status.StartTime`. -/
  startTime : Option ℤ := none
  /-- The controlling owner, if it is an application. -/
  controllerApplication : Option String := none
  /-- The applications whose pods may be victims of the pod; `none` without the annotation or if
  it fails to parse. -/
  potentialVictims : Option (List String) := none
  deriving DecidableEq

variable (pod : Pod)

namespace Pod

def boundPod : Bool := pod.nodeName.isSome

def legalPodResourceTypeAndLauncher : Bool :=
  pod.podLauncher.isSome && pod.podResourceType.isSome

def responsibleForPod (schedulerName : String) : Bool :=
  pod.schedulerName == schedulerName || pod.schedulerName == "default-scheduler" ||
    pod.schedulerName == ""

/-- Exactly one of the assumed and the nominated node is set. -/
def assumedOrNominatedNodeIsSet : Bool :=
  (pod.assumedNode.isNone && pod.nominatedNode.isSome) ||
    (pod.assumedNode.isSome && pod.nominatedNode.isNone)

def assumedPod : Bool :=
  pod.podState == .assumed && pod.scheduler.isSome && pod.assumedOrNominatedNodeIsSet &&
    pod.nodeName.isNone

def assumedPodOfGodel (schedulerName : String) : Bool :=
  pod.legalPodResourceTypeAndLauncher && pod.responsibleForPod schedulerName && pod.assumedPod

/-- The node a pod is bound to, else the one it is assumed on, else the nominated one. -/
def getNodeNameFromPod : Option NodeName :=
  match pod.nodeName with
  | some n => some n
  | none =>
    match pod.assumedNode with
    | some n => some n
    | none =>
      match pod.nominatedNode with
      | some (.parsed n) => n
      | some .unparsable => none
      | none => none

/-- The kind and the key of the pod's first owner of a kept kind. -/
def getOwnerInfo : Option (OwnerType × String) :=
  pod.ownerReferences.findSome? fun ref =>
    (OwnerType.ofKind ref.kind).map fun kind => (kind, pod.ns ++ "/" ++ ref.name)

def getOwnerReferenceFromPod : Option OwnerReference :=
  pod.ownerReferences.find? fun ref =>
    ref.kind == "ReplicaSet" || ref.kind == "StatefulSet" || ref.kind == "StatefulSetExtension"

/-- The workload of the pod, else its request template. -/
def getPodOwnerInfo : Option OwnerInfo :=
  match pod.getOwnerReferenceFromPod with
  | some ownerRef => some ⟨ownerRef.kind, pod.ns, ownerRef.name, ownerRef.uid⟩
  | none => pod.requestTemplate.map fun requestTemplate =>
    { type := "RequestTemplate", ns := pod.ns, name := requestTemplate }

/-- The key of the pod's workload or request template, empty without one. -/
def getPodOwnerInfoKey : String :=
  match pod.getPodOwnerInfo with
  | none => ""
  | some podOwnerInfo => getOwnerInfoKey podOwnerInfo

def getPodPriority : ℤ := pod.priority.getD 0

def getBestEffortPodAppName : String := pod.controllerApplication.getD ""

/-- The cache key of a pod, an error for an empty UID. -/
def getPodKey : Except String String :=
  if pod.uid = "" then .error "cannot get cache key for pod with empty UID" else .ok pod.uid

end Pod

end GodelScheduler
