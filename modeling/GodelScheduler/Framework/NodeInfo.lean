import GodelScheduler.Framework.Pod
import GodelScheduler.Framework.Topology
import GodelScheduler.GenerationStore.ListStore
import GodelScheduler.Library.HashSlice

/-!
# Node infos

The aggregated information of one node: its Node, NMNode and CNR objects, the
partition flags, the pods placed on it and the image summary. Pods are kept in
three containers by whether they may be preempted and by resource type; a pod
is looked up in them in the source's order.
-/

namespace GodelScheduler

open Library GenerationStore

structure Image where
  names : List String
  sizeBytes : ℤ
  deriving DecidableEq

structure Node where
  name : NodeName
  /-- Value of the sub-cluster label. -/
  subCluster : String := ""
  /-- Value of the scheduler annotation. -/
  scheduler : Option String := none
  images : List Image := []
  deriving DecidableEq

structure NMNode where
  name : NodeName
  subCluster : String := ""
  scheduler : Option String := none
  deriving DecidableEq

structure CustomNodeResource where
  name : NodeName
  /-- `Status.TopologyZone`. -/
  topologyZone : List TopologyZone := []
  deriving DecidableEq

structure ImageStateSummary where
  size : ℤ
  numNodes : ℕ
  deriving DecidableEq

def nodeOfThisScheduler (scheduler : Option String) (schedulerName : String) : Bool :=
  scheduler == some schedulerName

structure PodInfoMaintainer where
  bePodsMayBePreempted : GoMap String Pod
  gtPodsMayBePreempted : GoMap String Pod
  neverBePreempted : GoMap String Pod
  podsWithAffinity : HashSlice String Pod
  podsWithRequiredAntiAffinity : HashSlice String Pod

namespace PodInfoMaintainer

def new : PodInfoMaintainer := ⟨∅, ∅, ∅, .new, .new⟩

def len (m : PodInfoMaintainer) : ℕ :=
  m.bePodsMayBePreempted.len + m.gtPodsMayBePreempted.len + m.neverBePreempted.len

/-- Pods that fail a filter are never preempted. -/
def passesPodFilters (p : Pod) : Bool :=
  p.podResourceType.isSome && p.boundPod && !p.isReservationPlaceholderPod

def addPodInfo (m : PodInfoMaintainer) (p : Pod) : PodInfoMaintainer :=
  let m := if p.podsWithAffinity then
    { m with podsWithAffinity := m.podsWithAffinity.add Pod.uid p } else m
  let m := if p.podsWithRequiredAntiAffinity then
    { m with podsWithRequiredAntiAffinity := m.podsWithRequiredAntiAffinity.add Pod.uid p } else m
  if !passesPodFilters p then
    { m with neverBePreempted := m.neverBePreempted.insert p.uid p }
  else if p.podResourceType = some .guaranteed then
    { m with gtPodsMayBePreempted := m.gtPodsMayBePreempted.insert p.uid p }
  else { m with bePodsMayBePreempted := m.bePodsMayBePreempted.insert p.uid p }

def removePodInfo (m : PodInfoMaintainer) (p : Pod) : PodInfoMaintainer :=
  let m := if p.podsWithAffinity then
    { m with podsWithAffinity := m.podsWithAffinity.del Pod.uid p } else m
  let m := if p.podsWithRequiredAntiAffinity then
    { m with podsWithRequiredAntiAffinity := m.podsWithRequiredAntiAffinity.del Pod.uid p } else m
  if p.uid ∈ m.neverBePreempted then
    { m with neverBePreempted := m.neverBePreempted.erase p.uid }
  else if p.podResourceType = some .guaranteed then
    { m with gtPodsMayBePreempted := m.gtPodsMayBePreempted.erase p.uid }
  else { m with bePodsMayBePreempted := m.bePodsMayBePreempted.erase p.uid }

def getPodInfo (m : PodInfoMaintainer) (key : String) : Option Pod :=
  match m.neverBePreempted.lookup key with
  | some p => some p
  | none =>
    match m.gtPodsMayBePreempted.lookup key with
    | some p => some p
    | none => m.bePodsMayBePreempted.lookup key

end PodInfoMaintainer

structure NodeObjects where
  node : Option Node
  nmNode : Option NMNode
  cnr : Option CustomNodeResource
  deriving DecidableEq

namespace NodeObjects

def empty : NodeObjects := ⟨none, none, none⟩

def withNode (o : NodeObjects) (node : Option Node) : NodeObjects := { o with node := node }

def withNMNode (o : NodeObjects) (nmNode : Option NMNode) : NodeObjects :=
  { o with nmNode := nmNode }

def withCNR (o : NodeObjects) (cnr : Option CustomNodeResource) : NodeObjects :=
  { o with cnr := cnr }

end NodeObjects

structure NodeInfo where
  node : Option Node
  nmNode : Option NMNode
  cnr : Option CustomNodeResource
  nodeInSchedulerPartition : Bool
  nmNodeInSchedulerPartition : Bool
  podInfoMaintainer : PodInfoMaintainer
  imageStates : GoMap String ImageStateSummary
  generation : ℤ

instance : StoredObj NodeInfo where
  getGeneration n := n.generation
  setGeneration g n := { n with generation := g }
  getGeneration_setGeneration _ _ := rfl

variable (n : NodeInfo)

namespace NodeInfo

def new : NodeInfo := ⟨none, none, none, false, false, .new, ∅, 0⟩

def objectIsNil : Bool := n.nmNode.isNone && n.node.isNone

def getNodeName : Option NodeName :=
  match n.node with
  | some node => some node.name
  | none => n.nmNode.map NMNode.name

def objects : NodeObjects := ⟨n.node, n.nmNode, n.cnr⟩

def numPods : ℕ := n.podInfoMaintainer.len

def setNode (node : Node) : NodeInfo := { n with node := some node }

def setNMNode (nmNode : NMNode) : NodeInfo := { n with nmNode := some nmNode }

def setCNR (cnr : CustomNodeResource) : NodeInfo := { n with cnr := some cnr }

def removeNode : NodeInfo := { n with node := none }

def removeNMNode : NodeInfo := { n with nmNode := none }

def removeCNR : NodeInfo := { n with cnr := none }

def setNodeInSchedulerPartition (flag : Bool) : NodeInfo :=
  { n with nodeInSchedulerPartition := flag }

def setNMNodeInSchedulerPartition (flag : Bool) : NodeInfo :=
  { n with nmNodeInSchedulerPartition := flag }

def setNodePartition (flag : Bool) : NodeInfo :=
  { n with nodeInSchedulerPartition := flag, nmNodeInSchedulerPartition := flag }

def addPod (pod : Pod) : NodeInfo :=
  { n with podInfoMaintainer := n.podInfoMaintainer.addPodInfo pod }

/-- Remove the stored pod of the same UID; on an error nothing changes. -/
def removePod (pod : Pod) : Except String NodeInfo :=
  match pod.getPodKey with
  | .error e => .error e
  | .ok k =>
    match n.podInfoMaintainer.getPodInfo k with
    | some p => .ok { n with podInfoMaintainer := n.podInfoMaintainer.removePodInfo p }
    | none =>
      .error ("no corresponding pod " ++ pod.name ++ " in pods of node " ++
        ((n.getNodeName.map NodeName.val).getD ""))

/-- A copy shares nothing that is written later. -/
def clone : NodeInfo where
  node := n.node
  nmNode := n.nmNode
  cnr := n.cnr
  nodeInSchedulerPartition := n.nodeInSchedulerPartition
  nmNodeInSchedulerPartition := n.nmNodeInSchedulerPartition
  podInfoMaintainer := n.podInfoMaintainer
  imageStates := n.imageStates
  generation := n.generation

/-- Either object's flag puts the node into the scheduler's partition. -/
def inPartition : Bool :=
  n.nodeInSchedulerPartition || n.nmNodeInSchedulerPartition

def nodeInfoBelongToSubCluster (matchedSubCluster : String) : Bool :=
  matchedSubCluster == "" ||
    n.node.any (fun node => node.subCluster == matchedSubCluster) ||
    n.nmNode.any (fun nmNode => nmNode.subCluster == matchedSubCluster)

/-- What pod operations never change: the objects and the partition flags. -/
structure SameObjects (n m : NodeInfo) : Prop where
  node : m.node = n.node
  nmNode : m.nmNode = n.nmNode
  inPartition : m.inPartition = n.inPartition

theorem SameObjects.refl : SameObjects n n := ⟨rfl, rfl, rfl⟩

theorem SameObjects.trans {n m l : NodeInfo} (h : SameObjects n m) (h' : SameObjects m l) :
    SameObjects n l :=
  ⟨h'.node.trans h.node, h'.nmNode.trans h.nmNode, h'.inPartition.trans h.inPartition⟩

variable {n m : NodeInfo}

theorem SameObjects.getNodeName (h : SameObjects n m) : m.getNodeName = n.getNodeName := by
  unfold NodeInfo.getNodeName
  rw [h.node, h.nmNode]

theorem SameObjects.objectIsNil (h : SameObjects n m) : m.objectIsNil = n.objectIsNil := by
  unfold NodeInfo.objectIsNil
  rw [h.node, h.nmNode]

theorem sameObjects_addPod (n : NodeInfo) (pod : Pod) : SameObjects n (n.addPod pod) :=
  ⟨rfl, rfl, rfl⟩

theorem sameObjects_removePod {pod : Pod} (h : n.removePod pod = .ok m) : SameObjects n m := by
  unfold removePod at h
  split at h
  · cases h
  · split at h
    · cases h
      exact ⟨rfl, rfl, rfl⟩
    · cases h

theorem objectIsNil_iff (n : NodeInfo) : n.objectIsNil ↔ n.getNodeName = none := by
  unfold objectIsNil getNodeName
  cases n.node <;> cases n.nmNode <;> simp

/-- The objects of a node info carry the name it is stored under. -/
structure Named (k : NodeName) (n : NodeInfo) : Prop where
  node : ∀ x, n.node = some x → x.name = k
  nmNode : ∀ x, n.nmNode = some x → x.name = k

theorem named_new (k : NodeName) : Named k new := by
  constructor <;> intro x hx <;> cases hx

theorem SameObjects.named {k : NodeName} (h : SameObjects n m) (hn : Named k n) : Named k m := by
  constructor
  · intro x hx
    rw [h.node] at hx
    exact hn.node x hx
  · intro x hx
    rw [h.nmNode] at hx
    exact hn.nmNode x hx

theorem Named.getNodeName {k : NodeName} {n : NodeInfo} (h : Named k n)
    (hnil : n.objectIsNil = false) : n.getNodeName = some k := by
  cases hnode : n.node with
  | some x => simp [NodeInfo.getNodeName, hnode, h.node x hnode]
  | none =>
    cases hnm : n.nmNode with
    | some x => simp [NodeInfo.getNodeName, hnode, hnm, h.nmNode x hnm]
    | none => simp [NodeInfo.objectIsNil, hnode, hnm] at hnil

theorem Named.eq_of_getNodeName {k a : NodeName} {n : NodeInfo} (h : Named k n)
    (ha : n.getNodeName = some a) : a = k := by
  have hnil : n.objectIsNil = false := by
    rw [Bool.eq_false_iff, ne_eq, objectIsNil_iff, ha]
    simp
  exact Option.some.inj (ha.symm.trans (h.getNodeName hnil))

end NodeInfo

end GodelScheduler
