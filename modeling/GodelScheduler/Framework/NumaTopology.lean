import GodelScheduler.Framework.NodeInfo
import GodelScheduler.Framework.PodInfo

/-!
# The NUMA topology of a node

What each NUMA can allocate, what is still available there and which pods use it,
with two structures derived from it: per socket the NUMAs whose CPU and memory
nobody uses, and the CPU and memory left to the pods with shared cores, which run
on the NUMAs no pod has for itself. A CNR sets the status up from scratch; pods
change it one allocation at a time.

A status the source would follow a nil pointer in has no result. The maps are gone
through in the orders of `NumaOrders`, one for each loop.
-/

namespace GodelScheduler

open Library

def Pod.generatePodKey (pod : Pod) : PodKey := .key pod.ns pod.name pod.uid

def isConflictResourcesForDifferentQoS (name : ResourceName) : Bool :=
  name == "cpu" || name == "memory"

structure ResourceStatus where
  allocatable : Quantity
  available : Quantity
  users : GoSet PodKey

structure NumaStatus where
  socketId : ℤ
  resourceStatuses : GoMap ResourceName ResourceStatus

structure PodAllocation where
  /-- Whether the allocation is reported in the CNR. -/
  agent : Bool := false
  numaAllocations : GoMap ℤ ResourceList := ∅

structure NumaTopologyStatus where
  podAllocations : GoMap PodKey PodAllocation := ∅
  topology : GoMap ℤ NumaStatus := ∅
  requestsOfSharedCores : Resource := {}
  availableOfSharedCores : Resource := {}
  socketToFreeNumasOfConflictResources : GoMap ℤ (GoSet ℤ) := ∅

/-- The orders in which the maps of a NUMA topology are gone through. -/
structure NumaOrders where
  /-- What a NUMA can allocate. -/
  allocatable : ℤ → RangeOrder (Sigma fun _ : ResourceName => Quantity)
  /-- The requests of a reported allocation. -/
  reported : ℤ → PodKey → RangeOrder (Sigma fun _ : ResourceName => Quantity)
  remembered : RangeOrder PodKey
  podAllocations : RangeOrder PodKey
  numaAllocations : PodKey → RangeOrder (Sigma fun _ : ℤ => ResourceList)
  resourceStatuses : PodKey → ℤ → RangeOrder ResourceName
  /-- The requests on a NUMA of a pod that is added or removed. -/
  requests : PodKey → ℤ → RangeOrder (Sigma fun _ : ResourceName => Quantity)
  resources : ResourceOrders

def NumaOrders.forward : NumaOrders where
  allocatable _ := .forward
  reported _ _ := .forward
  remembered := .forward
  podAllocations := .forward
  numaAllocations _ := .forward
  resourceStatuses _ _ := .forward
  requests _ _ := .forward
  resources := .forward

def ResourceStatus.new : ResourceStatus := ⟨.zero, .zero, ∅⟩

def NumaStatus.isEmptyForConflictResources (numaStatus : NumaStatus) : Bool :=
  numaStatus.resourceStatuses.entries.all fun e =>
    e.2.users.len == 0 || !isConflictResourcesForDifferentQoS e.1

namespace NumaTopologyStatus

variable (gates : FeatureGates) (o : NumaOrders)

def new (requestsOfSharedCores : Resource) : NumaTopologyStatus :=
  { requestsOfSharedCores }

variable (n : NumaTopologyStatus)

def status (numaId : ℤ) (name : ResourceName) : Option ResourceStatus :=
  (n.topology.lookup numaId).bind fun numaStatus => numaStatus.resourceStatuses.lookup name

def setStatus (numaId : ℤ) (name : ResourceName) (s : ResourceStatus) : NumaTopologyStatus :=
  match n.topology.lookup numaId with
  | none => n
  | some numaStatus =>
    { n with
      topology := n.topology.insert numaId
        { numaStatus with resourceStatuses := numaStatus.resourceStatuses.insert name s } }

def freeNumas (socketId : ℤ) : GoSet ℤ :=
  (n.socketToFreeNumasOfConflictResources.lookup socketId).getD ∅

/-- A socket without free NUMAs has no entry. -/
def updateFreeNumaForConflictResources (isAdd : Bool) (numaId socketId : ℤ) : NumaTopologyStatus :=
  if isAdd then
    { n with
      socketToFreeNumasOfConflictResources :=
        n.socketToFreeNumasOfConflictResources.insert socketId
          ((n.freeNumas socketId).insert numaId ()) }
  else
    let numas : GoSet ℤ := (n.freeNumas socketId).erase numaId
    { n with
      socketToFreeNumasOfConflictResources :=
        if numas.len = 0 then n.socketToFreeNumasOfConflictResources.erase socketId
        else n.socketToFreeNumasOfConflictResources.insert socketId numas }

def updateAvailableOfSharedCores (isAdd needUpdate : Bool)
    (name : ResourceName) (val : Quantity) : NumaTopologyStatus :=
  if needUpdate && isConflictResourcesForDifferentQoS name then
    { n with
      availableOfSharedCores :=
        if isAdd then n.availableOfSharedCores.addQuantity gates ⟨name, val⟩
        else n.availableOfSharedCores.subQuantity gates ⟨name, val⟩ }
  else n

variable (podKey : PodKey) (numaId : ℤ)

def useResource (name : ResourceName)
    (request : Quantity) (s : ResourceStatus) : NumaTopologyStatus :=
  let s' := { s with available := s.available.sub request, users := s.users.insert podKey () }
  (n.setStatus numaId name s').updateAvailableOfSharedCores gates false (s.users.len == 0) name
    s.allocatable

def freeResource (name : ResourceName)
    (request : Quantity) (s : ResourceStatus) : NumaTopologyStatus :=
  let users : GoSet PodKey := s.users.erase podKey
  let s' := { s with available := s.available.add request, users := users }
  (n.setStatus numaId name s').updateAvailableOfSharedCores gates true (users.len == 0) name
    s.allocatable

section

/-- One resource of a pod that is added; the flag says whether the NUMA stays free. -/
def addRequest (s : NumaTopologyStatus × Bool)
    (e : Sigma fun _ : ResourceName => Quantity) : Option (NumaTopologyStatus × Bool) :=
  match s.1.status numaId e.1 with
  | none => none
  | some resourceStatus =>
    if podKey ∈ resourceStatus.users then some s
    else some (s.1.useResource gates podKey numaId e.1 e.2 resourceStatus,
      s.2 && !isConflictResourcesForDifferentQoS e.1)

def addNumaAllocation (n : NumaTopologyStatus)
    (e : Sigma fun _ : ℤ => ResourceList) : Option NumaTopologyStatus :=
  match n.topology.lookup e.1 with
  | none => some n
  | some numaStatus => do
    let (n, isFree) ← ((o.requests podKey e.1).list e.2.entries).foldlM
      (addRequest gates podKey e.1) (n, true)
    pure (if isFree then n
      else n.updateFreeNumaForConflictResources false e.1 numaStatus.socketId)

def addAllocation (n : NumaTopologyStatus) : Option NumaTopologyStatus :=
  match n.podAllocations.lookup podKey with
  | none => some n
  | some allocation =>
    ((o.numaAllocations podKey).list allocation.numaAllocations.entries).foldlM
      (addNumaAllocation gates o podKey) n

def agent (n : NumaTopologyStatus) (podKey : PodKey) : Bool :=
  (n.podAllocations.lookup podKey).any PodAllocation.agent

def addRequestsOfSharedCores (podInfo : PodInfo) : NumaTopologyStatus :=
  if podInfo.isSharedCores && podInfo.pod.podResourceType == some .guaranteed then
    { n with
      requestsOfSharedCores := n.requestsOfSharedCores.addResource gates o.resources podInfo.res }
  else n

def recordMicroTopology (numaAllocations : GoMap ℤ ResourceList) : NumaTopologyStatus :=
  if numaAllocations.len > 0 then
    { n with podAllocations := n.podAllocations.insert podKey { numaAllocations } }
  else n

def addPod (podInfo : PodInfo) : Option NumaTopologyStatus :=
  let n := n.addRequestsOfSharedCores gates o podInfo
  let podKey := podInfo.pod.generatePodKey
  -- what the agent reports is not replaced by the annotation
  match podInfo.pod.microTopology, n.agent podKey with
  | some .unparsable, false => some n
  | some (.parsed numaAllocations), false =>
    (n.recordMicroTopology podKey numaAllocations).addAllocation gates o podKey
  | _, _ => n.addAllocation gates o podKey

end

section

def removeRequest (s : NumaTopologyStatus × Bool)
    (e : Sigma fun _ : ResourceName => Quantity) : Option (NumaTopologyStatus × Bool) :=
  match s.1.status numaId e.1 with
  | none => none
  | some resourceStatus =>
    if podKey ∉ resourceStatus.users then some s
    else
      let isEmpty := GoMap.len (resourceStatus.users.erase podKey) == 0
      some (s.1.freeResource gates podKey numaId e.1 e.2 resourceStatus,
        s.2 && !(isConflictResourcesForDifferentQoS e.1 && !isEmpty))

/-- Whether no pod uses CPU or memory of the NUMA. -/
def isNumaEmptyForConflictResources : Bool :=
  (n.topology.lookup numaId).all NumaStatus.isEmptyForConflictResources

def removeNumaAllocation (n : NumaTopologyStatus)
    (e : Sigma fun _ : ℤ => ResourceList) : Option NumaTopologyStatus :=
  match n.topology.lookup e.1 with
  | none => some n
  | some numaStatus => do
    let (n, isFree) ← ((o.requests podKey e.1).list e.2.entries).foldlM
      (removeRequest gates podKey e.1) (n, true)
    pure (if isFree && n.isNumaEmptyForConflictResources e.1
      then n.updateFreeNumaForConflictResources true e.1 numaStatus.socketId else n)

def removeAllocation (n : NumaTopologyStatus) : Option NumaTopologyStatus :=
  match n.podAllocations.lookup podKey with
  | none => some n
  | some allocation =>
    ((o.numaAllocations podKey).list allocation.numaAllocations.entries).foldlM
      (removeNumaAllocation gates o podKey) n

def subRequestsOfSharedCores (podInfo : PodInfo) : NumaTopologyStatus :=
  if podInfo.isSharedCores && podInfo.pod.podResourceType == some .guaranteed then
    { n with
      requestsOfSharedCores := n.requestsOfSharedCores.subResource gates o.resources podInfo.res }
  else n

def removePod (podInfo : PodInfo) (preempt notChangedNumaTopology : Bool) :
    Option NumaTopologyStatus :=
  let n := n.subRequestsOfSharedCores gates o podInfo
  let podKey := podInfo.pod.generatePodKey
  if !preempt && notChangedNumaTopology then some n
  else do
    let n ← n.removeAllocation gates o podKey
    -- a preempted pod may come back to its allocation
    pure (if !preempt && !notChangedNumaTopology
      then { n with podAllocations := n.podAllocations.erase podKey } else n)

end

def updateNonNativeResource (podInfo : PodInfo) (isAdd preempt : Bool) :
    Option NumaTopologyStatus :=
  if isAdd then n.addPod gates o podInfo
  else
    let notChangedNumaTopology :=
      match n.podAllocations.lookup podInfo.pod.generatePodKey with
      | none => true
      | some allocation => allocation.agent
    n.removePod gates o podInfo preempt notChangedNumaTopology

def removeCNR : NumaTopologyStatus := new n.requestsOfSharedCores

section

def setAllocatable (s : NumaStatus × NumaTopologyStatus)
    (e : Sigma fun _ : ResourceName => Quantity) : NumaStatus × NumaTopologyStatus :=
  let resourceStatus := (s.1.resourceStatuses.lookup e.1).getD .new
  ({ s.1 with
      resourceStatuses := s.1.resourceStatuses.insert e.1
        { resourceStatus with allocatable := e.2, available := e.2 } },
    s.2.updateAvailableOfSharedCores gates true true e.1 e.2)

/-- The allocation of a pod on a NUMA, as far as it is recorded. -/
def numaAllocation : ResourceList :=
  (((n.podAllocations.lookup podKey).getD {}).numaAllocations.lookup numaId).getD ∅

def setNumaAllocation (list : ResourceList) : NumaTopologyStatus :=
  let allocation := (n.podAllocations.lookup podKey).getD {}
  { n with
    podAllocations := n.podAllocations.insert podKey
      { agent := true, numaAllocations := allocation.numaAllocations.insert numaId list } }

/-- A resource the NUMA does not list gets a status with nothing to allocate. -/
def recordRequest (s : NumaStatus × NumaTopologyStatus)
    (e : Sigma fun _ : ResourceName => Quantity) : NumaStatus × NumaTopologyStatus :=
  if e.2.milliValue = 0 then s
  else
    ({ s.1 with
        resourceStatuses := s.1.resourceStatuses.insert e.1
          ((s.1.resourceStatuses.lookup e.1).getD .new) },
      s.2.setNumaAllocation podKey numaId ((s.2.numaAllocation podKey numaId).insert e.1 e.2))

def recordAllocation (s : NumaStatus × NumaTopologyStatus) (allocation : Allocation) :
    NumaStatus × NumaTopologyStatus :=
  match allocation.requests with
  | none => s
  | some podRequests =>
    let podKey := allocation.consumer
    let n := s.2.setNumaAllocation podKey numaId (s.2.numaAllocation podKey numaId)
    ((o.reported numaId podKey).list podRequests.entries).foldl (recordRequest podKey numaId)
      (s.1, n)

def parseAllocatable (socketId numaId : ℤ) (allocatable : Option ResourceList)
    (s : NumaStatus × NumaTopologyStatus) : NumaStatus × NumaTopologyStatus :=
  match allocatable with
  | none => s
  | some list =>
    let s := ((o.allocatable numaId).list list.entries).foldl (setAllocatable gates) s
    (s.1, s.2.updateFreeNumaForConflictResources true numaId socketId)

/-- A NUMA zone of a socket replaces what was read under the same id before. -/
def parseNuma (zone : ℤ × TopologyChild) : NumaTopologyStatus :=
  let numaId := atoi zone.2.name
  let s := zone.2.allocations.foldl (recordAllocation o numaId)
    (parseAllocatable gates o zone.1 numaId zone.2.allocatable (⟨zone.1, ∅⟩, n))
  { s.2 with topology := s.2.topology.insert numaId s.1 }

end

end NumaTopologyStatus

/-- The NUMA zones of a CNR with the ids of their sockets. -/
def CustomNodeResource.numaZones (cnr : CustomNodeResource) : List (ℤ × TopologyChild) :=
  (cnr.topologyZone.filter fun zone => zone.type = .socket).flatMap fun zone =>
    (zone.children.filter fun child => child.type = .numa).map fun child => (atoi zone.name, child)

/-- The allocation in the annotation of a pod on the node, if there is one to take over. -/
def PodInfoMaintainer.numaAllocations (pods : PodInfoMaintainer) (podKey : PodKey) :
    Option (GoMap ℤ ResourceList) := do
  let uid ← parsePodKey podKey
  let pod ← pods.getPodInfo uid
  match pod.microTopology with
  | some (.parsed numaAllocations) =>
    if numaAllocations.len = 0 then none else some numaAllocations
  | _ => none

namespace NumaTopologyStatus

variable (gates : FeatureGates) (o : NumaOrders)

/-- What the CNR reports. -/
def parseZones (n : NumaTopologyStatus) (cnr : CustomNodeResource) : NumaTopologyStatus :=
  cnr.numaZones.foldl (parseNuma gates o) (new n.requestsOfSharedCores)

/-- Take over a remembered pod that the CNR does not report. -/
def rememberPod (pods : PodInfoMaintainer) (n : NumaTopologyStatus) (podKey : PodKey) :
    NumaTopologyStatus :=
  if podKey ∈ n.podAllocations then n
  else
    match pods.numaAllocations podKey with
    | none => n
    | some numaAllocations =>
      { n with podAllocations := n.podAllocations.insert podKey { numaAllocations } }

def settleRequest (podKey : PodKey) (numaId : ℤ) (numaAllocation : ResourceList)
    (s : NumaTopologyStatus × Bool) (name : ResourceName) : NumaTopologyStatus × Bool :=
  match s.1.status numaId name with
  | none => s
  | some resourceStatus =>
    let podRequest := (numaAllocation.lookup name).getD .zero
    if podRequest.milliValue = 0 then s
    else (s.1.useResource gates podKey numaId name podRequest resourceStatus,
      s.2 && !isConflictResourcesForDifferentQoS name)

def settleNumaAllocation (podKey : PodKey) (n : NumaTopologyStatus)
    (e : Sigma fun _ : ℤ => ResourceList) : Option NumaTopologyStatus :=
  match n.topology.lookup e.1 with
  | none => none
  | some numaStatus =>
    let s := ((o.resourceStatuses podKey e.1).list numaStatus.resourceStatuses.keys).foldl
      (settleRequest gates podKey e.1 e.2) (n, true)
    some (if s.2 then s.1
      else s.1.updateFreeNumaForConflictResources false e.1 numaStatus.socketId)

def settleAllocation (n : NumaTopologyStatus) (podKey : PodKey) : Option NumaTopologyStatus :=
  match n.podAllocations.lookup podKey with
  | none => some n
  | some allocation =>
    ((o.numaAllocations podKey).list allocation.numaAllocations.entries).foldlM
      (settleNumaAllocation gates o podKey) n

def parseNumaTopologyStatus (n : NumaTopologyStatus) (cnr : CustomNodeResource)
    (pods : PodInfoMaintainer) : Option NumaTopologyStatus :=
  let m := (o.remembered.list n.podAllocations.keys).foldl (rememberPod pods)
    (n.parseZones gates o cnr)
  (o.podAllocations.list m.podAllocations.keys).foldlM (settleAllocation gates o) m

end NumaTopologyStatus

namespace NumaExample

def numaWithCPU (name : String) (cores : ℤ) : TopologyChild :=
  { name, allocatable := some ((∅ : ResourceList).insert "cpu" ⟨cores * 1000000000⟩) }

def twoNumas : CustomNodeResource where
  name := nodeNamed ""
  topologyZone := [{ name := "0", children := [numaWithCPU "0" 4, numaWithCPU "1" 4] }]

def podOnNuma : PodInfo where
  pod :=
    { uid := "1", ns := "ns", name := "pod", microTopology := some (.parsed
      ((∅ : GoMap ℤ ResourceList).insert 0 ((∅ : ResourceList).insert "cpu" ⟨2000000000⟩))) }

end NumaExample

end GodelScheduler
