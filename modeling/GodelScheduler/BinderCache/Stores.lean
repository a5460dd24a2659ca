import GodelScheduler.SchedulerCache.Agreement

/-!
# The stores of the binder cache

The binder has a cache of its own with stores like those of the scheduler, but its
stores look at bound pods only: an assumed pod is given the node name it is assumed
on before it gets here. Beside the node infos and the pod states there are the
markers of the pods that are to be deleted for a preemptor.

Each call goes to the stores in turn, the markers first and the pod states last, so
that the other stores still find the cached pod, and it goes on after an error of a
store. A call that ends the process because the cache is corrupted gives `none`.
-/

namespace GodelScheduler.BinderCache

open Library GenerationStore SchedulerCache

structure MarkInfo where
  preemptorKey : String
  markerExpirationTime : ℤ
  deriving DecidableEq

abbrev Markers := GoMap String MarkInfo

namespace Markers

abbrev Result := Markers × Except String Unit

/-- `cached` is the state the pod store has for the UID of the old pod. -/
def updatePod (dms : Markers) (cached : Option CachePodState) (oldPod newPod : Pod) : Result :=
  match oldPod.getPodKey with
  | .error e => (dms, .error e)
  | .ok _ =>
    if cached.isSome && !newPod.boundPod then
      match newPod.getPodKey with
      | .error e => (dms, .error e)
      | .ok key => (dms.erase key, .ok ())
    else (dms, .ok ())

def deletePod (dms : Markers) (pod : Pod) : Result :=
  if !pod.boundPod then (dms, .ok ())
  else
    match pod.getPodKey with
    | .error e => (dms, .error e)
    | .ok key => (dms.erase key, .ok ())

end Markers

namespace NodeStore

def addPod (s : NodeStore) (pod : Pod) : NodeStore.Result :=
  if !pod.boundPod then (s, .ok ())
  else
    match pod.getNodeNameFromPod with
    | none => (s, .ok ())
    | some nodeName => (s.getOrCreateNode nodeName fun n => n.addPod pod, .ok ())

variable (s : NodeStore)

/-- Unlike the scheduler's store, this one keeps a residual node info with a CNR. -/
def dropOrSet (nodeName : NodeName) (nodeInfo : NodeInfo) : NodeStore :=
  if nodeInfo.numPods = 0 ∧ nodeInfo.objectIsNil ∧ nodeInfo.cnr = none then
    { s with deleted := s.deleted.erase nodeName, store := s.store.delete nodeName }
  else s.set nodeName nodeInfo

def deletePod (pod : Pod) : NodeStore.Result :=
  if !pod.boundPod then (s, .ok ())
  else
    match pod.getNodeNameFromPod with
    | none => (s, .ok ())
    | some nodeName =>
      match s.get nodeName with
      | none => (s, .ok ())
      | some nodeInfo =>
        match nodeInfo.removePod pod with
        | .error e => (s, .error e)
        | .ok nodeInfo => (dropOrSet s nodeName nodeInfo, .ok ())

def updatePod (cached : Option CachePodState) (oldPod newPod : Pod) : NodeStore.Result :=
  match oldPod.getPodKey with
  | .error e => (s, .error e)
  | .ok _ =>
    match cached with
    | none => addPod s newPod
    | some podState =>
      match deletePod s podState.pod with
      | (s, .error e) => (s, .error e)
      | (s, .ok _) => addPod s newPod

def assumePod (pod : Pod) : NodeStore.Result :=
  match pod.getNodeNameFromPod with
  | none => (s, .ok ())
  | some nodeName => (s.getOrCreateNode nodeName fun n => n.addPod pod, .ok ())

def forgetPod (pod : Pod) : NodeStore.Result :=
  match pod.getNodeNameFromPod with
  | none => (s, .ok ())
  | some nodeName =>
    match s.get nodeName with
    | none => (s, .ok ())
    | some nodeInfo =>
      match nodeInfo.removePod pod with
      | .error e => (s, .error e)
      | .ok nodeInfo => (s.dropOrSet nodeName nodeInfo, .ok ())

end NodeStore

variable (s : PodStore) (pod : Pod)

namespace PodStore

def podOp (isAdd : Bool) : PodStore.Result :=
  match pod.getPodKey with
  | .error e => (s, .error e)
  | .ok key =>
    if isAdd then
      if key ∈ s.podStates then (s, .error s!"pod {key} was already in added state")
      else ({ s with podStates := s.podStates.insert key { pod := pod } }, .ok ())
    else if key ∈ s.podStates then
      ({ podStates := s.podStates.erase key, assumedPods := s.assumedPods.erase key }, .ok ())
    else (s, .error s!"pod {key} is not found in binder cache, so cannot be removed from it")

def addPod : PodStore.Result :=
  if !pod.boundPod then (s, .ok ()) else podOp s pod true

def deletePod : PodStore.Result :=
  if !pod.boundPod then (s, .ok ()) else podOp s pod false

def updatePod (oldPod newPod : Pod) : PodStore.Result :=
  match oldPod.getPodKey with
  | .error e => (s, .error e)
  | .ok key =>
    match (s.getPodState key).1 with
    | none => addPod s newPod
    | some podState =>
      match deletePod s podState.pod with
      | (s, .error e) => (s, .error e)
      | (s, .ok _) => addPod s newPod

/-- The deadline is 900 seconds from now. -/
def assumePod (deadline : ℤ) : PodStore.Result :=
  match pod.getPodKey with
  | .error e => (s, .error e)
  | .ok key =>
    if key ∈ s.podStates then (s, .error s!"pod {key} is in the cache, so can't be assumed")
    else
      ({ podStates := s.podStates.insert key { pod := pod, deadline := some deadline }
         assumedPods := s.assumedPods.insert key () }, .ok ())

/-- The process ends if the pod is forgotten on another node than it is stored on. -/
def forgetPod : Option PodStore.Result :=
  match pod.getPodKey with
  | .error e => some (s, .error e)
  | .ok key =>
    match s.podStates.lookup key with
    | none => some (s, .ok ())
    | some currState =>
      if currState.pod.getNodeNameFromPod ≠ pod.getNodeNameFromPod then none
      else if key ∈ s.assumedPods then
        some ({ podStates := s.podStates.erase key
                assumedPods := s.assumedPods.erase key }, .ok ())
      else
        some (s, .error s!"pod {pod.ns}/{pod.name} wasn't assumed so cannot be forgotten")

end PodStore

/-- The pod with the micro topology assigned to it on its node, if there is one. -/
def withMicroTopology : Option MicroTopology → Pod
  | some topo => { pod with microTopology := some topo }
  | none => pod

structure Stores where
  markers : Markers := ∅
  nodeStore : NodeStore := .new
  podStore : PodStore := .new

namespace Stores

abbrev Result := Stores × List String

/-- `Range`: every store is called, and the errors are collected. -/
def range (markers : Markers.Result) (node : NodeStore.Result) (pod : PodStore.Result) : Result :=
  (⟨markers.1, node.1, pod.1⟩, [markers.2, node.2, pod.2].filterMap fun
      | .error e => some e
      | .ok _ => none)

section

variable (c : Stores)

def addPod (pod : Pod) : Result :=
  range (c.markers, .ok ()) (NodeStore.addPod c.nodeStore pod) (PodStore.addPod c.podStore pod)

def updatePod (oldPod newPod : Pod) : Result :=
  let cached := (c.podStore.getPodState oldPod.uid).1
  let update := range (c.markers.updatePod cached oldPod newPod)
    (NodeStore.updatePod c.nodeStore cached oldPod newPod)
    (PodStore.updatePod c.podStore oldPod newPod)
  -- a pod that has been assumed is not updated before it is bound
  if !oldPod.boundPod && !newPod.boundPod then
    match oldPod.getPodKey with
    | .error e => (c, [e])
    | .ok key => if (c.podStore.getPodState key).2 then (c, []) else update
  else update

def deleteFromStores (pod : Pod) : Result :=
  range (c.markers.deletePod pod) (NodeStore.deletePod c.nodeStore pod)
    (PodStore.deletePod c.podStore pod)

/-- The cached pod is deleted, if there is one, and not the object of the event. -/
def deletePod (pod : Pod) : Result :=
  match pod.getPodKey with
  | .error e => (c, [e])
  | .ok key =>
    match (c.podStore.getPodState key).1 with
    | some podState => c.deleteFromStores podState.pod
    | none => c.deleteFromStores pod

def assumePod (pod : Pod) (topo : Option MicroTopology) (deadline : ℤ) : Result :=
  match pod.getPodKey with
  | .error e => (c, [e])
  | .ok key =>
    match (c.podStore.getPodState key).1 with
    | some _ => (c, [s!"pod {key} was already in binder cache"])
    | none =>
      let pod := withMicroTopology pod topo
      range (c.markers, .ok ()) (NodeStore.assumePod c.nodeStore pod)
        (PodStore.assumePod c.podStore pod deadline)

def forgetPod (pod : Pod) : Option Result :=
  match pod.getPodKey with
  | .error e => some (c, [e])
  | .ok key =>
    if !(c.podStore.getPodState key).2 then some (c, [])
    else
      (PodStore.forgetPod c.podStore pod).map
        (range (c.markers, .ok ()) (NodeStore.forgetPod c.nodeStore pod))

/-- The process ends if the pod is cached with another node name. -/
def markPodToDelete (pod preemptor : Pod) (expiration : ℤ) : Option (Stores × Except String Unit) :=
  match pod.getPodKey, preemptor.getPodKey with
  | .error e, _ => some (c, .error e)
  | .ok _, .error e => some (c, .error e)
  | .ok key, .ok pKey =>
    match c.podStore.getPodState key with
    | (some podState, false) =>
      if podState.pod.nodeName ≠ pod.nodeName then none
      else some ({ c with markers := c.markers.insert key ⟨pKey, expiration⟩ }, .ok ())
    | _ =>
      some (c, .error s!"pod {key} is not found in binder cache, so cannot be marked to delete")

def removeDeletePodMarkerByKey (podKey preemptorKey : String) : Stores × Except String Unit :=
  match c.markers.lookup podKey with
  | none => (c, .ok ())
  | some info =>
    if info.preemptorKey ≠ preemptorKey then
      (c, .error s!"Pod Marker isn't set by this preemptor {preemptorKey}")
    else ({ c with markers := c.markers.erase podKey }, .ok ())

def removeDeletePodMarker (pod preemptor : Pod) : Stores × Except String Unit :=
  match pod.getPodKey, preemptor.getPodKey with
  | .error e, _ => (c, .error e)
  | .ok _, .error e => (c, .error e)
  | .ok podKey, .ok preemptorKey => c.removeDeletePodMarkerByKey podKey preemptorKey

end

end Stores

inductive CacheOp
  | addPod (pod : Pod)
  | updatePod (oldPod newPod : Pod)
  | assumePod (pod : Pod) (topo : Option MicroTopology) (deadline : ℤ)
  | forgetPod (pod : Pod)
  | markPodToDelete (pod preemptor : Pod) (expiration : ℤ)
  | removeDeletePodMarker (pod preemptor : Pod)
  | removeDeletePodMarkerByKey (podKey preemptorKey : String)
  | deletePod (pod : Pod)

/-- The cache after a call, unless the call ends the process. -/
def Stores.step (c : Stores) : CacheOp → Option Stores
  | .addPod pod => some (c.addPod pod).1
  | .updatePod oldPod newPod => some (c.updatePod oldPod newPod).1
  | .assumePod pod topo deadline => some (c.assumePod pod topo deadline).1
  | .forgetPod pod => (c.forgetPod pod).map Prod.fst
  | .markPodToDelete pod preemptor expiration =>
    (c.markPodToDelete pod preemptor expiration).map Prod.fst
  | .removeDeletePodMarker pod preemptor => some (c.removeDeletePodMarker pod preemptor).1
  | .removeDeletePodMarkerByKey podKey preemptorKey =>
    some (c.removeDeletePodMarkerByKey podKey preemptorKey).1
  | .deletePod pod => some (c.deletePod pod).1

end GodelScheduler.BinderCache
