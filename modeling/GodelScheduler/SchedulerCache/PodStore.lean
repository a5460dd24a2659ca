import GodelScheduler.SchedulerCache.NodeStore

/-!
# The pod store, and the stores of the cache together

The pod store keeps the state of each cached pod by UID and the set of assumed
pods. The cache calls its stores one after the other, the node store before the
pod store, and goes on after a store's error. Each store decides for itself
whether the pod it is given concerns it.
-/

namespace GodelScheduler.SchedulerCache

open Library GenerationStore

structure CachePodState where
  pod : Pod
  bindingFinished : Bool := false
  deadline : Option ℤ := none
  deriving DecidableEq

structure PodStore where
  assumedPods : GoSet String
  podStates : GoMap String CachePodState
  deriving DecidableEq

/-- The filter of the pod events of both stores. -/
def assumedOrBoundPod (handler : Handler) (pod : Pod) : Bool :=
  pod.boundPod || pod.assumedPodOfGodel handler.schedulerType

variable (s : PodStore) (handler : Handler)

namespace PodStore

abbrev Result := PodStore × Except String Unit

def new : PodStore := ⟨∅, ∅⟩

/-- The state of a pod, and whether it is assumed. -/
def getPodState (key : String) : Option CachePodState × Bool :=
  match s.podStates.lookup key with
  | none => (none, false)
  | some podState => (some podState, decide (key ∈ s.assumedPods))

def podOp (pod : Pod) (isAdd : Bool) : Result :=
  match pod.getPodKey with
  | .error e => (s, .error e)
  | .ok key =>
    if isAdd then
      if key ∈ s.podStates then (s, .error s!"pod {key} was already in added state")
      else ({ s with podStates := s.podStates.insert key { pod := pod } }, .ok ())
    else if key ∈ s.podStates then
      ({ podStates := s.podStates.erase key, assumedPods := s.assumedPods.erase key }, .ok ())
    else
      (s, .error s!"pod {key} is not found in scheduler cache, so cannot be removed from it")

def addPod (pod : Pod) : Result :=
  if !pod.boundPod && !pod.assumedPodOfGodel handler.schedulerType then (s, .ok ())
  else s.podOp pod true

def deletePod (pod : Pod) : Result :=
  if !pod.boundPod && !pod.assumedPodOfGodel handler.schedulerType then (s, .ok ())
  else s.podOp pod false

def updatePod (oldPod newPod : Pod) : Result :=
  match oldPod.getPodKey with
  | .error e => (s, .error e)
  | .ok key =>
    match (s.getPodState key).1 with
    | none => s.addPod handler newPod
    | some podState =>
      match s.deletePod handler podState.pod with
      | (s, .error e) => (s, .error e)
      | (s, .ok _) => s.addPod handler newPod

def assumePod (podInfo : CachePodInfo) : Result :=
  match podInfo.pod.getPodKey with
  | .error e => (s, .error e)
  | .ok key =>
    if key ∈ s.podStates then (s, .error s!"pod {key} is in the cache, so can't be assumed")
    else
      ({ podStates := s.podStates.insert key { pod := podInfo.pod }
         assumedPods := s.assumedPods.insert key () }, .ok ())

/-- The process exits if the pod is forgotten on another node than it is stored on. -/
def forgetPod (podInfo : CachePodInfo) : Result :=
  match podInfo.pod.getPodKey with
  | .error e => (s, .error e)
  | .ok key =>
    match s.podStates.lookup key with
    | none => (s, .ok ())
    | some currState =>
      if currState.pod.getNodeNameFromPod ≠ podInfo.pod.getNodeNameFromPod then
        (s, .error "Unexpected arguments from forget function")
      else if key ∈ s.assumedPods then
        ({ podStates := s.podStates.erase key, assumedPods := s.assumedPods.erase key }, .ok ())
      else
        (s, .error (s!"pod {podInfo.pod.ns}/{podInfo.pod.name} wasn't assumed " ++
          "so cannot be forgotten"))

def finishReserving (pod : Pod) (deadline : ℤ) : Result :=
  match pod.getPodKey with
  | .error e => (s, .error e)
  | .ok key =>
    match s.podStates.lookup key with
    | none => (s, .ok ())
    | some currState =>
      if key ∈ s.assumedPods then
        let finished := { currState with bindingFinished := true, deadline := some deadline }
        ({ s with podStates := s.podStates.insert key finished }, .ok ())
      else (s, .ok ())

end PodStore

/-- The node store and the pod store of the cache. -/
structure CommonStores where
  nodeStore : NodeStore
  podStore : PodStore

namespace CommonStores

abbrev Result := CommonStores × List String

def new : CommonStores := ⟨.new, .new⟩

/-- `Range`: every store is called, and the errors are collected. -/
def range (nodeResult : NodeStore.Result) (podResult : PodStore.Result) : Result :=
  (⟨nodeResult.1, podResult.1⟩,
    (match nodeResult.2 with | .error e => [e] | .ok _ => []) ++
      (match podResult.2 with | .error e => [e] | .ok _ => []))

section

variable (handler : Handler) (c : CommonStores)

def addPod (pod : Pod) : Result :=
  range (c.nodeStore.addPod handler pod) (c.podStore.addPod handler pod)

/-- `DeletePod` of the stores' switch, which the delete handler of the scheduler calls. -/
def deletePod (pod : Pod) : Result :=
  range (c.nodeStore.deletePod handler pod) (c.podStore.deletePod handler pod)

/-- `UpdatePod` of the cache. The node store asks the pod store for the cached pod. -/
def updatePod (oldPod newPod : Pod) : Result :=
  let update : Result :=
    range
      (c.nodeStore.updatePod handler
        ((c.podStore.getPodState oldPod.uid).1.map CachePodState.pod) oldPod newPod)
      (c.podStore.updatePod handler oldPod newPod)
  if !assumedOrBoundPod handler oldPod && !assumedOrBoundPod handler newPod then
    match oldPod.getPodKey with
    | .error e => (c, [e])
    | .ok key => if (c.podStore.getPodState key).2 then (c, []) else update
  else update

/-- `RemovePod` of the cache: the cached pod is deleted, if there is one. -/
def removePod (pod : Pod) : Result :=
  match pod.getPodKey with
  | .error e => (c, [e])
  | .ok key =>
    match (c.podStore.getPodState key).1 with
    | some podState => c.deletePod handler podState.pod
    | none => c.deletePod handler pod

def assumePod (podInfo : CachePodInfo) : Result :=
  match podInfo.pod.getPodKey with
  | .error e => (c, [e])
  | .ok key =>
    match (c.podStore.getPodState key).1 with
    | some _ => (c, [s!"pod {key} was already in scheduler cache"])
    | none => range (c.nodeStore.assumePod podInfo) (c.podStore.assumePod podInfo)

def forgetPod (podInfo : CachePodInfo) : Result :=
  match podInfo.pod.getPodKey with
  | .error e => (c, [e])
  | .ok key =>
    if !(c.podStore.getPodState key).2 then (c, [])
    else range (c.nodeStore.forgetPod podInfo) (c.podStore.forgetPod podInfo)

/-- One turn of the loop over the assumed pods. A key deleted in the loop is not visited. -/
def expirePod (now : ℤ) (c : CommonStores) (key : String) : CommonStores :=
  if key ∈ c.podStore.assumedPods then
    match c.podStore.podStates.lookup key with
    | none => c
    | some podState =>
      if podState.bindingFinished && decide (∃ deadline ∈ podState.deadline, deadline < now) then
        (c.deletePod handler podState.pod).1
      else c
  else c

def cleanupExpiredAssumedPods (o : RangeOrder String) (now : ℤ) : CommonStores :=
  (o.list c.podStore.assumedPods.keys).foldl (expirePod handler now) c

end

end CommonStores

/-- One call of the cache. -/
inductive StoresOp
  | nodeEvent (op : CacheOp) (isNodeEvent : op.isNodeEvent = true)
  | addPod (pod : Pod)
  | updatePod (oldPod newPod : Pod)
  | deletePod (pod : Pod)
  | removePod (pod : Pod)
  | assumePod (podInfo : CachePodInfo)
  | forgetPod (podInfo : CachePodInfo)
  | finishReserving (pod : Pod) (deadline : ℤ)
  | cleanupExpiredAssumedPods (o : RangeOrder String) (now : ℤ)

def CommonStores.step (c : CommonStores) : StoresOp → CommonStores
  | .nodeEvent op _ => { c with nodeStore := (op.apply handler c.nodeStore).1 }
  | .addPod pod => (c.addPod handler pod).1
  | .updatePod oldPod newPod => (c.updatePod handler oldPod newPod).1
  | .deletePod pod => (c.deletePod handler pod).1
  | .removePod pod => (c.removePod handler pod).1
  | .assumePod podInfo => (c.assumePod podInfo).1
  | .forgetPod podInfo => (c.forgetPod podInfo).1
  | .finishReserving pod deadline =>
    { c with podStore := (c.podStore.finishReserving pod deadline).1 }
  | .cleanupExpiredAssumedPods o now => c.cleanupExpiredAssumedPods handler o now

end GodelScheduler.SchedulerCache
