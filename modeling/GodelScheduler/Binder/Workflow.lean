import GodelScheduler.Binder.UnitInfo

/-!
# The binder's workflow for one unit

`checkAndBindUnit` takes a unit through the stages of the binder: it is
initialized, checked for preemption, topology and conflicts on its nodes, its
victims are marked and its tasks assumed, and at last the victims are deleted
and the tasks bound. After every stage a failed unit is rejected as a whole.

What the plugins, the node infos, the volume binder and the API server answer is
an argument, and so are the orders in which Go visits its maps. The nodes of a
unit are checked one after the other, in any order.
-/

namespace GodelScheduler.Binder

open Library

inductive ListerAnswer
  | found (pod : Pod)
  | notFound
  | error (err : String)

/-- A pod is found under its own namespace and name. -/
structure PodLister where
  get : String → String → ListerAnswer
  get_named : ∀ ns name pod, get ns name = .found pod → pod.ns = ns ∧ pod.name = name

def PodLister.ofPods (pods : List Pod) : PodLister where
  get ns name :=
    match pods.find? fun pod => pod.ns = ns ∧ pod.name = name with
    | some pod => .found pod
    | none => .notFound
  get_named ns name pod h := by
    split at h
    next pod' hfind =>
      cases h
      simpa using List.find?_some hfind
    next => cases h

/-- The answer of the API server to a delete call, after the last retry. -/
inductive DeleteAnswer
  | deleted (pod : Pod)
  | notFound
  | error (err : String)

/-- What becomes of a bind call: a cancelled context leaves tasks without one. -/
inductive BindAnswer
  | bound
  | failed (err : String)
  | skipped
  deriving DecidableEq

/-- The answers to everything one handling of a unit asks. -/
structure Env where
  now : ℤ
  podLister : PodLister
  deletePod : String → String → DeleteAnswer
  getFrameworkForPod : Pod → Option String
  initCycleState : Pod → Option String
  getAvailablePlaceholderPod : Pod → Option String
  checkPreemptionPhase : RunningUnitInfo → Option String
  hasNodeInfo : NodeName → Bool
  checkTopologyPhase : RunningUnitInfo → Option String
  removePod : NodeName → Pod → Option String
  checkConflictPhase : RunningUnitInfo → Option String
  /-- Whether a node is still checked after the context was cancelled. -/
  checksAfterCancel : NodeName → Bool
  assumePodVolumes : Pod → Except String Bool
  assumePodInStores : Pod → Option String
  lockPodGroupStatus : Option String
  bindPhase : Pod → BindAnswer
  podOrder : RangeOrder BindingPodInfo
  taskOrder : RangeOrder CheckResult
  nodeOrder : RangeOrder NodeName

/-- Every check passes and every bind succeeds; maps are visited as they are stored. -/
def Env.passing (podLister : PodLister) (deletePod : String → String → DeleteAnswer) : Env where
  now := 0
  podLister := podLister
  deletePod := deletePod
  getFrameworkForPod _ := none
  initCycleState _ := none
  getAvailablePlaceholderPod _ := none
  checkPreemptionPhase _ := none
  hasNodeInfo _ := true
  checkTopologyPhase _ := none
  removePod _ _ := none
  checkConflictPhase _ := none
  checksAfterCancel _ := true
  assumePodVolumes _ := .ok true
  assumePodInStores _ := none
  lockPodGroupStatus := none
  bindPhase _ := .bound
  podOrder := .forward
  taskOrder := .forward
  nodeOrder := .forward

structure BinderCache where
  podStates : GoMap String Pod
  assumedPods : Finset String
  /-- The pods marked to be deleted, with the preemptor that marked them. -/
  marks : GoMap String String
  scheduledUnits : Finset UnitKey

variable (c : BinderCache)

namespace BinderCache

def isAssumedPod (pod : Pod) : Except String Bool :=
  pod.getPodKey.map fun key => decide (key ∈ c.assumedPods)

def isPodMarkedToDelete (pod : Pod) : Except String Bool :=
  pod.getPodKey.map fun key => (c.marks.lookup key).isSome

/-- Only a pod of the cache that is not assumed can be marked. -/
def markPodToDelete (pod preemptor : Pod) : Except String BinderCache :=
  match pod.getPodKey, preemptor.getPodKey with
  | .error err, _ => .error err
  | .ok _, .error err => .error err
  | .ok key, .ok pKey =>
    if (c.podStates.lookup key).isSome ∧ key ∉ c.assumedPods
    then .ok { c with marks := c.marks.insert key pKey }
    else .error s!"pod {key} is not found in binder cache, so cannot be marked to delete"

/-- A marker set by another preemptor stays. -/
def removeDeletePodMarker (pod preemptor : Pod) : BinderCache :=
  match pod.getPodKey, preemptor.getPodKey with
  | .ok key, .ok pKey =>
    if c.marks.lookup key = some pKey then { c with marks := c.marks.erase key } else c
  | _, _ => c

def assumePod (inStores : Pod → Option String) (pod : Pod) : Except String BinderCache :=
  match pod.getPodKey with
  | .error err => .error err
  | .ok key =>
    if (c.podStates.lookup key).isSome then .error s!"pod {key} was already in binder cache"
    else
      match inStores pod with
      | some err => .error err
      | none =>
        .ok { c with
          podStates := c.podStates.insert key pod
          assumedPods := insert key c.assumedPods }

/-- Only an assumed pod is forgotten. -/
def forgetPod (pod : Pod) : Except String BinderCache :=
  match pod.getPodKey with
  | .error err => .error err
  | .ok key =>
    if key ∈ c.assumedPods then
      .ok { c with podStates := c.podStates.erase key, assumedPods := c.assumedPods.erase key }
    else .ok c

end BinderCache

/-- The unit the binder takes from its queue. -/
structure BindingUnit where
  unitKey : UnitKey
  minMember : ℤ
  pods : KeyedStore fun info : BindingPodInfo => info.pod.uid
  timeoutPeriod : ℤ := 0
  creationTimestamp : ℤ := 0

structure Eviction where
  preemptor : BindingPodInfo
  pod : Pod

/-- The unit and the cache after a call, and what the call did outside of them. -/
structure Outcome where
  unitInfo : BindingUnitInfo
  cache : BinderCache
  evicted : List Eviction := []
  bound : List String := []
  forgotten : List String := []
  /-- The tasks whose pods lose the annotations of the scheduler, with the error reported. -/
  rejected : List (String × Option String) := []
  reEnqueued : List BindingPodInfo := []

section

variable (env : Env) (cache : BinderCache)

/-- A victim is found by its namespace and name. One that is gone is passed over. -/
def getVictimsToPreempt : VictimPods → Except String (List Pod)
  | [] => .ok []
  | victimPod :: rest =>
    match env.podLister.get victimPod.ns victimPod.name with
    | .notFound => getVictimsToPreempt rest
    | .error err =>
      .error s!"fail to get victim pod: {victimPod.ns}/{victimPod.name} with error: {err}"
    | .found vp =>
      let marked := fun err : String => Except.error
        (s!"victim pod does not exist in cache or is marked to be deleted: " ++
          s!"{victimPod.ns}/{victimPod.name} with error: {err}")
      match cache.isPodMarkedToDelete vp with
      | .error err => marked err
      | .ok true => marked "<nil>"
      | .ok false => (getVictimsToPreempt rest).map (vp :: ·)

def skipCheckingPod (pod : Pod) : Bool :=
  if pod.deletionTimestamp.isSome then true
  else
    match cache.isAssumedPod pod with
    | .error _ => false
    | .ok isAssumed => isAssumed || pod.boundPod

/-- The running unit as far as it was set up, and the error that ended the setup. -/
def initializeTask (u : BindingUnitInfo) (queuedPod : BindingPodInfo) :
    RunningUnitInfo × Option String :=
  let pod := queuedPod.pod
  let rui : RunningUnitInfo := { queuedPodInfo := queuedPod }
  match env.getFrameworkForPod pod with
  | some err =>
    (rui, some s!"fail to get framework for pod: {pod.ns}/{pod.name}, error: {err}")
  | none =>
    match env.initCycleState pod with
    | some err =>
      (rui, some s!"fail to init cycle state for pod: {pod.ns}/{pod.name}, error: {err}")
    | none =>
      match pod.getNodeNameFromPod with
      | none => (rui, some s!"suggested node for pod: {pod.ns}/{pod.name} is empty")
      | some node =>
        let rui := { rui with suggestedNode := some node }
        match env.getAvailablePlaceholderPod pod with
        | some err => (rui, some err)
        | none =>
          match queuedPod.nominatedNode with
          | none => (rui, none)
          | some victimPods =>
            match getVictimsToPreempt env cache victimPods with
            | .error err =>
              (rui, some s!"fail to get victims for pod: {pod.ns}/{pod.name}, error: {err}")
            | .ok victims =>
              match victims.find? fun victim => u.hasVictim victim.uid with
              | some victim =>
                (rui, some (s!"fail to check victims for pod: {pod.ns}/{pod.name}, victim: " ++
                  s!"{victim.ns}/{victim.name} is selected by another preemptor in this unit"))
              | none =>
                let stamp :=
                  if victims.isEmpty then queuedPod.initialPreemptAttemptTimestamp
                  else queuedPod.initialPreemptAttemptTimestamp.or (some env.now)
                let queuedPod := { queuedPod with initialPreemptAttemptTimestamp := stamp }
                ({ rui with queuedPodInfo := queuedPod, victims := victims }, none)

def initializePod (u : BindingUnitInfo) (queuedPod : BindingPodInfo) : BindingUnitInfo :=
  if queuedPod.newlyAssumedButStillInHandling then u.addAssumedTask queuedPod
  else if skipCheckingPod cache queuedPod.pod then u.addIgnoredTasks queuedPod
  else
    match initializeTask env cache u queuedPod with
    | (rui, some err) => u.addFailedTask rui err false
    | (rui, none) => u.addNewTask rui

def initializeUnit (unit : BindingUnit) : BindingUnitInfo :=
  (env.podOrder.list unit.pods.list).foldl (initializePod env cache)
    (.new unit.unitKey.type unit.minMember unit.pods.len
      (decide (unit.unitKey ∈ cache.scheduledUnits)))

end

section

variable (env : Env)

/-- Every victim is gone, or another pod has its name. -/
def isPreemptionComplete (victimPods : VictimPods) : Bool :=
  victimPods.all fun victimPod =>
    match env.podLister.get victimPod.ns victimPod.name with
    | .found gotPod => decide (gotPod.uid ≠ victimPod.uid)
    | .notFound => true
    | .error _ => false

def maxPreemptionBackoffPeriodInSeconds : ℤ := 600

/-- The task with its preemption started, whether it is in progress, and the timeout error. -/
def checkCrossNodePreemptionForAssumedTask (task : BindingPodInfo) (victimPods : VictimPods) :
    BindingPodInfo × Bool × Option String :=
  if isPreemptionComplete env victimPods then (task, false, none)
  else
    let start := task.initialPreemptAttemptTimestamp.getD env.now
    let task := { task with initialPreemptAttemptTimestamp := some start }
    if env.now > start + maxPreemptionBackoffPeriodInSeconds then
      (task, false, some (s!"victims of this pod: {task.pod.ns}/{task.pod.name} can not been " ++
        s!"cleaned up within timeout duration ({maxPreemptionBackoffPeriodInSeconds} seconds)"))
    else (task, true, none)

/-- The unit and whether a preemption is in progress, `none` once the unit has failed. -/
def checkAssumedTasks : List CheckResult → BindingUnitInfo → Bool → BindingUnitInfo × Option Bool
  | [], u, anyOneStillInProgress => (u, some anyOneStillInProgress)
  | cr :: rest, u, anyOneStillInProgress =>
    match cr.info.nominatedNode with
    | none => checkAssumedTasks rest u anyOneStillInProgress
    | some victimPods =>
      let (task, inProgress, err) :=
        checkCrossNodePreemptionForAssumedTask env cr.info victimPods
      let u := u.addAssumedTask task
      let u :=
        match err with
        | none => u
        | some err => u.addFailedTask { queuedPodInfo := task } err true
      if u.isUnitFailed then
        (u.moveAllTasksToFailedList
          "unit checks fail at check cross node preemption for assumed tasks", none)
      else checkAssumedTasks rest u (anyOneStillInProgress || inProgress)

/-- Fail the new tasks that do not pass a check, and all tasks once the unit has failed. -/
def checkNewTasks (check : RunningUnitInfo → Option String) (unitErr : RunningUnitInfo → String) :
    List CheckResult → BindingUnitInfo → BindingUnitInfo
  | [], u => u
  | cr :: rest, u =>
    let u :=
      match check cr.runningUnit with
      | none => u
      | some err => u.addFailedTask cr.runningUnit err false
    if u.isUnitFailed then u.moveAllTasksToFailedList (unitErr cr.runningUnit)
    else checkNewTasks check unitErr rest u

def checkCrossNodePreemptionForUnit (u : BindingUnitInfo) : BindingUnitInfo :=
  match checkAssumedTasks env (env.taskOrder.list (u.getTasks .assumedTasks)) u false with
  | (u, none) => u
  | (u, some anyOneStillInProgress) =>
    let u :=
      if anyOneStillInProgress then u.moveAllAssumedTasksToWaitingList
      else u.moveAllAssumedTasksToReadyList
    if u.noVictim then u
    else
      checkNewTasks
        (fun rui =>
          if rui.victims.isEmpty then none
          else (env.checkPreemptionPhase rui).map fun err =>
            s!"fail to check preemption for pod: {rui.queuedPodInfo.pod.ns}/" ++
              s!"{rui.queuedPodInfo.pod.name}, error: {err}")
        (fun _ => "unit checks fail at check cross node preemption for new tasks")
        (env.taskOrder.list (u.getTasks .newTasks)) u

def nodeNameText (node : Option NodeName) : String := (node.map NodeName.val).getD ""

def checkCrossNodeTopologyForUnit (u : BindingUnitInfo) : BindingUnitInfo :=
  let hasNodeInfo := fun rui : RunningUnitInfo => rui.suggestedNode.any env.hasNodeInfo
  checkNewTasks
    (fun rui =>
      let key := s!"{rui.queuedPodInfo.pod.ns}/{rui.queuedPodInfo.pod.name}"
      if hasNodeInfo rui then (env.checkTopologyPhase rui).map fun err =>
        s!"fail to check topology in CheckCrossNodeTopologyForUnit for pod: {key}, error: {err}"
      else some (s!"fail to get node in CheckCrossNodeTopologyForUnit for pod: {key}, error: " ++
        s!"nodeInfo {nodeNameText rui.suggestedNode} doesn't exist"))
    (fun rui =>
      if hasNodeInfo rui then "unit checks fail at CheckCrossNodeTopologyForUnit"
      else "unit checks fail at CheckCrossNodeTopologyForUnit, err: nodeInfo " ++
        s!"{nodeNameText rui.suggestedNode} doesn't exist")
    (env.taskOrder.list (u.getTasks .newTasks)) u

/-- A preemptor with a conflict fails every task of its node, any other task only itself. -/
def checkTasksOnNode (nodeName : NodeName) : List CheckResult → BindingUnitInfo → BindingUnitInfo
  | [], u =>
    if u.newTasksOnNodeNeedPreemption nodeName then u.moveAllNewTasksOnNodeToWaitingList nodeName
    else u.moveAllNewTasksOnNodeToReadyList nodeName
  | cr :: rest, u =>
    match env.checkConflictPhase cr.runningUnit with
    | none => checkTasksOnNode nodeName rest u
    | some err =>
      let err := s!"fail to check conflict for pod: {cr.info.pod.ns}/{cr.info.pod.name}, " ++
        s!"error: {err}"
      if 0 < cr.runningUnit.victims.length then
        u.moveAllNewTasksOnNodeToFailedList nodeName err
      else
        let u := u.addFailedTask cr.runningUnit err false
        if u.isUnitFailed then u else checkTasksOnNode nodeName rest u

def checkTasks (u : BindingUnitInfo) (nodeName : NodeName) : BindingUnitInfo :=
  if !env.hasNodeInfo nodeName then
    u.moveAllNewTasksOnNodeToFailedList nodeName
      s!"fail to get node info for node: {nodeName.val}"
  else
    let failure := (u.getVictimsOfNewTasksOnNode nodeName).findSome? fun victim =>
      (env.removePod nodeName victim).map fun err =>
        s!"fail to remove pod: {victim.ns}/{victim.name} from node info ({nodeName.val}), " ++
          s!"error: {err}"
    match failure with
    | some err => u.moveAllNewTasksOnNodeToFailedList nodeName err
    | none =>
      checkTasksOnNode env nodeName (env.taskOrder.list (u.getNewTasksOnNode nodeName)) u

def checkSameNodeConflictsForUnit (u : BindingUnitInfo) : BindingUnitInfo :=
  (env.nodeOrder.list u.getNodeListOfNewTasks).foldl
    (fun u nodeName =>
      if u.isUnitFailed && !env.checksAfterCancel nodeName then u else checkTasks env u nodeName)
    u

end

section

variable (env : Env)

/-- Mark the victims of one task up to the first that cannot be marked. -/
def markVictims (preemptor : Pod) : List Pod → BinderCache → BinderCache × Option String
  | [], cache => (cache, none)
  | victim :: rest, cache =>
    match cache.markPodToDelete victim preemptor with
    | .error err =>
      (cache, some (s!"fail to mark victim: {victim.ns}/{victim.name} for pod: " ++
        s!"{preemptor.ns}/{preemptor.name}, error: {err}"))
    | .ok cache => markVictims preemptor rest cache

/-- The cache and the nodes with a victim that could not be marked. -/
def markVictimsOfTask (s : BinderCache × GoMap (Option NodeName) String) (cr : CheckResult) :
    BinderCache × GoMap (Option NodeName) String :=
  let node := cr.runningUnit.suggestedNode
  if !cr.assumed && decide (0 < cr.runningUnit.victims.length) && (s.2.lookup node).isNone then
    match markVictims cr.info.pod cr.runningUnit.victims s.1 with
    | (cache, none) => (cache, s.2)
    | (cache, some err) => (cache, s.2.insert node err)
  else s

def removeMarkers (cache : BinderCache) (cr : CheckResult) : BinderCache :=
  cr.runningUnit.victims.foldl (fun cache victim => cache.removeDeletePodMarker victim cr.info.pod)
    cache

variable (u : BindingUnitInfo)

def failNodes (nodeToErr : GoMap (Option NodeName) String) : BindingUnitInfo :=
  nodeToErr.entries.foldl
    (fun u entry => u.moveAllNewTasksOnNodeFromWaitingToFailedList entry.1 entry.2) u

def markVictimsOfNewTasks (cache : BinderCache) : BindingUnitInfo × BinderCache :=
  let waiting := env.taskOrder.list (u.getTasks .waitingTasks)
  let (cache, failedNodeMap) := waiting.foldl markVictimsOfTask (cache, ∅)
  let onFailedNode := waiting.filter fun cr =>
    !cr.assumed && (failedNodeMap.lookup cr.runningUnit.suggestedNode).isSome
  (failNodes u failedNodeMap, onFailedNode.foldl removeMarkers cache)

/-- The reserved pod is the pod on its node. It stays set if the cache refuses the pod. -/
def reserve (cr : CheckResult) : CheckResult :=
  { cr with
    runningUnit.queuedPodInfo :=
      { cr.info with
        reservedPod := some { cr.info.pod with nodeName := cr.runningUnit.suggestedNode }
        reserved_uid := by simp } }

def setAssumed (allBound : Bool) (cr : CheckResult) : CheckResult :=
  { cr with
    runningUnit.queuedPodInfo :=
      { cr.info with newlyAssumedButStillInHandling := true, allVolumeBound := allBound } }

def resetAssumed (cr : CheckResult) : CheckResult :=
  { cr with
    runningUnit.queuedPodInfo :=
      { cr.info with
        newlyAssumedButStillInHandling := false
        allVolumeBound := false
        reservedPod := none
        reserved_uid := by simp } }

/-- Replace a task by itself with other fields of its queued pod. -/
def updateTask (l : TaskList) (u : BindingUnitInfo) (cr : CheckResult) : BindingUnitInfo :=
  { u with tasks := u.tasks.put l cr }

/-- Assume the new tasks of a list, up to the first error. -/
def assumeTasks (l : TaskList) :
    List CheckResult → BindingUnitInfo × BinderCache →
      (BindingUnitInfo × BinderCache) × Option String
  | [], s => (s, none)
  | cr :: rest, (u, cache) =>
    if cr.assumed then assumeTasks l rest (u, cache)
    else
      let pod := cr.info.pod
      match env.assumePodVolumes pod with
      | .error err =>
        ((u, cache), some (s!"fail to assume pod volumes for pod: {pod.ns}/{pod.name}, " ++
          s!"error: {err}"))
      | .ok allBound =>
        let reserved := reserve cr
        match cache.assumePod env.assumePodInStores
            { pod with nodeName := cr.runningUnit.suggestedNode } with
        | .error err =>
          ((updateTask l u reserved, cache),
            some s!"fail to assume pod: {pod.ns}/{pod.name}, error: {err}")
        | .ok cache => assumeTasks l rest (updateTask l u (setAssumed allBound reserved), cache)

def assumeNewTasks (cache : BinderCache) : (BindingUnitInfo × BinderCache) × Option String :=
  match assumeTasks env .readyTasks (env.taskOrder.list (u.getTasks .readyTasks)) (u, cache) with
  | (s, some err) => (s, some err)
  | (s, none) =>
    assumeTasks env .waitingTasks (env.taskOrder.list (s.1.getTasks .waitingTasks)) s

def forgetNewAssumedTask (l : TaskList) (s : BindingUnitInfo × BinderCache) (cr : CheckResult) :
    BindingUnitInfo × BinderCache :=
  if cr.assumed || !cr.info.newlyAssumedButStillInHandling then s
  else
    match cr.info.reservedPod with
    | none => s
    | some pod =>
      match s.2.forgetPod pod with
      | .error _ => s
      | .ok cache => (updateTask l s.1 (resetAssumed cr), cache)

def forgetNewAssumedTasks (cache : BinderCache) : BindingUnitInfo × BinderCache :=
  (u.getTasks .waitingTasks).foldl (forgetNewAssumedTask .waitingTasks)
    ((u.getTasks .readyTasks).foldl (forgetNewAssumedTask .readyTasks) (u, cache))

def markVictimsAndAssumeTasks (cache : BinderCache) : BindingUnitInfo × BinderCache :=
  let (u, cache) := markVictimsOfNewTasks env u cache
  if u.isUnitFailed then (u, cache)
  else
    match assumeNewTasks env u cache with
    | (s, none) => s
    | ((u, cache), some err) =>
      let (u, cache) := forgetNewAssumedTasks u cache
      (u.moveAllNewTasksInReadyAndWaitingListToFailedList err, cache)

end

section

variable (env : Env)

/-- The pods deleted for one task. The first error ends it. A victim is deleted by name. -/
def deleteVictimsForTask (preemptor : BindingPodInfo) : List Pod → List Eviction × Option String
  | [] => ([], none)
  | victim :: rest =>
    match env.deletePod victim.ns victim.name with
    | .error err =>
      ([], some (s!"fail to delete victims for pod: {preemptor.pod.ns}/{preemptor.pod.name}, " ++
        s!"error: {err}"))
    | .notFound => deleteVictimsForTask preemptor rest
    | .deleted pod =>
      let (evicted, err) := deleteVictimsForTask preemptor rest
      (⟨preemptor, pod⟩ :: evicted, err)

def isNewPreemptor (cr : CheckResult) : Bool :=
  !cr.assumed && decide (0 < cr.runningUnit.victims.length)

/-- The pods deleted so far, and the nodes with a victim that could not be deleted. -/
def deleteVictimsStep (s : List Eviction × GoMap (Option NodeName) String) (cr : CheckResult) :
    List Eviction × GoMap (Option NodeName) String :=
  match deleteVictimsForTask env cr.info cr.runningUnit.victims with
  | (evicted, none) => (s.1 ++ evicted, s.2)
  | (evicted, some err) => (s.1 ++ evicted, s.2.insert cr.runningUnit.suggestedNode err)

def deleteVictimsOfNewTasks (u : BindingUnitInfo) :
    List Eviction × GoMap (Option NodeName) String :=
  ((u.getTasks .waitingTasks).filter isNewPreemptor).foldl (deleteVictimsStep env) ([], ∅)

/-- A task without a reserved pod is left alone. -/
def bindTask (cr : CheckResult) : BindAnswer :=
  match cr.info.reservedPod with
  | none => .skipped
  | some pod => env.bindPhase pod

/-- The tasks bound so far, and the errors of those that could not be bound. -/
def bindStep (s : List String × GoMap String String) (cr : CheckResult) :
    List String × GoMap String String :=
  match bindTask env cr with
  | .bound => (s.1 ++ [cr.uid], s.2)
  | .failed err => (s.1, s.2.insert cr.uid err)
  | .skipped => s

def bindTasks (u : BindingUnitInfo) : List String × GoMap String String :=
  (u.getTasks .readyTasks).foldl (bindStep env) ([], ∅)

/-- The pod a failed task makes the cache forget. -/
def podToForget (cr : CheckResult) : Option Pod :=
  if cr.assumed || cr.info.newlyAssumedButStillInHandling then cr.info.reservedPod else none

def rejectFailedTask (o : Outcome) (cr : CheckResult) : Outcome :=
  let cache := removeMarkers o.cache cr
  let o := { o with rejected := o.rejected ++ [(cr.uid, cr.err)] }
  match podToForget cr with
  | none => { o with cache := cache }
  | some pod =>
    { o with
      cache := (cache.forgetPod pod).toOption.getD cache
      forgotten := o.forgotten ++ [pod.uid] }

def rejectFailedTasks (o : Outcome) : Outcome :=
  (o.unitInfo.getTasks .failedTasks).foldl rejectFailedTask o

def failAndRejectAllTasks (o : Outcome) (err : String) : Outcome :=
  rejectFailedTasks { o with unitInfo := o.unitInfo.moveAllTasksToFailedList err }

/-- The source ends the process for a waiting task that is not assumed. -/
def reEnqueueWaitingTasks (o : Outcome) : Outcome :=
  { o with reEnqueued := (o.unitInfo.getTasks .waitingTasks).map CheckResult.info }

/-- The last part of the workflow, once the tasks have been bound or are kept waiting. -/
def finishUnit (o : Outcome) : Outcome := rejectFailedTasks (reEnqueueWaitingTasks o)

def lockUnit (u : BindingUnitInfo) : Option String :=
  match u.type with
  | .podGroupUnitType => env.lockPodGroupStatus
  | .singlePodUnitType => none

def setUnitScheduled (unitKey : UnitKey) (cache : BinderCache) : BinderCache :=
  match unitKey.type with
  | .podGroupUnitType => { cache with scheduledUnits := insert unitKey cache.scheduledUnits }
  | .singlePodUnitType => cache

def bindReadyTasks (unitKey : UnitKey) (o : Outcome) : Outcome :=
  let (bound, failedTasks) := bindTasks env o.unitInfo
  let o := { o with
    unitInfo := o.unitInfo.moveTasksFromReadyToFailedList failedTasks
    bound := bound }
  if o.unitInfo.isUnitFailed then failAndRejectAllTasks o "unit fails after bindTasks"
  else finishUnit { o with cache := setUnitScheduled unitKey o.cache }

def deleteVictimsAndBindTasks (unitKey : UnitKey) (u : BindingUnitInfo) (cache : BinderCache) :
    Outcome :=
  let (evicted, nodeToErr) := deleteVictimsOfNewTasks env u
  let o : Outcome := { unitInfo := failNodes u nodeToErr, cache := cache, evicted := evicted }
  if o.unitInfo.isUnitFailed then
    failAndRejectAllTasks o
      "unit fails after deleteVictimsOfNewTasks, at DeleteVictimsAndBindTasks"
  else if o.unitInfo.isAbleToBindReadyTasks then
    match lockUnit env o.unitInfo with
    | some err => failAndRejectAllTasks o err
    | none => bindReadyTasks env unitKey o
  else finishUnit { o with unitInfo := o.unitInfo.moveAllTasksFromReadyToWaitingList }

end

section

variable (env : Env)

def unitTimeout (cache : BinderCache) (unit : BindingUnit) : Bool :=
  decide (unit.timeoutPeriod ≠ 0 ∧ env.now > unit.creationTimestamp + unit.timeoutPeriod ∧
    unit.unitKey ∉ cache.scheduledUnits)

def rejectTimeOutUnit (cache : BinderCache) (unit : BindingUnit) : Outcome where
  unitInfo := .new unit.unitKey.type unit.minMember unit.pods.len false
  cache := cache
  rejected := unit.pods.list.map fun info => (info.pod.uid, some "unit timeout")

abbrev Stage := BindingUnitInfo × BinderCache → BindingUnitInfo × BinderCache

def stages (unit : BindingUnit) : List (String × Stage) :=
  [("initialization", fun s => (initializeUnit env s.2 unit, s.2)),
    ("checkPreemption", fun s => (checkCrossNodePreemptionForUnit env s.1, s.2)),
    ("checkCrossNodeTopology", fun s => (checkCrossNodeTopologyForUnit env s.1, s.2)),
    ("checkSameNodeConflicts", fun s => (checkSameNodeConflictsForUnit env s.1, s.2)),
    ("assumeTask", fun s => markVictimsAndAssumeTasks env s.1 s.2)]

/-- Run the stages in turn. A unit that fails in one of them is rejected. -/
def runStages (last : BindingUnitInfo → BinderCache → Outcome) :
    List (String × Stage) → BindingUnitInfo × BinderCache → Outcome
  | [], s => last s.1 s.2
  | (stageName, stage) :: rest, s =>
    let s := stage s
    if s.1.isUnitFailed then
      failAndRejectAllTasks { unitInfo := s.1, cache := s.2 } s!"unit fails after {stageName}"
    else runStages last rest s

/-- `none` for a unit without pods. The last stage runs in the background. -/
def checkAndBindUnit (cache : BinderCache) (unit : BindingUnit) : Option Outcome :=
  if unit.pods.len = 0 then none
  else if unitTimeout env cache unit then some (rejectTimeOutUnit cache unit)
  else
    some (runStages (deleteVictimsAndBindTasks env unit.unitKey) (stages env unit)
      (.new unit.unitKey.type unit.minMember unit.pods.len false, cache))

end

end GodelScheduler.Binder
