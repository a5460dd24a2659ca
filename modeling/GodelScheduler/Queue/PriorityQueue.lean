import GodelScheduler.Framework.Unit
import GodelScheduler.Library.Int64
import GodelScheduler.Library.Runs

/-!
# The scheduler's priority queue

Units wait in one of four keyed sub-queues; pods whose unit cannot be created
yet wait in the waiting pods list, grouped by the key of their unit. Every call
takes an `Env`: the clock, the listers, the scheduling status of the units and
the orders in which Go visits its maps, all of which may differ from one call
to the next. In particular pod groups appear in and disappear from the lister
between any two calls.

The order of a sub-queue decides which unit `Pop` serves; here `pop` serves any
given unit of the ready queue. The order of the backoff queue is the backoff
time, which `flushBackoffQCompleted` depends on.
-/

namespace GodelScheduler.Queue

open Library KeyedStore

inductive SchedulingStatus
  | unknownStatus
  | pendingStatus
  | scheduledStatus
  | timeoutStatus
  deriving DecidableEq, Repr

structure Env where
  now : ℤ
  listers : Listers
  /-- `GetUnitSchedulingStatus` of the scheduler cache. -/
  getUnitSchedulingStatus : UnitKey → SchedulingStatus
  podOrder : RangeOrder QueuedPodInfo
  unitOrder : RangeOrder QueuedUnitInfo

structure BackoffHandler where
  initialDuration : ℤ
  maxDuration : ℤ

variable (h : BackoffHandler)

namespace BackoffHandler

/-- The duration doubled a number of times, or the maximum if doubling would pass it. -/
def doubled (maxDuration : ℤ) : ℕ → ℤ → ℤ
  | 0, duration => duration
  | n + 1, duration =>
    if duration > maxDuration - duration then maxDuration
    else doubled maxDuration n (duration + duration)

def calculateBackoffDuration (unitInfo : QueuedUnitInfo) : ℤ :=
  if unitInfo.attempts = 0 then 0
  else doubled h.maxDuration (unitInfo.attempts - 1) h.initialDuration

def getBackoffTime (unitInfo : QueuedUnitInfo) : ℤ :=
  unitInfo.timestamp + h.calculateBackoffDuration unitInfo

def isUnitBackoff (env : Env) (unitInfo : QueuedUnitInfo) : Bool :=
  decide (env.now < h.getBackoffTime unitInfo)

/-- As `doubled`, with the arithmetic of `time.Duration`. -/
def doubledInt64 (maxDuration : ℤ) : ℕ → ℤ → ℤ
  | 0, duration => duration
  | n + 1, duration =>
    if duration > int64 (maxDuration - duration) then maxDuration
    else doubledInt64 maxDuration n (int64 (duration + duration))

def calculateBackoffDurationInt64 (unitInfo : QueuedUnitInfo) : ℤ :=
  if unitInfo.attempts = 0 then 0
  else doubledInt64 h.maxDuration (unitInfo.attempts - 1) h.initialDuration

/-- No step of the loop leaves the range of an int64. -/
theorem doubledInt64_eq {maxDuration : ℤ} (hmax : maxDuration ≤ 2 ^ 63 - 1) (n : ℕ)
    {duration : ℤ} (hpos : 0 < duration) (hle : duration ≤ maxDuration) :
    doubledInt64 maxDuration n duration = doubled maxDuration n duration := by
  induction n generalizing duration with
  | zero => rfl
  | succ n ih =>
    unfold doubledInt64 doubled
    rw [FitsInt64.int64_eq ⟨by omega, by omega⟩]
    split_ifs with hcap
    · rfl
    · rw [FitsInt64.int64_eq ⟨by omega, by omega⟩]
      exact ih (by omega) (by omega)

theorem doubled_eq_min {maxDuration : ℤ} (n : ℕ) {duration : ℤ} (hpos : 0 < duration)
    (hle : duration ≤ maxDuration) :
    doubled maxDuration n duration = min maxDuration (duration * 2 ^ n) := by
  induction n generalizing duration with
  | zero =>
    rw [pow_zero, mul_one, min_eq_right hle]
    rfl
  | succ n ih =>
    have hdouble : duration * 2 ^ (n + 1) = (duration + duration) * 2 ^ n := by ring
    unfold doubled
    rw [hdouble]
    split_ifs with hcap
    · -- Once the next doubling passes the maximum, so do all later ones.
      have hgrow : duration + duration ≤ (duration + duration) * 2 ^ n :=
        le_mul_of_one_le_right (by omega) (one_le_pow₀ (by norm_num))
      rw [min_eq_left (by omega)]
    · exact ih (by omega) (by omega)

theorem calculateBackoffDurationInt64_eq {h : BackoffHandler} (hinit : 0 < h.initialDuration)
    (hle : h.initialDuration ≤ h.maxDuration) (hmax : h.maxDuration ≤ 2 ^ 63 - 1)
    {unitInfo : QueuedUnitInfo} (hattempts : 1 ≤ unitInfo.attempts) :
    h.calculateBackoffDurationInt64 unitInfo =
      min h.maxDuration (h.initialDuration * 2 ^ (unitInfo.attempts - 1)) := by
  unfold calculateBackoffDurationInt64
  rw [if_neg (Nat.ne_of_gt hattempts), doubledInt64_eq hmax _ hinit hle, doubled_eq_min _ hinit hle]

theorem backoff_exponential (hinit : 0 < h.initialDuration)
    (hle : h.initialDuration ≤ h.maxDuration) (hmax : h.maxDuration ≤ 2 ^ 63 - 1) :
    (∀ unitInfo : QueuedUnitInfo, 1 ≤ unitInfo.attempts → h.calculateBackoffDurationInt64 unitInfo =
          min h.maxDuration (h.initialDuration * 2 ^ (unitInfo.attempts - 1)) ∧
        0 ≤ h.calculateBackoffDurationInt64 unitInfo) ∧
      ∀ unitInfo unitInfo' : QueuedUnitInfo, 1 ≤ unitInfo.attempts →
        unitInfo.attempts ≤ unitInfo'.attempts →
        h.calculateBackoffDurationInt64 unitInfo ≤ h.calculateBackoffDurationInt64 unitInfo' := by
  refine ⟨fun unitInfo hattempts => ?_, fun unitInfo unitInfo' hattempts hmore => ?_⟩
  · have hvalue := calculateBackoffDurationInt64_eq hinit hle hmax hattempts
    refine ⟨hvalue, ?_⟩
    rw [hvalue]
    exact le_min (by omega) (by positivity)
  · rw [calculateBackoffDurationInt64_eq hinit hle hmax hattempts,
      calculateBackoffDurationInt64_eq hinit hle hmax (hattempts.trans hmore)]
    gcongr
    norm_num

theorem backoff_exponential_capped :
    calculateBackoffDurationInt64 ⟨3, 10⟩
      ⟨.singlePodUnit "default" "a", .singlePod ⟨none⟩, 0, 4, 0, rfl⟩ = 10 :=
  ((backoff_exponential ⟨3, 10⟩ (by decide) (by decide) (by decide)).1 _ (by decide)).1

end BackoffHandler

def newQueuedPodInfo (pod : Pod) (now : ℤ) : QueuedPodInfo := ⟨pod, now, now⟩

def updatePodInfo (oldPodInfo : QueuedPodInfo) (newPod : Pod) : QueuedPodInfo :=
  { oldPodInfo with pod := newPod }

/-- Whether an update changed more than the resource version, the generation and the status. -/
def isPodUpdated (oldPod newPod : Pod) : Bool :=
  let strip := fun pod : Pod => { pod with resourceVersion := 0, generation := 0, status := 0 }
  decide (strip oldPod ≠ strip newPod)

/-- The pods of one unit that cannot be created yet. -/
structure WaitingPods where
  unitKey : UnitKey
  pods : PodInfoMap
  belongs : ∀ info ∈ pods.list, getUnitIdentifier info.pod = unitKey
  deriving DecidableEq

namespace WaitingPods

def new (unitKey : UnitKey) : WaitingPods where
  unitKey := unitKey
  pods := .empty _
  belongs info h := by
    rw [mem_list_iff, getByKey_empty] at h
    cases h

def set (w : WaitingPods) (info : QueuedPodInfo) (h : getUnitIdentifier info.pod = w.unitKey) :
    WaitingPods where
  unitKey := w.unitKey
  pods := w.pods.add info
  belongs info' h' := by
    rw [mem_list_iff, getByKey_add] at h'
    split_ifs at h'
    · cases h'
      exact h
    · exact w.belongs info' (mem_list_iff.mpr h')

def delete (w : WaitingPods) (uid : String) : WaitingPods where
  unitKey := w.unitKey
  pods := w.pods.deleteByKey uid
  belongs info h := by
    rw [mem_list_iff, getByKey_deleteByKey] at h
    split_ifs at h
    exact w.belongs info (mem_list_iff.mpr h)

/-- The unit of the waiting pods, created for whichever pod Go visits first. -/
def transferToPodGroupUnit (w : WaitingPods) (env : Env) : Option QueuedUnitInfo :=
  match env.podOrder.list w.pods.list with
  | [] => none
  | randomPodInfo :: rest =>
    match createScheduleUnit env.listers randomPodInfo.pod with
    | .error _ => none
    | .ok created =>
      let scheduleUnit := (randomPodInfo :: rest).foldl ScheduleUnit.addPod created
      match hkey : scheduleUnit.getKey with
      | some key => some (.new key scheduleUnit env.now (ScheduleUnit.type_of_getKey hkey))
      | none => none

end WaitingPods

abbrev WaitingPodsList := KeyedStore WaitingPods.unitKey

namespace WaitingPodsList

variable (l : WaitingPodsList)

def removeExistedOrCreateWaitingPods (pod : Pod) :
    { w : WaitingPods // w.unitKey = getUnitIdentifier pod } × WaitingPodsList :=
  match h : l.getByKey (getUnitIdentifier pod) with
  | some w => (⟨w, key_of_getByKey h⟩, l.deleteByKey (getUnitIdentifier pod))
  | none => (⟨.new (getUnitIdentifier pod), rfl⟩, l)

def addPod (now : ℤ) (pod : Pod) : WaitingPodsList :=
  let (wp, l) := removeExistedOrCreateWaitingPods l pod
  l.add (wp.1.set (newQueuedPodInfo pod now) wp.2.symm)

/-- The source assumes that both pods belong to one unit. -/
def updatePod (now : ℤ) (oldPod newPod : Pod) : WaitingPodsList :=
  let (wp, l) := removeExistedOrCreateWaitingPods l newPod
  match wp.1.pods.getByKey oldPod.uid with
  | some oldPodInfo =>
    l.add ((wp.1.delete oldPodInfo.uid).set (updatePodInfo oldPodInfo newPod) wp.2.symm)
  | none => l.add (wp.1.set (newQueuedPodInfo newPod now) wp.2.symm)

def deletePod (pod : Pod) : WaitingPodsList :=
  let (wp, l) := removeExistedOrCreateWaitingPods l pod
  let wp := wp.1.delete pod.uid
  if wp.pods.len > 0 then l.add wp else l

end WaitingPodsList

inductive QueueName
  | waitingQ
  | readyQ
  | backoffQ
  | unschedulableQ
  deriving DecidableEq, Repr

abbrev SubQueue := KeyedStore QueuedUnitInfo.unitKey

structure PriorityQueue where
  queues : QueueName → SubQueue
  waitingPodsList : WaitingPodsList
  schedulingCycle : ℤ
  moveRequestCycle : ℤ

/-- `unschedulableQTimeInterval`, sixty seconds in nanoseconds. -/
def unschedulableQTimeInterval : ℤ := 60 * 1000000000

variable (p : PriorityQueue) (env : Env) (h : BackoffHandler) (unitInfo : QueuedUnitInfo)

namespace PriorityQueue

def new : PriorityQueue where
  queues _ := .empty _
  waitingPodsList := .empty _
  schedulingCycle := 0
  moveRequestCycle := -1

/-- `queue.Add(unitInfo)`. -/
def put (queue : QueueName) (unitInfo : QueuedUnitInfo) : PriorityQueue :=
  { p with queues := Function.update p.queues queue ((p.queues queue).add unitInfo) }

/-- `queue.DeleteByKey(key)`. -/
def remove (queue : QueueName) (key : UnitKey) : PriorityQueue :=
  { p with queues := Function.update p.queues queue ((p.queues queue).deleteByKey key) }

def find (key : UnitKey) : Option (QueueName × QueuedUnitInfo) :=
  [QueueName.waitingQ, .readyQ, .backoffQ, .unschedulableQ].findSome? fun queue =>
    ((p.queues queue).getByKey key).map fun u => (queue, u)

def findAndRemoveUnitFromQueue (key : UnitKey) :
    Option (QueueName × QueuedUnitInfo) × PriorityQueue :=
  match p.find key with
  | some (queue, u) => (some (queue, u), p.remove queue key)
  | none => (none, p)

/-- The unit of a pod, with the pods of the unit that have been waiting. -/
def newUnitInfo (pod : Pod) (waiting : Option WaitingPods) : Except String QueuedUnitInfo :=
  let pInfo := newQueuedPodInfo pod env.now
  let unitKey := getUnitIdentifier pod
  match hcreate : createScheduleUnit env.listers pod with
  | .error err =>
    .error s!"error occurred when create unit for pod {pod.ns}/{pod.name}: {err}"
  | .ok created =>
    let scheduleUnit := created.addPod pInfo
    have htype : scheduleUnit.type = unitKey.type :=
      (created.type_addPod pInfo).trans (type_createScheduleUnit hcreate)
    match waiting with
    | none => .ok (.new unitKey scheduleUnit env.now htype)
    | some waitingPods =>
      match hadd : scheduleUnit.addPods (env.podOrder.list waitingPods.pods.list) with
      | .error err =>
        let key := (scheduleUnit.getKey.map UnitKey.toString).getD ""
        .error (s!"error occurred when adding waitingPodsList pods to unit {key} " ++
          s!"for pod {pod.ns}/{pod.name}: {err}")
      | .ok merged =>
        .ok (.new unitKey merged env.now ((ScheduleUnit.type_addPods hadd).trans htype))

def createUnitInfo (pod : Pod) : Except String (QueuedUnitInfo × PriorityQueue) :=
  let unitKey := getUnitIdentifier pod
  (newUnitInfo env pod (p.waitingPodsList.getByKey unitKey)).map fun unitInfo =>
    (unitInfo, { p with waitingPodsList := p.waitingPodsList.deleteByKey unitKey })

/-- The sub-queue the unit was found in, if any, the unit with the pod, and the queue without it. -/
def addPodToUnitInfo (pod : Pod) :
    Except String (Option QueueName × QueuedUnitInfo × PriorityQueue) :=
  match p.findAndRemoveUnitFromQueue (getUnitIdentifier pod) with
  | (some (queue, unitInfo), p) =>
    .ok (some queue, unitInfo.addPod (newQueuedPodInfo pod env.now), p)
  | (none, p) => (p.createUnitInfo env pod).map fun (unitInfo, p) => (none, unitInfo, p)

def updatePodInUnitInfo (oldPod newPod : Pod) :
    Except String (Option QueueName × QueuedUnitInfo × PriorityQueue) :=
  match p.findAndRemoveUnitFromQueue (getUnitIdentifier newPod) with
  | (none, p) => (p.createUnitInfo env newPod).map fun (unitInfo, p) => (none, unitInfo, p)
  | (some (queue, unitInfo), p) =>
    match unitInfo.scheduleUnit.getPod oldPod.uid with
    | some oldPodInfo =>
      .ok (some queue,
        (unitInfo.deletePod oldPodInfo.uid).addPod (updatePodInfo oldPodInfo newPod), p)
    | none => .ok (some queue, unitInfo.addPod (newQueuedPodInfo newPod env.now), p)

def readyToBeScheduled : Bool :=
  unitInfo.scheduleUnit.readyToBePopulated ||
    env.getUnitSchedulingStatus unitInfo.unitKey == .scheduledStatus

def schedulingStatusTimeout : Bool :=
  unitInfo.scheduleUnit.type != .singlePodUnitType &&
    env.getUnitSchedulingStatus unitInfo.unitKey == .timeoutStatus

/-- The ready queue for a unit that can be scheduled, else the waiting queue. -/
def readyOrWaiting : QueueName :=
  if readyToBeScheduled env unitInfo then .readyQ else .waitingQ

def add (pod : Pod) : PriorityQueue :=
  match p.addPodToUnitInfo env pod with
  | .error _ => { p with waitingPodsList := p.waitingPodsList.addPod env.now pod }
  | .ok (queue, unitInfo, p) =>
    if queue = some .backoffQ then p.put .backoffQ unitInfo
    else p.put (readyOrWaiting env unitInfo) unitInfo

def addUnschedulableIfNotPresent (unitSchedulingCycle : ℤ) : PriorityQueue :=
  if unitInfo.scheduleUnit.numPods = 0 then p
  else
    let (found, p) := p.findAndRemoveUnitFromQueue unitInfo.unitKey
    let unitInfo :=
      match found with
      | some (_, inQueue) =>
        unitInfo.addPodsIfNotPresent (env.podOrder.list inQueue.scheduleUnit.getPods)
      | none => unitInfo
    let unitInfo := { unitInfo with timestamp := env.now }
    if p.moveRequestCycle ≥ unitSchedulingCycle ∧ !schedulingStatusTimeout env unitInfo then
      p.put .backoffQ unitInfo
    else p.put .unschedulableQ unitInfo

def update (p : PriorityQueue) (env : Env) (oldPod newPod : Pod) : PriorityQueue :=
  match p.updatePodInUnitInfo env oldPod newPod with
  | .error _ =>
    { p with waitingPodsList := p.waitingPodsList.updatePod env.now oldPod newPod }
  | .ok (some queue, unitInfo, p) =>
    if queue = .unschedulableQ ∧ isPodUpdated oldPod newPod then
      if h.isUnitBackoff env unitInfo then p.put .backoffQ unitInfo
      else p.put (readyOrWaiting env unitInfo) unitInfo
    else p.put queue unitInfo
  | .ok (none, unitInfo, p) => p.put (readyOrWaiting env unitInfo) unitInfo

def delete (pod : Pod) : PriorityQueue :=
  let (found, p) := p.findAndRemoveUnitFromQueue (getUnitIdentifier pod)
  let p := { p with waitingPodsList := p.waitingPodsList.deletePod pod }
  match found with
  | none => p
  | some (queue, unitInfo) =>
    let unitInfo := unitInfo.deletePod pod.uid
    if unitInfo.scheduleUnit.numPods = 0 then p
    else if queue ≠ .waitingQ ∧ !readyToBeScheduled env unitInfo then p.put .waitingQ unitInfo
    else p.put queue unitInfo

def pop (key : UnitKey) : Option (QueuedUnitInfo × PriorityQueue) :=
  ((p.queues .readyQ).getByKey key).map fun unitInfo =>
    ({ unitInfo with attempts := unitInfo.attempts + 1 },
      { p.remove .readyQ key with schedulingCycle := p.schedulingCycle + 1 })

def moveUnitsToReadyOrBackoffQueue (p : PriorityQueue) (env : Env)
    (unitInfoList : List QueuedUnitInfo) : PriorityQueue :=
  let p := unitInfoList.foldl
    (fun p unitInfo =>
      (p.put (if h.isUnitBackoff env unitInfo then .backoffQ else .readyQ) unitInfo).remove
        .unschedulableQ unitInfo.unitKey) p
  { p with moveRequestCycle := p.schedulingCycle }

/-- The units of a sub-queue that satisfy a test, in the order the parallel loop found them. -/
def select (queue : QueueName) (test : QueuedUnitInfo → Bool) : List QueuedUnitInfo :=
  env.unitOrder.list ((p.queues queue).list.filter test)

def moveAllToActiveOrBackoffQueue (p : PriorityQueue) (env : Env) : PriorityQueue :=
  p.moveUnitsToReadyOrBackoffQueue h env
    (p.select env .unschedulableQ fun unitInfo => !schedulingStatusTimeout env unitInfo)

/-- `AssignedPodAdded` and `AssignedPodUpdated`; `matchesTerm` says which pods have an affinity
term that matches the assigned pod. -/
def assignedPod (p : PriorityQueue) (env : Env) (matchesTerm : Pod → Bool) : PriorityQueue :=
  p.moveUnitsToReadyOrBackoffQueue h env
    (p.select env .unschedulableQ fun unitInfo =>
      (unitInfo.scheduleUnit.getPods.any fun info => matchesTerm info.pod) &&
        !schedulingStatusTimeout env unitInfo)

def flushUnschedulableQLeftover (p : PriorityQueue) (env : Env) : PriorityQueue :=
  p.moveUnitsToReadyOrBackoffQueue h env
    (p.select env .unschedulableQ fun unitInfo =>
      decide (env.now - unitInfo.timestamp > unschedulableQTimeInterval) &&
        !schedulingStatusTimeout env unitInfo)

def flushBackoffQCompleted (p : PriorityQueue) (env : Env) : PriorityQueue :=
  let byBackoffTime := (p.queues .backoffQ).list.insertionSort
    fun u v => h.getBackoffTime u ≤ h.getBackoffTime v
  (byBackoffTime.takeWhile fun unitInfo => !h.isUnitBackoff env unitInfo).foldl
    (fun p unitInfo => (p.remove .backoffQ unitInfo.unitKey).put .readyQ unitInfo) p

def flushScheduledUnitsInWaitingQ : PriorityQueue :=
  (p.select env .waitingQ fun unitInfo => readyToBeScheduled env unitInfo).foldl
    (fun p unitInfo => (p.remove .waitingQ unitInfo.unitKey).put .readyQ unitInfo) p

def activePodGroupUnit (unitKey : UnitKey) : PriorityQueue :=
  match (p.waitingPodsList.getByKey unitKey).bind (·.transferToPodGroupUnit env) with
  | none => p
  | some unitInfo =>
    let p := p.put (readyOrWaiting env unitInfo) unitInfo
    { p with waitingPodsList := p.waitingPodsList.deleteByKey unitKey }

def flushWaitingPodsList : PriorityQueue :=
  let unitsToMove := env.unitOrder.list
    (p.waitingPodsList.list.filterMap (·.transferToPodGroupUnit env))
  unitsToMove.foldl
    (fun p unitInfo =>
      { p with waitingPodsList := p.waitingPodsList.deleteByKey unitInfo.unitKey }.put
        (readyOrWaiting env unitInfo) unitInfo) p

def pendingPods : List Pod :=
  (p.waitingPodsList.list.flatMap fun w => w.pods.list.map QueuedPodInfo.pod) ++
    [QueueName.waitingQ, .readyQ, .backoffQ, .unschedulableQ].flatMap fun queue =>
      (p.queues queue).list.flatMap fun u => u.scheduleUnit.getPods.map QueuedPodInfo.pod

/-- One call of the queue, with everything its outcome depends on. -/
inductive Op
  | add (env : Env) (pod : Pod)
  | update (env : Env) (oldPod newPod : Pod)
  | delete (env : Env) (pod : Pod)
  | pop (key : UnitKey)
  | addUnschedulableIfNotPresent (env : Env) (unitInfo : QueuedUnitInfo) (cycle : ℤ)
  | activePodGroupUnit (env : Env) (unitKey : UnitKey)
  | moveAllToActiveOrBackoffQueue (env : Env)
  | assignedPod (env : Env) (matchesTerm : Pod → Bool)
  | flushBackoffQCompleted (env : Env)
  | flushUnschedulableQLeftover (env : Env)
  | flushScheduledUnitsInWaitingQ (env : Env)
  | flushWaitingPodsList (env : Env)

def step (p : PriorityQueue) : Op → PriorityQueue
  | .add env pod => p.add env pod
  | .update env oldPod newPod => p.update h env oldPod newPod
  | .delete env pod => p.delete env pod
  | .pop key => ((p.pop key).map Prod.snd).getD p
  | .addUnschedulableIfNotPresent env unitInfo cycle =>
    p.addUnschedulableIfNotPresent env unitInfo cycle
  | .activePodGroupUnit env unitKey => p.activePodGroupUnit env unitKey
  | .moveAllToActiveOrBackoffQueue env => p.moveAllToActiveOrBackoffQueue h env
  | .assignedPod env matchesTerm => p.assignedPod h env matchesTerm
  | .flushBackoffQCompleted env => p.flushBackoffQCompleted h env
  | .flushUnschedulableQLeftover env => p.flushUnschedulableQLeftover h env
  | .flushScheduledUnitsInWaitingQ env => p.flushScheduledUnitsInWaitingQ env
  | .flushWaitingPodsList env => p.flushWaitingPodsList env

end PriorityQueue

end GodelScheduler.Queue
