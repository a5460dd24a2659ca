import GodelScheduler.Library.Shelves
import GodelScheduler.Queue.PriorityQueue

/-!
# The binder's priority queue

Assumed pods wait for the binder in units, in one of three keyed sub-queues. A
pod whose unit cannot be created yet waits in the waiting pods list, by its UID,
until `checkWaitingPod` adds it again.

A unit refers to its pod infos, and an update writes the new pod into the info
it finds. If the new pod has another UID, the info is entered under that UID
too, and the entry under the old UID stays: two entries then share one info.
So the infos live in a store of their own, and units hold references into it.

The order of the ready queue decides which unit `Pop` serves; here `pop` serves
any given unit of it. The order of the backoff queue is the backoff time. The
listers and the orders of map loops may differ from one call to the next.
-/

namespace GodelScheduler.BinderQueue

open Library Queue

abbrev InfoRef := ℕ

abbrev Infos := InfoRef → QueuedPodInfo

inductive UnitPods
  | podGroup (minMember : ℤ) (queuedPodInfoMap : GoMap String InfoRef)
  /-- A single pod unit of a queue has its pod. -/
  | singlePod (pod : InfoRef)
  deriving DecidableEq

namespace UnitPods

def readyToBePopulated : UnitPods → Bool
  | podGroup minMember pods => decide (minMember ≤ pods.len)
  | singlePod _ => true

/-- A group looks up the UID in its map, a single pod unit compares it with that of its pod. -/
def getPod (infos : Infos) : UnitPods → String → Option InfoRef
  | podGroup _ pods, uid => pods.lookup uid
  | singlePod ref, uid => if (infos ref).uid = uid then some ref else none

def getPods (o : RangeOrder String) : UnitPods → List InfoRef
  | podGroup _ pods => (o.list pods.keys).filterMap pods.lookup
  | singlePod ref => [ref]

/-- `AddPod` and `UpdatePod`. -/
def addPod (infos : Infos) : UnitPods → InfoRef → UnitPods
  | podGroup minMember pods, ref => podGroup minMember (pods.insert (infos ref).uid ref)
  | singlePod _, ref => singlePod ref

end UnitPods

structure UnitInfo where
  unitKey : UnitKey
  pods : UnitPods
  timestamp : ℤ
  attempts : ℕ := 0
  deriving DecidableEq

def UnitInfo.addPod (u : UnitInfo) (infos : Infos) (ref : InfoRef) : UnitInfo :=
  { u with pods := u.pods.addPod infos ref }

theorem UnitInfo.unitKey_addPod (u : UnitInfo) (infos : Infos) (ref : InfoRef) :
    (u.addPod infos ref).unitKey = u.unitKey :=
  rfl

/-- The unit of a group with other pods. -/
def UnitInfo.withPods (u : UnitInfo) (minMember : ℤ) (pods : GoMap String InfoRef) : UnitInfo :=
  { u with pods := .podGroup minMember pods }

theorem UnitInfo.unitKey_withPods (u : UnitInfo) (minMember : ℤ) (pods : GoMap String InfoRef) :
    (u.withPods minMember pods).unitKey = u.unitKey :=
  rfl

def UnitInfo.readyToBePopulated (u : UnitInfo) : Bool := u.pods.readyToBePopulated

/-- The binder's `CreateScheduleUnit`: the unit holds the pod it is created for. -/
def createScheduleUnit (listers : Listers) (infos : Infos) (ref : InfoRef) :
    Except String UnitPods :=
  let pod := (infos ref).pod
  if getPodGroupName pod ≠ "" then
    match listers.podGroup pod.ns (getPodGroupName pod) with
    | .error err =>
      .error s!"can not find pod group {pod.ns}/{getPodGroupName pod}, error: {err}"
    | .ok podGroup =>
      let unit := (UnitPods.podGroup podGroup.minMember ∅).addPod infos ref
      if podGroup.priorityClassName = "" then .ok unit
      else
        match listers.priorityClass podGroup.priorityClassName with
        | .error err => .error err
        | .ok _ => .ok unit
  else .ok (.singlePod ref)

/-- What a call sees of the world. -/
structure Env where
  now : ℤ
  listers : Listers
  /-- The order of the loops over maps by UID. -/
  order : RangeOrder String

structure BackoffConfig where
  podInitialBackoffDuration : ℤ
  podMaxBackoffDuration : ℤ

namespace BackoffConfig

def doubled (maxDuration : ℤ) : ℕ → ℤ → ℤ
  | 0, duration => duration
  | n + 1, duration =>
    if duration * 2 > maxDuration then maxDuration else doubled maxDuration n (duration * 2)

def calculateBackoffDuration (cfg : BackoffConfig) (unit : UnitInfo) : ℤ :=
  doubled cfg.podMaxBackoffDuration (unit.attempts - 1) cfg.podInitialBackoffDuration

def getUnitBackoffTime (cfg : BackoffConfig) (unit : UnitInfo) : ℤ :=
  unit.timestamp + cfg.calculateBackoffDuration unit

end BackoffConfig

inductive QueueName
  | waitingUnitQ
  | unitBackoffQ
  | readyUnitQ
  deriving DecidableEq, Repr

structure PriorityQueue where
  queues : QueueName → KeyedStore UnitInfo.unitKey
  waitingPodsList : GoMap String InfoRef
  infos : Infos
  /-- The first unused reference. -/
  next : InfoRef
  /-- `GetUnitSchedulingStatus` of the binder cache. -/
  status : UnitKey → SchedulingStatus

variable (q : PriorityQueue) (env : Env)

namespace PriorityQueue

def new (status : UnitKey → SchedulingStatus) : PriorityQueue where
  queues _ := .empty _
  waitingPodsList := ∅
  infos _ := ⟨{ uid := "", ns := "", name := "" }, 0, 0⟩
  next := 0
  status := status

/-- `Add` and `Update` of a heap. -/
def put (queue : QueueName) (unit : UnitInfo) : PriorityQueue :=
  { q with queues := Function.update q.queues queue ((q.queues queue).add unit) }

def remove (queue : QueueName) (key : UnitKey) : PriorityQueue :=
  { q with queues := Function.update q.queues queue ((q.queues queue).deleteByKey key) }

def newInfo (info : QueuedPodInfo) : PriorityQueue :=
  { q with infos := Function.update q.infos q.next info, next := q.next + 1 }

/-- `updatePod`. -/
def setPod (ref : InfoRef) (pod : Pod) : PriorityQueue :=
  { q with infos := Function.update q.infos ref { q.infos ref with pod := pod } }

def getUnit (key : UnitKey) : Option (QueueName × UnitInfo) :=
  [QueueName.waitingUnitQ, .unitBackoffQ, .readyUnitQ].findSome? fun queue =>
    ((q.queues queue).getByKey key).map fun unit => (queue, unit)

/-- The test before a unit enters the ready queue. -/
def ready (unit : UnitInfo) : Bool :=
  unit.readyToBePopulated || q.status unit.unitKey == .scheduledStatus

def addToPodWaitList (ref : InfoRef) : PriorityQueue :=
  { q with waitingPodsList := q.waitingPodsList.insert (q.infos ref).uid ref }

def addPodUsingAnnotations (q : PriorityQueue) (ref : InfoRef) : PriorityQueue :=
  let key := getUnitIdentifier (q.infos ref).pod
  match q.getUnit key with
  | none =>
    match createScheduleUnit env.listers q.infos ref with
    | .error _ => q.addToPodWaitList ref
    | .ok pods =>
      let unit : UnitInfo := { unitKey := key, pods := pods, timestamp := env.now }
      if q.ready unit then q.put .readyUnitQ unit else q.put .waitingUnitQ unit
  | some (queue, unit) =>
    let unit := unit.addPod q.infos ref
    match queue with
    | .waitingUnitQ =>
      if q.ready unit then (q.remove .waitingUnitQ key).put .readyUnitQ unit
      else q.put .waitingUnitQ unit
    | .readyUnitQ => q.put .readyUnitQ unit
    | .unitBackoffQ => q.put .unitBackoffQ unit

def add (pod : Pod) : PriorityQueue :=
  (q.newInfo (newQueuedPodInfo pod env.now)).addPodUsingAnnotations env q.next

/-- A unit that is not complete leaves the ready queue if its status is scheduled. The comparison
is the other way round everywhere else. -/
def updateUnit (queue : QueueName) (unit : UnitInfo) : PriorityQueue :=
  if queue = .readyUnitQ then
    if !unit.readyToBePopulated && q.status unit.unitKey == .scheduledStatus then
      (q.remove .readyUnitQ unit.unitKey).put .waitingUnitQ unit
    else q.put .readyUnitQ unit
  else q.put queue unit

/-- The unit of a pod with the info it has under the pod's UID. -/
def findPod (pod : Pod) : Option (QueueName × UnitInfo × InfoRef) :=
  (q.getUnit (getUnitIdentifier pod)).bind fun (queue, unit) =>
    (unit.pods.getPod q.infos pod.uid).map fun ref => (queue, unit, ref)

def update (oldPod : Option Pod) (newPod : Pod) : PriorityQueue :=
  match oldPod with
  | none => q.add env newPod
  | some oldPod =>
    match q.findPod oldPod with
    | some (queue, unit, ref) =>
      let q := q.setPod ref newPod
      q.updateUnit queue (unit.addPod q.infos ref)
    | none =>
      match q.waitingPodsList.lookup oldPod.uid with
      | some ref => q.setPod ref newPod
      | none => q.add env newPod

def delete (pod : Pod) : PriorityQueue :=
  match q.getUnit (getUnitIdentifier pod) with
  | none => { q with waitingPodsList := q.waitingPodsList.erase pod.uid }
  | some (queue, unit) =>
    match unit.pods with
    | .singlePod ref =>
      if (q.infos ref).uid = pod.uid then q.remove queue unit.unitKey else q
    | .podGroup minMember pods =>
      if pods.len = 1 then
        if (pods.lookup pod.uid).isSome then q.remove queue unit.unitKey else q
      else q.updateUnit queue (unit.withPods minMember (pods.erase pod.uid))

def pop (key : UnitKey) : Option (UnitInfo × PriorityQueue) :=
  ((q.queues .readyUnitQ).getByKey key).map fun unit =>
    ({ unit with attempts := unit.attempts + 1 }, q.remove .readyUnitQ key)

/-- The units whose backoff is over, by their backoff times. -/
def moveToReadyQueue (cfg : BackoffConfig) (q : PriorityQueue) (env : Env) : PriorityQueue :=
  let byBackoffTime := (q.queues .unitBackoffQ).list.insertionSort
    fun u v => cfg.getUnitBackoffTime u ≤ cfg.getUnitBackoffTime v
  (byBackoffTime.takeWhile fun unit => decide (cfg.getUnitBackoffTime unit ≤ env.now)).foldl
    (fun q unit => (q.remove .unitBackoffQ unit.unitKey).put .readyUnitQ unit) q

def checkWaitingPod : PriorityQueue :=
  ((env.order.list q.waitingPodsList.keys).filterMap q.waitingPodsList.lookup).foldl
    (addPodUsingAnnotations env) { q with waitingPodsList := ∅ }

/-- One turn of the loop that merges the unit of a queue into the unit handed back. -/
def mergePod (infos : Infos) (unit : UnitInfo) (ref : InfoRef) : UnitInfo :=
  if (unit.pods.getPod infos (infos ref).uid).isNone then unit.addPod infos ref else unit

def addUnitPreemptor (unit : UnitInfo) : PriorityQueue :=
  let refs := unit.pods.getPods env.order
  let q := { q with infos := fun ref =>
    if ref ∈ refs then { q.infos ref with timestamp := env.now } else q.infos ref }
  let unit := { unit with timestamp := env.now }
  match q.getUnit unit.unitKey with
  | some (queue, preUnit) =>
    (q.remove queue preUnit.unitKey).put .unitBackoffQ
      ((preUnit.pods.getPods env.order).foldl (mergePod q.infos) unit)
  | none => q.put .unitBackoffQ unit

def activeWaitingUnit (key : UnitKey) : PriorityQueue :=
  match q.getUnit key with
  | some (.waitingUnitQ, unit) =>
    if q.ready unit then (q.remove .waitingUnitQ key).put .readyUnitQ unit else q
  | _ => q

/-- One call of the queue, or a change of a unit's scheduling status in the cache. An update is one
of the informer, which identifies a pod by its namespace and name. -/
inductive Op
  | add (env : Env) (pod : Pod)
  | update (env : Env) (oldPod : Option Pod) (newPod : Pod)
    (named : ∀ pod ∈ oldPod, pod.ns = newPod.ns ∧ pod.name = newPod.name)
  | delete (pod : Pod)
  | pop (key : UnitKey)
  | addUnitPreemptor (env : Env) (unit : UnitInfo)
  | activeWaitingUnit (key : UnitKey)
  | moveToReadyQueue (env : Env)
  | checkWaitingPod (env : Env)
  | setUnitSchedulingStatus (key : UnitKey) (status : SchedulingStatus)

def step (cfg : BackoffConfig) (q : PriorityQueue) : Op → PriorityQueue
  | .add env pod => q.add env pod
  | .update env oldPod newPod _ => q.update env oldPod newPod
  | .delete pod => q.delete pod
  | .pop key => ((q.pop key).map Prod.snd).getD q
  | .addUnitPreemptor env unit => q.addUnitPreemptor env unit
  | .activeWaitingUnit key => q.activeWaitingUnit key
  | .moveToReadyQueue env => q.moveToReadyQueue cfg env
  | .checkWaitingPod env => q.checkWaitingPod env
  | .setUnitSchedulingStatus key status =>
    { q with status := Function.update q.status key status }

section

variable (q : PriorityQueue)

@[simp] theorem infos_newInfo_next (info : QueuedPodInfo) :
    (q.newInfo info).infos q.next = info := by
  simp [newInfo]

@[simp] theorem pod_setPod (ref : InfoRef) (pod : Pod) :
    ((q.setPod ref pod).infos ref).pod = pod := by
  simp [setPod]

theorem getByKey_put (queue queue' : QueueName) (unit : UnitInfo) (key : UnitKey) :
    ((q.put queue unit).queues queue').getByKey key =
      if queue' = queue ∧ key = unit.unitKey then some unit else (q.queues queue').getByKey key :=
  Shelves.getByKey_put q.queues queue queue' unit key

theorem getByKey_remove (queue queue' : QueueName) (key key' : UnitKey) :
    ((q.remove queue key).queues queue').getByKey key' =
      if queue' = queue ∧ key' = key then none else (q.queues queue').getByKey key' :=
  Shelves.getByKey_drop q.queues queue queue' key key'

variable {q} {key : UnitKey} {queue : QueueName} {unit : UnitInfo}
  (h : q.getUnit key = some (queue, unit))

include h

theorem getByKey_of_getUnit : (q.queues queue).getByKey key = some unit := by
  unfold getUnit at h
  obtain ⟨queue', -, hqueue'⟩ := List.exists_of_findSome?_eq_some h
  obtain ⟨unit', hunit', heq⟩ := Option.map_eq_some_iff.mp hqueue'
  cases heq
  exact hunit'

theorem unitKey_of_getUnit : unit.unitKey = key :=
  KeyedStore.key_of_getByKey (getByKey_of_getUnit h)

theorem waiting_of_getUnit
    (hqueue : queue ≠ .waitingUnitQ) : (q.queues .waitingUnitQ).getByKey key = none := by
  unfold getUnit at h
  rw [List.findSome?_cons] at h
  cases hget : (q.queues .waitingUnitQ).getByKey key with
  | none => rfl
  | some unit' =>
    rw [hget] at h
    cases h
    exact absurd rfl hqueue

end

theorem findPod_eq_some {q : PriorityQueue} {pod : Pod} {queue : QueueName} {unit : UnitInfo}
    {ref : InfoRef} : q.findPod pod = some (queue, unit, ref) ↔
      q.getUnit (getUnitIdentifier pod) = some (queue, unit) ∧
        unit.pods.getPod q.infos pod.uid = some ref := by
  unfold findPod
  constructor
  · intro h
    obtain ⟨⟨queue', unit'⟩, hfound, hpod⟩ := Option.bind_eq_some_iff.mp h
    obtain ⟨ref', href, heq⟩ := Option.map_eq_some_iff.mp hpod
    cases heq
    exact ⟨hfound, href⟩
  · rintro ⟨hfound, href⟩
    simp [hfound, href]

/-- An update rewrites the unit found under the old pod, or it is that of a pod in the waiting list
or of a new pod. -/
theorem update_cases (oldPod : Option Pod) (newPod : Pod) :
    (∃ pod queue unit ref, oldPod = some pod ∧ q.findPod pod = some (queue, unit, ref) ∧
      q.update env oldPod newPod = (q.setPod ref newPod).updateUnit queue
        (unit.addPod (q.setPod ref newPod).infos ref)) ∨
    (∀ pod ∈ oldPod, q.findPod pod = none) ∧
      ((∃ ref, q.update env oldPod newPod = q.setPod ref newPod) ∨
        q.update env oldPod newPod = q.add env newPod) := by
  cases oldPod with
  | none => exact .inr ⟨by simp, .inr rfl⟩
  | some pod =>
    cases hfind : q.findPod pod with
    | some found =>
      obtain ⟨queue, unit, ref⟩ := found
      exact .inl ⟨pod, queue, unit, ref, rfl, hfind, by simp only [update, hfind]⟩
    | none =>
      refine .inr ⟨by simpa using hfind, ?_⟩
      cases hlookup : q.waitingPodsList.lookup pod.uid with
      | some ref => exact .inl ⟨ref, by simp only [update, hfind, hlookup]⟩
      | none => exact .inr (by simp only [update, hfind, hlookup])

theorem unitKey_mergePods (infos : Infos) (refs : List InfoRef) (unit : UnitInfo) :
    (refs.foldl (mergePod infos) unit).unitKey = unit.unitKey := by
  induction refs generalizing unit with
  | nil => rfl
  | cons ref refs ih =>
    rw [List.foldl_cons, ih, mergePod]
    split_ifs <;> rfl

/-- What adding an info can do: the pod waits outside a unit, it gets a unit of its own, it makes
the unit of the waiting queue ready, or it joins the unit where that is. -/
inductive Added (env : Env) (q : PriorityQueue) (ref : InfoRef) : PriorityQueue → Prop
  | waits : Added env q ref (q.addToPodWaitList ref)
  | created (unit : UnitInfo) (key : unit.unitKey = getUnitIdentifier (q.infos ref).pod)
      (created : createScheduleUnit env.listers q.infos ref = .ok unit.pods) :
      Added env q ref
        (if q.ready unit then q.put .readyUnitQ unit else q.put .waitingUnitQ unit)
  | activated (unit : UnitInfo)
      (found : q.getUnit (getUnitIdentifier (q.infos ref).pod) = some (.waitingUnitQ, unit))
      (ready : q.ready (unit.addPod q.infos ref) = true) :
      Added env q ref
        ((q.remove .waitingUnitQ unit.unitKey).put .readyUnitQ (unit.addPod q.infos ref))
  | joined (queue : QueueName) (unit : UnitInfo)
      (found : q.getUnit (getUnitIdentifier (q.infos ref).pod) = some (queue, unit)) :
      Added env q ref (q.put queue (unit.addPod q.infos ref))

theorem Added.kept {q q' : PriorityQueue} {ref : InfoRef} (h : Added env q ref q') :
    q'.infos = q.infos ∧ q'.status = q.status := by
  cases h with
  | waits => exact ⟨rfl, rfl⟩
  | created unit _ _ => split_ifs <;> exact ⟨rfl, rfl⟩
  | activated unit _ _ => exact ⟨rfl, rfl⟩
  | joined queue unit _ => exact ⟨rfl, rfl⟩

theorem added_addPodUsingAnnotations (q : PriorityQueue) (ref : InfoRef) :
    Added env q ref (q.addPodUsingAnnotations env ref) := by
  unfold addPodUsingAnnotations
  dsimp only
  cases hfound : q.getUnit (getUnitIdentifier (q.infos ref).pod) with
  | none =>
    cases hcreated : createScheduleUnit env.listers q.infos ref with
    | error err => exact .waits
    | ok pods => exact .created ⟨_, pods, env.now, 0⟩ rfl hcreated
  | some found =>
    obtain ⟨queue, unit⟩ := found
    cases queue with
    | waitingUnitQ =>
      dsimp only
      split_ifs with hready
      · rw [← unitKey_of_getUnit hfound]
        exact .activated unit hfound hready
      · exact .joined _ unit hfound
    | readyUnitQ => exact .joined _ unit hfound
    | unitBackoffQ => exact .joined _ unit hfound

end PriorityQueue

end GodelScheduler.BinderQueue
