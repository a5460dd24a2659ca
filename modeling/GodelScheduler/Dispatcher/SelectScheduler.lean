import GodelScheduler.Dispatcher.DispatchInfo

/-!
# Selecting a scheduler for a pod

A pod is sent to the most idle registered scheduler. With rescheduling on, the pods
of one owner go to one scheduler for as long as some of them are not bound, so the
scheduler of an owner is remembered, and a remembered scheduler is taken before the
registered ones are looked at. The pods of a unit follow the scheduler of the unit.

Removing a scheduler from `DispatchInfo` leaves the memory of the owners as it is.
`selectScheduler_registered_iff` says that this is the only way to an unregistered
scheduler outside the units.
-/

namespace GodelScheduler.Dispatcher

open Library

def generatePodKey (pod : Pod) : String := pod.ns ++ "/" ++ pod.name ++ "/" ++ pod.uid

namespace DispatchInfo

def getPodsOfOneScheduler (dq : DispatchInfo) (order : RangeOrder String)
    (schedulerName : String) : List String :=
  (order.list (dq.schedulerToPods.podsOf schedulerName).keys).filterMap fun key =>
    (dq.pods.lookup key).map PodInfo.podKey

end DispatchInfo

structure OwnerPodsInfo where
  schedulerName : String := ""
  unBoundPods : GoSet String := ∅
  deriving DecidableEq

structure OwnerInfos where
  ownerToUnboundPods : GoMap String OwnerPodsInfo := ∅
  podToOwner : GoMap String String := ∅
  deriving DecidableEq

variable (oInfo : OwnerInfos)

namespace OwnerInfos

def getOwnerScheduler (podOwner : String) : String :=
  match oInfo.ownerToUnboundPods.lookup podOwner with
  | some ownerPodsInfo => ownerPodsInfo.schedulerName
  | none => ""

def addPod (podOwner podKey schedulerName : String) : OwnerInfos :=
  let ownerPodsInfo := (oInfo.ownerToUnboundPods.lookup podOwner).getD {}
  { ownerToUnboundPods := oInfo.ownerToUnboundPods.insert podOwner
      ⟨schedulerName, ownerPodsInfo.unBoundPods.insert podKey ()⟩
    podToOwner := oInfo.podToOwner.insert podKey podOwner }

def addDispatchedUnboundPod (pod : Pod) (schedulerName : String) : OwnerInfos :=
  if schedulerName = "" then oInfo
  else if pod.getPodOwnerInfoKey = "" then oInfo
  else oInfo.addPod pod.getPodOwnerInfoKey (generatePodKey pod) schedulerName

/-- A scheduler already remembered for the owner is kept; the one that counts is returned. -/
def setDispatchedUnboundPod (pod : Pod) (schedulerName : String) : OwnerInfos × String :=
  if schedulerName = "" then (oInfo, schedulerName)
  else if pod.getPodOwnerInfoKey = "" then (oInfo, schedulerName)
  else
    let existingScheduler := oInfo.getOwnerScheduler pod.getPodOwnerInfoKey
    let schedulerName :=
      if existingScheduler ≠ "" ∧ existingScheduler ≠ schedulerName then existingScheduler
      else schedulerName
    (oInfo.addPod pod.getPodOwnerInfoKey (generatePodKey pod) schedulerName, schedulerName)

def deleteDispatchedUnboundPod (pod : Pod) : OwnerInfos :=
  let podKey := generatePodKey pod
  let podOwner := (oInfo.podToOwner.lookup podKey).getD ""
  let ownerToUnboundPods :=
    match oInfo.ownerToUnboundPods.lookup podOwner with
    | none => oInfo.ownerToUnboundPods
    | some ownerPodsInfo =>
      let unBoundPods := ownerPodsInfo.unBoundPods.erase podKey
      if GoMap.len unBoundPods = 0 then oInfo.ownerToUnboundPods.erase podOwner
      else oInfo.ownerToUnboundPods.insert podOwner { ownerPodsInfo with unBoundPods }
  ⟨ownerToUnboundPods, oInfo.podToOwner.erase podKey⟩

def selectSchedulerAndSetDispatchedUnboundPod (pod : Pod) : OwnerInfos × String :=
  if pod.getPodOwnerInfoKey = "" then (oInfo, "")
  else
    let schedulerName := oInfo.getOwnerScheduler pod.getPodOwnerInfoKey
    if schedulerName ≠ "" then
      (oInfo.addPod pod.getPodOwnerInfoKey (generatePodKey pod) schedulerName, schedulerName)
    else (oInfo, schedulerName)

end OwnerInfos

/-- What the dispatcher is told while it selects a scheduler. -/
structure Answers where
  /-- The order in which the schedulers are visited and the draws between equally idle ones. -/
  order : RangeOrder String := .forward
  intn : String → ℕ → ℕ := fun _ _ => 0
  /-- The error of the pod-group lister. -/
  podGroupErr : Option String := none
  /-- The scheduler named by a listed pod of the group, empty if none names one. -/
  assignedSchedulerFromPods : Except String String := .ok ""
  /-- The maintainer knows the scheduler and has it in its active queue. -/
  schedulerActive : String → Bool := fun _ => true

structure DispatcherState where
  dispatchInfo : DispatchInfo := .newDispatchInfo
  ownerInfos : OwnerInfos := {}
  /-- The scheduler assigned to each unit, empty if there is none. -/
  unitSchedulers : GoMap String String := ∅

variable (supportRescheduling : Bool) (d : DispatcherState) (pod : Pod)

namespace DispatcherState

def loadBalancing (a : Answers) : DispatcherState × Except String String :=
  let (dispatchInfo, schedulerName) :=
    d.dispatchInfo.getMostIdleSchedulerAndAddPodInAdvance pod a.order a.intn
  let d := { d with dispatchInfo }
  if schedulerName.length = 0 then (d, .error "no scheduler registered")
  else (d, .ok schedulerName)

def selectSchedulerBasedOnOwner (a : Answers) : DispatcherState × Except String String :=
  let (ownerInfos, schedulerName) := d.ownerInfos.selectSchedulerAndSetDispatchedUnboundPod pod
  let d := { d with ownerInfos }
  if schedulerName ≠ "" then
    ({ d with dispatchInfo := d.dispatchInfo.addPodInAdvance pod schedulerName }, .ok schedulerName)
  else
    match d.loadBalancing pod a with
    | (d, .error err) => (d, .error err)
    | (d, .ok schedulerName) =>
      if schedulerName ≠ "" then
        let (ownerInfos, gotSchedulerName) :=
          d.ownerInfos.setDispatchedUnboundPod pod schedulerName
        let d := { d with ownerInfos }
        if gotSchedulerName ≠ schedulerName then
          ({ d with dispatchInfo := d.dispatchInfo.updatePodInAdvance pod gotSchedulerName },
            .ok gotSchedulerName)
        else (d, .ok gotSchedulerName)
      else (d, .ok schedulerName)

def pickScheduler (a : Answers) : DispatcherState × Except String String :=
  if supportRescheduling then d.selectSchedulerBasedOnOwner pod a else d.loadBalancing pod a

/-- The error of an assignment to a unit that already follows another scheduler. -/
def assignedError (unitKey assigned schedName : String) : String :=
  "scheduler: " ++ assigned ++ " is ever assigned to unit: " ++ unitKey ++
    ", so can not set the newly selected scheduler: " ++ schedName ++ " to that unit"

def assignSchedulerToPodGroupUnit (unitKey schedName : String)
    (forceUpdate : Bool) : DispatcherState × Option String :=
  let assigned := (d.unitSchedulers.lookup unitKey).getD ""
  if ¬ forceUpdate ∧ assigned ≠ "" ∧ assigned ≠ schedName then
    (d, some (assignedError unitKey assigned schedName))
  else ({ d with unitSchedulers := d.unitSchedulers.insert unitKey schedName }, none)

def getAssignedScheduler (unitKey : String) (a : Answers) :
    DispatcherState × Except String String :=
  let cachedSched := (d.unitSchedulers.lookup unitKey).getD ""
  if cachedSched ≠ "" then (d, .ok cachedSched)
  else
    match a.assignedSchedulerFromPods with
    | .error err => (d, .error err)
    | .ok schedName =>
      if schedName ≠ "" then
        match d.assignSchedulerToPodGroupUnit unitKey schedName false with
        | (d, some err) => (d, .error err)
        | (d, none) => (d, .ok schedName)
      else (d, .ok schedName)

def selectSchedulerForUnit (unitKey : String)
    (pod : Pod) (a : Answers) : DispatcherState × Except String String :=
  match d.getAssignedScheduler unitKey a with
  | (d, .error err) => (d, .error err)
  | (d, .ok assigned) =>
    if assigned ≠ "" ∧ a.schedulerActive assigned then
      ({ d with
          dispatchInfo := d.dispatchInfo.addPodInAdvance pod assigned
          ownerInfos :=
            if supportRescheduling then d.ownerInfos.addDispatchedUnboundPod pod assigned
            else d.ownerInfos },
        .ok assigned)
    else
      match d.pickScheduler supportRescheduling pod a with
      | (d, .error err) => (d, .error err)
      | (d, .ok schedName) =>
        match d.assignSchedulerToPodGroupUnit unitKey schedName (assigned.length ≠ 0) with
        | (d, some err) => (d, .error err)
        | (d, none) => (d, .ok schedName)

def selectScheduler (a : Answers) : DispatcherState × Except String String :=
  match pod.podGroupName with
  | some pgName =>
    match a.podGroupErr with
    | some err => (d, .error err)
    | none => d.selectSchedulerForUnit supportRescheduling (pod.ns ++ "/" ++ pgName) pod a
  | none => d.pickScheduler supportRescheduling pod a

/-- A pod whose patch fails is taken back from the records. -/
def sendPodToScheduler (patchFails : Bool) : DispatcherState :=
  if patchFails then
    { d with
      dispatchInfo := d.dispatchInfo.removePod pod
      ownerInfos :=
        if supportRescheduling then d.ownerInfos.deleteDispatchedUnboundPod pod
        else d.ownerInfos }
  else d

def dispatchingPod (a : Answers) (patchFails : Bool) : DispatcherState :=
  match d.selectScheduler supportRescheduling pod a with
  | (d, .error _) => d
  | (d, .ok _) => d.sendPodToScheduler supportRescheduling pod patchFails

/-- The scheduler is unregistered, and the reconciler takes its pods out of the record. -/
def deleteScheduler (d : DispatcherState) (schedulerName : String) (order : RangeOrder String) :
    DispatcherState :=
  let dispatchInfo := d.dispatchInfo.deleteScheduler schedulerName
  { d with
    dispatchInfo := (dispatchInfo.getPodsOfOneScheduler order schedulerName).foldl
      DispatchInfo.removePodByKey dispatchInfo }

def addPodToOwnerInfo : DispatcherState :=
  { d with
    ownerInfos := d.ownerInfos.addDispatchedUnboundPod pod (pod.scheduler.getD "") }

def deletePodFromOwnerInfo : DispatcherState :=
  { d with ownerInfos := d.ownerInfos.deleteDispatchedUnboundPod pod }

end DispatcherState

inductive Event
  | addScheduler (schedulerName : String)
  | deleteScheduler (schedulerName : String) (order : RangeOrder String)
  | dispatchingPod (pod : Pod) (a : Answers) (patchFails : Bool)
  | addPodToDispatchedInfo (pod : Pod)
  | deletePodFromDispatchedInfo (pod : Pod)
  /-- The handlers of the owners' pods, registered with rescheduling on. -/
  | addPodToOwnerInfo (pod : Pod)
  | deletePodFromOwnerInfo (pod : Pod)

namespace DispatcherState

def step : Event → DispatcherState
  | .addScheduler schedulerName =>
    { d with dispatchInfo := d.dispatchInfo.addScheduler schedulerName }
  | .deleteScheduler schedulerName order => d.deleteScheduler schedulerName order
  | .dispatchingPod pod a patchFails => d.dispatchingPod supportRescheduling pod a patchFails
  | .addPodToDispatchedInfo pod => { d with dispatchInfo := d.dispatchInfo.addPod pod }
  | .deletePodFromDispatchedInfo pod => { d with dispatchInfo := d.dispatchInfo.removePod pod }
  | .addPodToOwnerInfo pod => if supportRescheduling then d.addPodToOwnerInfo pod else d
  | .deletePodFromOwnerInfo pod =>
    if supportRescheduling then d.deletePodFromOwnerInfo pod else d

/-- A scheduler remembered for the pod's owner, if there is one, is registered. -/
def RemembersRegistered : Prop :=
  pod.getPodOwnerInfoKey ≠ "" → d.ownerInfos.getOwnerScheduler pod.getPodOwnerInfoKey ≠ "" →
    d.ownerInfos.getOwnerScheduler pod.getPodOwnerInfoKey ∈ d.dispatchInfo.schedulers

/-- A name selected without error is registered at that time. -/
def SelectsRegistered (a : Answers) : Prop :=
  ∀ schedulerName, (d.selectScheduler supportRescheduling pod a).2 = .ok schedulerName →
    schedulerName ≠ "" →
      schedulerName ∈ (d.selectScheduler supportRescheduling pod a).1.dispatchInfo.schedulers

end DispatcherState

namespace DispatchInfo

variable {dq : DispatchInfo}

theorem mostIdleScheduler_mem (order : RangeOrder String) (intn : String → ℕ → ℕ) :
    dq.mostIdleScheduler order intn = "" ∨ dq.mostIdleScheduler order intn ∈ dq.schedulers := by
  unfold mostIdleScheduler
  -- the result is one of the schedulers already visited
  refine foldl_of_step (P := fun _ (r : Reservoir) => r.result = "" ∨ r.result ∈ dq.schedulers)
    (order.list dq.schedulers.keys) (Or.inl rfl) fun done schedulerName rest r hl hr => ?_
  have hmem : schedulerName ∈ dq.schedulers := by
    rw [AList.mem_keys, ← RangeOrder.mem_list order, hl]
    simp
  simp only [Reservoir.visit]
  split_ifs
  · exact Or.inr hmem
  · exact Or.inr hmem
  · exact hr
  · exact hr

end DispatchInfo

namespace OwnerInfos

variable {oInfo : OwnerInfos} {pod : Pod} {schedulerName : String}

/-- The scheduler remembered for the pod's owner, empty without an owner. -/
def remembered (oInfo : OwnerInfos) (pod : Pod) : String :=
  if pod.getPodOwnerInfoKey = "" then "" else oInfo.getOwnerScheduler pod.getPodOwnerInfoKey

theorem selectSchedulerAndSetDispatchedUnboundPod_snd :
    (oInfo.selectSchedulerAndSetDispatchedUnboundPod pod).2 = oInfo.remembered pod := by
  unfold selectSchedulerAndSetDispatchedUnboundPod remembered
  split_ifs with howner
  · rfl
  · dsimp only
    split_ifs <;> rfl

theorem selectSchedulerAndSetDispatchedUnboundPod_of_remembered (h : oInfo.remembered pod = "") :
    (oInfo.selectSchedulerAndSetDispatchedUnboundPod pod).1 = oInfo := by
  unfold remembered at h
  unfold selectSchedulerAndSetDispatchedUnboundPod
  split_ifs at h ⊢ with howner
  · rfl
  · dsimp only
    rw [if_neg (not_not.mpr h)]

theorem setDispatchedUnboundPod_of_remembered (h : oInfo.remembered pod = "") :
    (oInfo.setDispatchedUnboundPod pod schedulerName).2 = schedulerName := by
  unfold remembered at h
  unfold setDispatchedUnboundPod
  split_ifs at h ⊢
  · rfl
  · rfl
  · rfl
  · dsimp only
    rw [if_neg fun hexisting => hexisting.1 h]

end OwnerInfos

namespace DispatcherState

variable {d : DispatcherState} {pod : Pod} {a : Answers} {schedulerName : String}

theorem ownerInfos_loadBalancing : (d.loadBalancing pod a).1.ownerInfos = d.ownerInfos := by
  simp only [loadBalancing]
  split_ifs <;> rfl

theorem schedulers_loadBalancing :
    (d.loadBalancing pod a).1.dispatchInfo.schedulers = d.dispatchInfo.schedulers := by
  have hsame : (d.loadBalancing pod a).1.dispatchInfo =
      (d.dispatchInfo.getMostIdleSchedulerAndAddPodInAdvance pod a.order a.intn).1 := by
    simp only [loadBalancing]
    split_ifs <;> rfl
  rw [hsame, DispatchInfo.getMostIdleSchedulerAndAddPodInAdvance]
  split_ifs <;> rfl

theorem mem_of_loadBalancing (h : (d.loadBalancing pod a).2 = .ok schedulerName) :
    schedulerName ∈ d.dispatchInfo.schedulers := by
  have hresult : (d.loadBalancing pod a).2 =
      if (d.dispatchInfo.mostIdleScheduler a.order a.intn).length = 0 then
        .error "no scheduler registered"
      else .ok (d.dispatchInfo.mostIdleScheduler a.order a.intn) :=
    apply_ite Prod.snd _ _ _
  rw [hresult] at h
  split_ifs at h with hlen
  obtain rfl := Except.ok.inj h
  rcases DispatchInfo.mostIdleScheduler_mem a.order a.intn with hempty | hmem
  · exact absurd (congrArg String.length hempty) hlen
  · exact hmem

theorem selectSchedulerBasedOnOwner_of_remembered (h : d.ownerInfos.remembered pod ≠ "") :
    (d.selectSchedulerBasedOnOwner pod a).2 = .ok (d.ownerInfos.remembered pod) ∧
      (d.selectSchedulerBasedOnOwner pod a).1.dispatchInfo.schedulers =
        d.dispatchInfo.schedulers := by
  rw [← OwnerInfos.selectSchedulerAndSetDispatchedUnboundPod_snd] at h ⊢
  simp only [selectSchedulerBasedOnOwner, if_pos h]
  exact ⟨trivial, rfl⟩

theorem selectSchedulerBasedOnOwner_of_not_remembered (h : d.ownerInfos.remembered pod = "") :
    (d.selectSchedulerBasedOnOwner pod a).2 = (d.loadBalancing pod a).2 ∧
      (d.selectSchedulerBasedOnOwner pod a).1.dispatchInfo.schedulers =
        d.dispatchInfo.schedulers := by
  have hname := OwnerInfos.selectSchedulerAndSetDispatchedUnboundPod_snd.trans h
  have hinfos := OwnerInfos.selectSchedulerAndSetDispatchedUnboundPod_of_remembered h
  have howners := @ownerInfos_loadBalancing d pod a
  have hschedulers := @schedulers_loadBalancing d pod a
  simp only [selectSchedulerBasedOnOwner, hname, hinfos, ne_eq, not_true_eq_false, if_false]
  rcases hrun : d.loadBalancing pod a with ⟨d', _ | schedulerName⟩
  · rw [hrun] at hschedulers
    exact ⟨rfl, hschedulers⟩
  · rw [hrun] at howners hschedulers
    have hset : (d'.ownerInfos.setDispatchedUnboundPod pod schedulerName).2 = schedulerName :=
      OwnerInfos.setDispatchedUnboundPod_of_remembered (by rw [howners, h])
    dsimp only at hschedulers ⊢
    rw [hset, if_neg (not_not.mpr rfl)]
    split_ifs
    · exact ⟨rfl, hschedulers⟩
    · exact ⟨rfl, hschedulers⟩

theorem remembersRegistered_iff :
    d.RemembersRegistered pod ↔
      (d.ownerInfos.remembered pod ≠ "" →
        d.ownerInfos.remembered pod ∈ d.dispatchInfo.schedulers) := by
  unfold RemembersRegistered OwnerInfos.remembered
  split_ifs with howner
  · simp [howner]
  · simp [howner]

theorem selectsRegistered_of_loadBalancing {supportRescheduling : Bool}
    (hname : (d.selectScheduler supportRescheduling pod a).2 = (d.loadBalancing pod a).2)
    (hschedulers : (d.selectScheduler supportRescheduling pod a).1.dispatchInfo.schedulers =
      d.dispatchInfo.schedulers) : d.SelectsRegistered supportRescheduling pod a := by
  intro schedulerName hselected _
  rw [hschedulers]
  exact mem_of_loadBalancing (hname.symm.trans hselected)

/-- In every state reached by registrations and removals of schedulers and by dispatches,
additions and deletions of pods, a pod outside the units is sent to a registered scheduler just
when rescheduling is off or the scheduler remembered for its owner is registered. -/
theorem selectScheduler_registered_iff (supportRescheduling : Bool) (events : List Event)
    (pod : Pod) (hgroup : pod.podGroupName = none) (a : Answers) :
    (run (step supportRescheduling) {} events).SelectsRegistered supportRescheduling pod a ↔
      (supportRescheduling = true →
        (run (step supportRescheduling) {} events).RemembersRegistered pod) := by
  generalize run (step supportRescheduling) {} events = d
  have hselect : d.selectScheduler supportRescheduling pod a =
      d.pickScheduler supportRescheduling pod a := by
    rw [selectScheduler, hgroup]
  cases supportRescheduling with
  | false =>
    refine iff_of_true ?_ (by simp)
    exact selectsRegistered_of_loadBalancing (congrArg Prod.snd hselect)
      ((congrArg (·.1.dispatchInfo.schedulers) hselect).trans schedulers_loadBalancing)
  | true =>
    have hpick : d.selectScheduler true pod a = d.selectSchedulerBasedOnOwner pod a := hselect
    rw [remembersRegistered_iff]
    by_cases hremembered : d.ownerInfos.remembered pod = ""
    · obtain ⟨hname, hschedulers⟩ :=
        selectSchedulerBasedOnOwner_of_not_remembered hremembered
      rw [← hpick] at hname hschedulers
      exact iff_of_true (selectsRegistered_of_loadBalancing hname hschedulers)
        fun _ hne => absurd hremembered hne
    · obtain ⟨hname, hschedulers⟩ := selectSchedulerBasedOnOwner_of_remembered hremembered
      rw [← hpick] at hname hschedulers
      unfold SelectsRegistered
      rw [hname, hschedulers]
      constructor
      · intro hselects _ _
        exact hselects _ rfl hremembered
      · intro hregistered schedulerName hselected _
        obtain rfl := Except.ok.inj hselected
        exact hregistered rfl hremembered

namespace SelectionExample

def replica (uid name : String) : Pod :=
  { uid, ns := "default", name, ownerReferences := [⟨"ReplicaSet", "web", "o"⟩] }

def first : Pod := replica "u1" "web-1"

def second : Pod := replica "u2" "web-2"

/-- The scheduler the first pod went to is removed, and another one registers. -/
def events : List Event :=
  [.addScheduler "s1", .dispatchingPod first {} false, .deleteScheduler "s1" .forward,
    .addScheduler "s2"]

end SelectionExample

open SelectionExample in
/-- The second pod of an owner whose scheduler is still registered. -/
theorem selectScheduler_registered_second : second.podGroupName = none ∧
    (run (step true) {} (events.take 2)).SelectsRegistered true second {} := by
  refine ⟨rfl, ?_⟩
  refine (selectScheduler_registered_iff true (events.take 2) second rfl {}).mpr fun _ => ?_
  unfold RemembersRegistered
  decide

open SelectionExample in
/-- The second pod follows the first one to a scheduler that is gone. -/
theorem selectScheduler_follows_removed :
    let d := run (step true) {} events
    second.podGroupName = none ∧ (d.selectScheduler true second {}).2 = .ok "s1" ∧
      "s1" ∉ (d.selectScheduler true second {}).1.dispatchInfo.schedulers ∧
      "s2" ∈ d.dispatchInfo.schedulers ∧ ¬ d.SelectsRegistered true second {} := by
  intro d
  have hname : (d.selectScheduler true second {}).2 = .ok "s1" := by decide
  have hgone : "s1" ∉ (d.selectScheduler true second {}).1.dispatchInfo.schedulers := by decide
  exact ⟨rfl, hname, hgone, by decide, fun h => hgone (h "s1" hname (by decide))⟩

end DispatcherState

end GodelScheduler.Dispatcher
