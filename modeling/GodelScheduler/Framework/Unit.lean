import GodelScheduler.Framework.Pod
import GodelScheduler.Library.KeyedStore

/-!
# Schedule units

A pod with a pod group is scheduled in the unit of its group, any other pod in
a unit of its own. A group unit keeps its pods by UID; a single pod unit has one
slot, and adding or deleting a pod there never looks at the UID of the pod in
the slot. `getPod_addPod`, `getPod_addPods`, `getPod_addPodsIfNotPresent` and
`getPod_deletePod` say what each operation leaves under a UID.
-/

namespace GodelScheduler

open Library KeyedStore

inductive ScheduleUnitType
  | podGroupUnitType
  | singlePodUnitType
  deriving DecidableEq, Repr

/-- The key of a unit: its type, the namespace, and the name of the group or of the pod. -/
inductive UnitKey
  | podGroupUnit (ns name : String)
  | singlePodUnit (ns name : String)
  deriving DecidableEq, Repr

def UnitKey.type : UnitKey → ScheduleUnitType
  | podGroupUnit _ _ => .podGroupUnitType
  | singlePodUnit _ _ => .singlePodUnitType

def UnitKey.toString : UnitKey → String
  | podGroupUnit ns name => s!"PodGroupUnit/{ns}/{name}"
  | singlePodUnit ns name => s!"SinglePodUnit/{ns}/{name}"

def getPodGroupName (pod : Pod) : String := pod.podGroupName.getD ""

def getUnitIdentifier (pod : Pod) : UnitKey :=
  if getPodGroupName pod ≠ "" then .podGroupUnit pod.ns (getPodGroupName pod)
  else .singlePodUnit pod.ns pod.name

structure QueuedPodInfo where
  pod : Pod
  timestamp : ℤ
  initialAttemptTimestamp : ℤ
  deriving DecidableEq

abbrev QueuedPodInfo.uid (info : QueuedPodInfo) : String := info.pod.uid

structure PodGroup where
  ns : String
  name : String
  minMember : ℤ
  priorityClassName : String := ""
  deriving DecidableEq

structure PriorityClass where
  value : ℤ

/-- The listers a unit is created from. A pod group is found under its own namespace and name. -/
structure Listers where
  podGroup : String → String → Except String PodGroup
  priorityClass : String → Except String PriorityClass
  podGroup_named : ∀ ns name pg, podGroup ns name = .ok pg → pg.ns = ns ∧ pg.name = name

/-- Listers that know the given pod groups and no priority class. -/
def Listers.ofPodGroups (pgs : List PodGroup) : Listers where
  podGroup ns name :=
    match pgs.find? fun pg => pg.ns = ns ∧ pg.name = name with
    | some pg => .ok pg
    | none => .error "not found"
  priorityClass _ := .error "not found"
  podGroup_named ns name pg h := by
    split at h
    next pg' hfind =>
      cases h
      simpa using List.find?_some hfind
    next => cases h

abbrev PodInfoMap := KeyedStore QueuedPodInfo.uid

structure PodGroupUnit where
  podGroup : PodGroup
  queuedPodInfoMap : PodInfoMap
  deriving DecidableEq

variable (p : PodGroupUnit)

namespace PodGroupUnit

def new (podGroup : PodGroup) : PodGroupUnit := ⟨podGroup, .empty _⟩

def getKey : UnitKey := .podGroupUnit p.podGroup.ns p.podGroup.name

def readyToBePopulated : Bool :=
  decide (p.podGroup.minMember ≤ p.queuedPodInfoMap.len)

def getPods : List QueuedPodInfo := p.queuedPodInfoMap.list

def numPods : ℕ := p.queuedPodInfoMap.len

def getPod (uid : String) : Option QueuedPodInfo :=
  p.queuedPodInfoMap.getByKey uid

def addPod (pod : QueuedPodInfo) : PodGroupUnit :=
  { p with queuedPodInfoMap := p.queuedPodInfoMap.add pod }

def addPods (pods : List QueuedPodInfo) : PodGroupUnit :=
  { p with queuedPodInfoMap := pods.foldl KeyedStore.add p.queuedPodInfoMap }

def addPodsIfNotPresent (pods : List QueuedPodInfo) : PodGroupUnit :=
  { p with queuedPodInfoMap := pods.foldl KeyedStore.addIfNotPresent p.queuedPodInfoMap }

def deletePod (uid : String) : PodGroupUnit :=
  { p with queuedPodInfoMap := p.queuedPodInfoMap.deleteByKey uid }

end PodGroupUnit

structure SinglePodUnit where
  pod : Option QueuedPodInfo
  deriving DecidableEq

variable (s : SinglePodUnit)

namespace SinglePodUnit

/-- The empty key of the source, for a unit without a pod, is `none`. -/
def getKey : Option UnitKey :=
  s.pod.map fun info => .singlePodUnit info.pod.ns info.pod.name

def readyToBePopulated : Bool := s.pod.isSome

def getPods : List QueuedPodInfo := s.pod.toList

def numPods : ℕ := if s.pod.isSome then 1 else 0

def getPod (uid : String) : Option QueuedPodInfo :=
  s.pod.filter fun info => info.uid = uid

def addPod (_s : SinglePodUnit) (pod : QueuedPodInfo) : SinglePodUnit := ⟨some pod⟩

def addPods (pods : List QueuedPodInfo) : Except String SinglePodUnit :=
  if pods.length ≠ 1 then .error "cannot add multiple pods" else .ok s

def addPodsIfNotPresent (pods : List QueuedPodInfo) : Except String SinglePodUnit :=
  if pods.length ≠ 1 then .error "cannot add multiple pods"
  else if s.pod.isSome then .error "pod already existed"
  else .ok s

def deletePod (_s : SinglePodUnit) (_uid : String) : SinglePodUnit := ⟨none⟩

end SinglePodUnit

inductive ScheduleUnit
  | podGroup (p : PodGroupUnit)
  | singlePod (s : SinglePodUnit)
  deriving DecidableEq

variable {u : ScheduleUnit} {listers : Listers} {pod : Pod}

namespace ScheduleUnit

def type : ScheduleUnit → ScheduleUnitType
  | podGroup _ => .podGroupUnitType
  | singlePod _ => .singlePodUnitType

def getKey : ScheduleUnit → Option UnitKey
  | podGroup p => some p.getKey
  | singlePod s => s.getKey

def readyToBePopulated : ScheduleUnit → Bool
  | podGroup p => p.readyToBePopulated
  | singlePod s => s.readyToBePopulated

def getPods : ScheduleUnit → List QueuedPodInfo
  | podGroup p => p.getPods
  | singlePod s => s.getPods

def numPods : ScheduleUnit → ℕ
  | podGroup p => p.numPods
  | singlePod s => s.numPods

def getPod : ScheduleUnit → String → Option QueuedPodInfo
  | podGroup p, uid => p.getPod uid
  | singlePod s, uid => s.getPod uid

def addPod : ScheduleUnit → QueuedPodInfo → ScheduleUnit
  | podGroup p, pod => podGroup (p.addPod pod)
  | singlePod s, pod => singlePod (s.addPod pod)

def addPods : ScheduleUnit → List QueuedPodInfo → Except String ScheduleUnit
  | podGroup p, pods => .ok (podGroup (p.addPods pods))
  | singlePod s, pods => (s.addPods pods).map singlePod

def addPodsIfNotPresent : ScheduleUnit → List QueuedPodInfo → Except String ScheduleUnit
  | podGroup p, pods => .ok (podGroup (p.addPodsIfNotPresent pods))
  | singlePod s, pods => (s.addPodsIfNotPresent pods).map singlePod

def deletePod : ScheduleUnit → String → ScheduleUnit
  | podGroup p, uid => podGroup (p.deletePod uid)
  | singlePod s, uid => singlePod (s.deletePod uid)

@[simp] theorem type_addPod (u : ScheduleUnit) (pod : QueuedPodInfo) :
    (u.addPod pod).type = u.type := by
  cases u <;> rfl

@[simp] theorem type_deletePod (u : ScheduleUnit) (uid : String) :
    (u.deletePod uid).type = u.type := by
  cases u <;> rfl

variable {u u' : ScheduleUnit} {pods : List QueuedPodInfo}

theorem type_addPods (h : u.addPods pods = .ok u') : u'.type = u.type := by
  cases u with
  | podGroup p =>
    cases h
    rfl
  | singlePod s =>
    simp only [addPods] at h
    cases hs : s.addPods pods <;> rw [hs] at h <;> cases h
    rfl

theorem type_addPodsIfNotPresent (h : u.addPodsIfNotPresent pods = .ok u') : u'.type = u.type := by
  cases u with
  | podGroup p =>
    cases h
    rfl
  | singlePod s =>
    simp only [addPodsIfNotPresent] at h
    cases hs : s.addPodsIfNotPresent pods <;> rw [hs] at h <;> cases h
    rfl

theorem getPod_eq_some_uid {uid : String} {info : QueuedPodInfo} (h : u.getPod uid = some info) :
    info.uid = uid := by
  cases u with
  | podGroup p => exact key_of_getByKey h
  | singlePod s =>
    have := (Option.filter_eq_some_iff.mp h).2
    simpa using this

theorem mem_getPods_iff {info : QueuedPodInfo} :
    info ∈ u.getPods ↔ u.getPod info.uid = some info := by
  cases u with
  | podGroup p => exact mem_list_iff
  | singlePod s =>
    simp [getPods, SinglePodUnit.getPods, getPod, SinglePodUnit.getPod, Option.filter_eq_some_iff]

theorem nodup_getPods_uid (u : ScheduleUnit) : (u.getPods.map QueuedPodInfo.uid).Nodup := by
  cases u with
  | podGroup p => exact nodup_list_key _
  | singlePod s =>
    obtain ⟨_ | info⟩ := s <;> simp [getPods, SinglePodUnit.getPods]

theorem numPods_eq_length (u : ScheduleUnit) : u.numPods = u.getPods.length := by
  cases u with
  | podGroup p => exact len_eq_length_list _
  | singlePod s =>
    obtain ⟨_ | info⟩ := s <;> rfl

theorem getPod_of_numPods_eq_zero (h : u.numPods = 0) (uid : String) : u.getPod uid = none := by
  rw [numPods_eq_length, List.length_eq_zero_iff] at h
  apply Option.eq_none_iff_forall_ne_some.mpr
  intro info hinfo
  have hmem : info ∈ u.getPods := by
    rw [mem_getPods_iff, getPod_eq_some_uid hinfo]
    exact hinfo
  rw [h] at hmem
  cases hmem

/-- A single pod unit forgets the pod it held. -/
theorem getPod_addPod (u : ScheduleUnit) (pod : QueuedPodInfo) (uid : String) :
    (u.addPod pod).getPod uid =
      if uid = pod.uid then some pod
      else if u.type = .podGroupUnitType then u.getPod uid else none := by
  cases u with
  | podGroup p =>
    have h := getByKey_add p.queuedPodInfoMap pod uid
    simpa [addPod, getPod, PodGroupUnit.addPod, PodGroupUnit.getPod, type] using h
  | singlePod s =>
    by_cases h : uid = pod.uid
    · simp [addPod, getPod, SinglePodUnit.addPod, SinglePodUnit.getPod, h]
    · simp [addPod, getPod, SinglePodUnit.addPod, SinglePodUnit.getPod, type, h, Ne.symm h]

/-- A single pod unit forgets the pod it held, whichever pod is deleted. -/
theorem getPod_deletePod (u : ScheduleUnit) (uid uid' : String) :
    (u.deletePod uid).getPod uid' =
      if uid' = uid then none else if u.type = .podGroupUnitType then u.getPod uid' else none := by
  cases u with
  | podGroup p =>
    have h := getByKey_deleteByKey p.queuedPodInfoMap uid uid'
    simpa [deletePod, getPod, PodGroupUnit.deletePod, PodGroupUnit.getPod, type] using h
  | singlePod s =>
    simp [deletePod, getPod, SinglePodUnit.deletePod, SinglePodUnit.getPod, type]

theorem getPod_addPods (hnd : (pods.map QueuedPodInfo.uid).Nodup)
    (hu : u.type = .podGroupUnitType) :
    ∃ u', u.addPods pods = .ok u' ∧ ∀ uid, u'.getPod uid =
      (KeyedStore.lookupList QueuedPodInfo.uid uid pods).or (u.getPod uid) := by
  cases u with
  | podGroup p => exact ⟨_, rfl, getByKey_foldl_add hnd p.queuedPodInfoMap⟩
  | singlePod s => cases hu

theorem getPod_addPodsIfNotPresent (u : ScheduleUnit) (pods : List QueuedPodInfo) (uid : String) :
    ((u.addPodsIfNotPresent pods).toOption.getD u).getPod uid =
      (u.getPod uid).or (if u.type = .podGroupUnitType
        then KeyedStore.lookupList QueuedPodInfo.uid uid pods else none) := by
  cases u with
  | podGroup p => exact getByKey_foldl_addIfNotPresent pods p.queuedPodInfoMap uid
  | singlePod s =>
    have hsame : ((singlePod s).addPodsIfNotPresent pods).toOption.getD (singlePod s) =
        singlePod s := by
      by_cases hlen : pods.length = 1
      · by_cases hpod : s.pod.isSome = true <;>
          simp [addPodsIfNotPresent, SinglePodUnit.addPodsIfNotPresent, hlen, hpod, Except.map,
            Except.toOption]
      · simp [addPodsIfNotPresent, SinglePodUnit.addPodsIfNotPresent, hlen, Except.map,
          Except.toOption]
    rw [hsame]
    simp [type]

end ScheduleUnit

/-- A unit for the pod, still empty: the pod group and its priority class have to be known. -/
def createScheduleUnit (listers : Listers) (pod : Pod) : Except String ScheduleUnit :=
  if getPodGroupName pod ≠ "" then
    match listers.podGroup pod.ns (getPodGroupName pod) with
    | .error err =>
      .error s!"can not find pod group {pod.ns}/{getPodGroupName pod}, error: {err}"
    | .ok podGroup =>
      if podGroup.priorityClassName = "" then .ok (.podGroup (.new podGroup))
      else
        match listers.priorityClass podGroup.priorityClassName with
        | .error err => .error err
        | .ok _ => .ok (.podGroup (.new podGroup))
  else .ok (.singlePod ⟨none⟩)

variable (h : createScheduleUnit listers pod = .ok u)
include h

theorem createScheduleUnit_cases :
    (∃ pg, u = .podGroup (.new pg) ∧ getUnitIdentifier pod = .podGroupUnit pg.ns pg.name) ∨
    (u = .singlePod ⟨none⟩ ∧ getUnitIdentifier pod = .singlePodUnit pod.ns pod.name) := by
  unfold createScheduleUnit at h
  unfold getUnitIdentifier
  split_ifs at h ⊢ with hname
  · left
    split at h
    next => cases h
    next pg hpg =>
      obtain ⟨hns, hpgname⟩ := listers.podGroup_named _ _ _ hpg
      refine ⟨pg, ?_, by rw [hns, hpgname]⟩
      split_ifs at h
      · cases h
        rfl
      · split at h <;> cases h
        rfl
  · right
    cases h
    exact ⟨rfl, rfl⟩

theorem type_createScheduleUnit : u.type = (getUnitIdentifier pod).type := by
  rcases createScheduleUnit_cases h with ⟨pg, rfl, hkey⟩ | ⟨rfl, hkey⟩ <;> rw [hkey] <;> rfl

theorem getPod_createScheduleUnit (uid : String) : u.getPod uid = none := by
  rcases createScheduleUnit_cases h with ⟨pg, rfl, -⟩ | ⟨rfl, -⟩
  · simp [ScheduleUnit.getPod, PodGroupUnit.getPod, PodGroupUnit.new]
  · rfl

omit h

theorem exists_createScheduleUnit_of_singlePod (listers : Listers)
    (h : (getUnitIdentifier pod).type = .singlePodUnitType) :
    createScheduleUnit listers pod = .ok (.singlePod ⟨none⟩) := by
  unfold getUnitIdentifier at h
  unfold createScheduleUnit
  split_ifs at h ⊢
  · cases h
  · rfl

theorem ScheduleUnit.type_of_getKey {key : UnitKey} (h : u.getKey = some key) :
    u.type = key.type := by
  cases u with
  | podGroup p =>
    cases h
    rfl
  | singlePod s =>
    obtain ⟨info, -, rfl⟩ := Option.map_eq_some_iff.mp h
    rfl

/-- A unit as the queue stores it. The key fixes the type of the unit. -/
structure QueuedUnitInfo where
  unitKey : UnitKey
  scheduleUnit : ScheduleUnit
  timestamp : ℤ
  attempts : ℕ := 0
  initialAttemptTimestamp : ℤ
  typed : scheduleUnit.type = unitKey.type
  deriving DecidableEq

namespace QueuedUnitInfo

def new (unitKey : UnitKey) (unit : ScheduleUnit) (now : ℤ) (h : unit.type = unitKey.type) :
    QueuedUnitInfo where
  unitKey := unitKey
  scheduleUnit := unit
  timestamp := now
  initialAttemptTimestamp := now
  typed := h

def addPod (u : QueuedUnitInfo) (pod : QueuedPodInfo) : QueuedUnitInfo :=
  { u with
    scheduleUnit := u.scheduleUnit.addPod pod
    typed := (u.scheduleUnit.type_addPod pod).trans u.typed }

def deletePod (u : QueuedUnitInfo) (uid : String) : QueuedUnitInfo :=
  { u with
    scheduleUnit := u.scheduleUnit.deletePod uid
    typed := (u.scheduleUnit.type_deletePod uid).trans u.typed }

/-- The callers drop the error, which leaves the unit as it was. -/
def addPodsIfNotPresent (u : QueuedUnitInfo) (pods : List QueuedPodInfo) : QueuedUnitInfo :=
  { u with
    scheduleUnit := (u.scheduleUnit.addPodsIfNotPresent pods).toOption.getD u.scheduleUnit
    typed := by
      cases h : u.scheduleUnit.addPodsIfNotPresent pods with
      | error err => exact u.typed
      | ok unit => exact (ScheduleUnit.type_addPodsIfNotPresent h).trans u.typed }

end QueuedUnitInfo

end GodelScheduler
