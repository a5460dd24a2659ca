import GodelScheduler.Framework.Unit
import GodelScheduler.Library.Shelves

/-!
# The tasks of a unit in the binder

The binder sorts the pods of a unit into lists: assumed and new tasks at first,
then ready, waiting and failed tasks, and ignored tasks on the side. Each list is
a map by pod UID, and all of them hold `CheckResult`s here: a task of the assumed
list is a result with `assumed` set that has only its queued pod, a new task one
without it. The new tasks are one map; the tasks of a node are those whose
suggested node it is.

`AllTasks` says that a property holds of every task in every list, `Apart` that
no task is in two lists. Every move keeps both.
-/

namespace GodelScheduler.Binder

open Library KeyedStore Shelves List

/-- A victim as the scheduler names it in the nominated node. -/
structure VictimPod where
  ns : String
  name : String
  uid : String
  deriving DecidableEq, Repr

abbrev VictimPods := List VictimPod

/-- A queued pod with the fields the binder keeps. The reserved pod is a copy of the pod. -/
structure BindingPodInfo extends QueuedPodInfo where
  /-- The victims of the nominated node, `none` without a nominated node. -/
  nominatedNode : Option VictimPods := none
  initialPreemptAttemptTimestamp : Option ℤ := none
  reservedPod : Option Pod := none
  newlyAssumedButStillInHandling : Bool := false
  allVolumeBound : Bool := false
  reserved_uid : ∀ pod' ∈ reservedPod, pod'.uid = pod.uid := by simp
  deriving DecidableEq

theorem reserved_uid_none (uid : String) : ∀ pod' ∈ (none : Option Pod), pod'.uid = uid := by simp

structure RunningUnitInfo where
  suggestedNode : Option NodeName := none
  queuedPodInfo : BindingPodInfo
  victims : List Pod := []
  deriving DecidableEq

structure CheckResult where
  assumed : Bool
  runningUnit : RunningUnitInfo
  err : Option String := none
  deriving DecidableEq

abbrev CheckResult.info (cr : CheckResult) : BindingPodInfo := cr.runningUnit.queuedPodInfo

abbrev CheckResult.uid (cr : CheckResult) : String := cr.info.pod.uid

theorem CheckResult.uid_congr {cr cr' : CheckResult} (h : cr.runningUnit = cr'.runningUnit) :
    cr.uid = cr'.uid :=
  congrArg (fun rui : RunningUnitInfo => rui.queuedPodInfo.pod.uid) h

inductive TaskList
  | assumedTasks
  | newTasks
  | readyTasks
  | waitingTasks
  | failedTasks
  deriving DecidableEq, Repr

structure BindingUnitInfo where
  type : ScheduleUnitType
  minMember : ℤ
  allMember : ℕ
  everScheduled : Bool
  tasks : Shelves TaskList CheckResult.uid
  ignoredTasks : List BindingPodInfo
  /-- The nodes of the new tasks, and their victims by node and UID. -/
  nodes : GoSet NodeName
  victimsGroupByNode : GoMap NodeName (GoMap String Pod)
  allVictims : Finset String

variable (u : BindingUnitInfo) (nodeName : NodeName)

namespace BindingUnitInfo

def new (type : ScheduleUnitType) (minMember : ℤ) (allMember : ℕ) (everScheduled : Bool) :
    BindingUnitInfo where
  type := type
  minMember := minMember
  allMember := allMember
  everScheduled := everScheduled
  tasks := .empty _ _
  ignoredTasks := []
  nodes := ∅
  victimsGroupByNode := ∅
  allVictims := ∅

def isUnitFailed : Bool :=
  match u.type with
  | .podGroupUnitType =>
    !u.everScheduled && decide ((u.allMember : ℤ) - (u.tasks .failedTasks).len -
      u.ignoredTasks.length < u.minMember)
  | .singlePodUnitType => decide (0 < (u.tasks .failedTasks).len)

def isAbleToBindReadyTasks : Bool :=
  match u.type with
  | .podGroupUnitType => u.everScheduled || decide (u.minMember ≤ (u.tasks .readyTasks).len)
  | .singlePodUnitType => true

def hasVictim (uid : String) : Bool := decide (uid ∈ u.allVictims)

def noVictim : Bool := decide (u.allVictims = ∅)

def getTasks (l : TaskList) : List CheckResult := (u.tasks l).list

def getNodeListOfNewTasks : List NodeName := u.nodes.keys

def getNewTasksOnNode : List CheckResult :=
  (u.getTasks .newTasks).filter fun cr => cr.runningUnit.suggestedNode = some nodeName

def getVictimsOfNewTasksOnNode : List Pod :=
  match u.victimsGroupByNode.lookup nodeName with
  | none => []
  | some victims => victims.entries.map Sigma.snd

def newTasksOnNodeNeedPreemption : Bool :=
  (u.getNewTasksOnNode nodeName).any fun cr => decide (0 < cr.runningUnit.victims.length)

def addAssumedTask (qpi : BindingPodInfo) : BindingUnitInfo :=
  { u with
    tasks := u.tasks.put .assumedTasks
      { assumed := true, runningUnit := { queuedPodInfo := qpi } } }

def addIgnoredTasks (qpi : BindingPodInfo) : BindingUnitInfo :=
  { u with ignoredTasks := u.ignoredTasks ++ [qpi] }

/-- The source ends the process for a task without a suggested node. -/
def addNewTask (rui : RunningUnitInfo) : BindingUnitInfo :=
  match rui.suggestedNode with
  | none => u
  | some node =>
    { u with
      tasks := u.tasks.put .newTasks { assumed := false, runningUnit := rui }
      nodes := u.nodes.insert node ()
      victimsGroupByNode :=
        if rui.victims.isEmpty then u.victimsGroupByNode
        else u.victimsGroupByNode.insert node
          (rui.victims.foldl (fun m victim => m.insert victim.uid victim)
            ((u.victimsGroupByNode.lookup node).getD ∅))
      allVictims := u.allVictims ∪ (rui.victims.map Pod.uid).toFinset }

/-- The list a task leaves when it is checked: the assumed tasks or the new ones. -/
def uncheckedList (assumed : Bool) : TaskList := if assumed then .assumedTasks else .newTasks

/-- Forget the victims of a new task, and its node if no task and no victim is left. -/
def deleteVictims (node : NodeName) (victims : List Pod) : BindingUnitInfo :=
  let victimsGroupByNode :=
    match u.victimsGroupByNode.lookup node with
    | none => u.victimsGroupByNode
    | some m => u.victimsGroupByNode.insert node
        (victims.foldl (fun m victim => m.erase victim.uid) m)
  { u with
    victimsGroupByNode := victimsGroupByNode
    allVictims := u.allVictims \ (victims.map Pod.uid).toFinset
    nodes :=
      if (u.getNewTasksOnNode node).isEmpty && decide (victimsGroupByNode.len = 0)
      then u.nodes.erase node else u.nodes }

def deleteTaskFromNewOrAssumedTasks (rui : RunningUnitInfo) (assumed : Bool) : BindingUnitInfo :=
  if assumed then { u with tasks := u.tasks.drop .assumedTasks rui.queuedPodInfo.pod.uid }
  else
    match rui.suggestedNode with
    | none => u
    | some node =>
      deleteVictims { u with tasks := u.tasks.drop .newTasks rui.queuedPodInfo.pod.uid }
        node rui.victims

/-- Put a task on a list and take it off the assumed or the new tasks. -/
def settle (dst : TaskList) (u : BindingUnitInfo) (cr : CheckResult) : BindingUnitInfo :=
  deleteTaskFromNewOrAssumedTasks { u with tasks := u.tasks.put dst cr } cr.runningUnit cr.assumed

def addFailedTask (rui : RunningUnitInfo) (err : String) (assumed : Bool) : BindingUnitInfo :=
  u.settle .failedTasks ⟨assumed, rui, some err⟩

def settleAll (dst : TaskList) (u : BindingUnitInfo) (crs : List CheckResult) : BindingUnitInfo :=
  crs.foldl (settle dst) u

def moveAllNewTasksOnNode (dst : TaskList) (err : Option String) (u : BindingUnitInfo)
    (nodeName : NodeName) : BindingUnitInfo :=
  u.settleAll dst ((u.getNewTasksOnNode nodeName).map fun cr => ⟨false, cr.runningUnit, err⟩)

def moveAllNewTasksOnNodeToFailedList (err : String) : BindingUnitInfo :=
  u.moveAllNewTasksOnNode .failedTasks (some err) nodeName

def moveAllNewTasksOnNodeToWaitingList : BindingUnitInfo :=
  u.moveAllNewTasksOnNode .waitingTasks none nodeName

def moveAllNewTasksOnNodeToReadyList : BindingUnitInfo :=
  u.moveAllNewTasksOnNode .readyTasks none nodeName

/-- The source reads the node of the reserved pod, which every assumed task has. -/
def moveAllAssumedTasks (dst : TaskList) (u : BindingUnitInfo) : BindingUnitInfo :=
  u.settleAll dst ((u.getTasks .assumedTasks).map fun cr =>
    { assumed := true
      runningUnit :=
        { suggestedNode := cr.info.reservedPod.bind Pod.nodeName, queuedPodInfo := cr.info } })

def moveAllAssumedTasksToReadyList : BindingUnitInfo → BindingUnitInfo :=
  moveAllAssumedTasks .readyTasks

def moveAllAssumedTasksToWaitingList : BindingUnitInfo → BindingUnitInfo :=
  moveAllAssumedTasks .waitingTasks

/-- Move the checked tasks with an error, or without one, from one list to another. -/
def moveWhere (src dst : TaskList) (p : CheckResult → Bool)
    (err : CheckResult → Option String) (u : BindingUnitInfo) : BindingUnitInfo :=
  { u with
    tasks := u.tasks.moveAll src dst
      (((u.getTasks src).filter p).map fun cr => { cr with err := err cr }) }

def moveAllNewTasksOnNodeFromWaitingToFailedList
    (nodeName : Option NodeName) (err : String) : BindingUnitInfo :=
  u.moveWhere .waitingTasks .failedTasks
    (fun cr => !cr.assumed && decide (cr.runningUnit.suggestedNode = nodeName))
    fun _ => some err

/-- The failed tasks are ready tasks, so either map may be gone through. -/
def moveTasksFromReadyToFailedList (failedTasks : GoMap String String) : BindingUnitInfo :=
  u.moveWhere .readyTasks .failedTasks (fun cr => (failedTasks.lookup cr.uid).isSome)
    fun cr => failedTasks.lookup cr.uid

def moveAllTasksFromReadyToWaitingList : BindingUnitInfo :=
  u.moveWhere .readyTasks .waitingTasks (fun _ => true) CheckResult.err

def moveAllNewTasksInReadyAndWaitingListToFailedList (err : String) : BindingUnitInfo :=
  (u.moveWhere .readyTasks .failedTasks (fun cr => !cr.assumed) fun _ => some err).moveWhere
    .waitingTasks .failedTasks (fun cr => !cr.assumed) fun _ => some err

def moveAllTasksToFailedList (err : String) : BindingUnitInfo :=
  let u := u.settleAll .failedTasks ((u.getTasks .assumedTasks).map fun cr =>
    { assumed := true, runningUnit := { queuedPodInfo := cr.info }, err := some err })
  let u := u.settleAll .failedTasks ((u.getTasks .newTasks).map fun cr =>
    ⟨false, cr.runningUnit, some err⟩)
  (u.moveWhere .readyTasks .failedTasks (fun _ => true) fun _ => some err).moveWhere
    .waitingTasks .failedTasks (fun _ => true) fun _ => some err

end BindingUnitInfo

variable {cr : CheckResult}

section

variable {P : CheckResult → Prop} {u : BindingUnitInfo}

def BindingUnitInfo.AllTasks (P : CheckResult → Prop) (u : BindingUnitInfo) : Prop :=
  u.tasks.Forall P

namespace BindingUnitInfo

theorem tasks_deleteVictims (node : NodeName) (victims : List Pod) :
    (u.deleteVictims node victims).tasks = u.tasks := rfl

theorem tasks_settle (dst : TaskList) (cr : CheckResult) :
    (u.settle dst cr).tasks =
      if cr.assumed ∨ cr.runningUnit.suggestedNode.isSome
      then u.tasks.move (uncheckedList cr.assumed) dst cr else u.tasks.put dst cr := by
  unfold settle deleteTaskFromNewOrAssumedTasks uncheckedList move
  cases cr.assumed with
  | true => simp
  | false =>
    cases cr.runningUnit.suggestedNode with
    | none => simp
    | some node => simp [tasks_deleteVictims]

theorem AllTasks.settle (h : u.AllTasks P) (dst : TaskList) (hcr : P cr) :
    (u.settle dst cr).AllTasks P := by
  unfold AllTasks
  rw [tasks_settle]
  split_ifs
  · exact Shelves.Forall.move h _ _ hcr
  · exact Shelves.Forall.put h _ hcr

theorem AllTasks.moveWhere (h : u.AllTasks P) (src dst : TaskList) (p : CheckResult → Bool)
    {err : CheckResult → Option String} (herr : ∀ cr, P cr → P { cr with err := err cr }) :
    (u.moveWhere src dst p err).AllTasks P := by
  apply Shelves.Forall.moveAll h
  intro cr hcr
  obtain ⟨cr', hcr', rfl⟩ := mem_map.mp hcr
  exact herr cr' (h src cr' (mem_filter.mp hcr').1)

end BindingUnitInfo

end

section

variable {u : BindingUnitInfo} {src dst : TaskList} {p : CheckResult → Bool}
  {err : CheckResult → Option String}

def BindingUnitInfo.Apart (u : BindingUnitInfo) : Prop := u.tasks.Apart

namespace BindingUnitInfo

variable {l : TaskList}

theorem tasks_moveWhere_of_ne (hsrc : l ≠ src) (hdst : l ≠ dst) :
    (u.moveWhere src dst p err).tasks l = u.tasks l :=
  moveAll_of_ne _ hsrc hdst _

theorem nodup_uid_moved :
    ((((u.getTasks src).filter p).map fun cr => { cr with err := err cr }).map
      CheckResult.uid).Nodup := by
  rw [map_map]
  exact (u.tasks src).nodup_list_key.sublist (filter_sublist.map _)

theorem Apart.moveWhere (h : u.Apart) : (u.moveWhere src dst p err).Apart := by
  apply Shelves.Apart.moveAll h nodup_uid_moved
  intro cr hcr
  obtain ⟨cr', hcr', rfl⟩ := mem_map.mp hcr
  have hsrc : u.tasks.Has src cr'.uid := has_of_mem_list (mem_filter.mp hcr').1
  exact hsrc

theorem getByKey_moveWhere_src (hne : src ≠ dst) (uid : String) :
    ((u.moveWhere src dst p err).tasks src).getByKey uid =
      ((u.tasks src).getByKey uid).filter fun cr => !p cr := by
  refine (getByKey_moveAll_src _ hne _ uid).trans ?_
  have hmem : uid ∈ (((u.getTasks src).filter p).map fun cr =>
      { cr with err := err cr }).map CheckResult.uid ↔
        ∃ cr, (u.tasks src).getByKey uid = some cr ∧ p cr = true := by
    simp only [map_map, mem_map, mem_filter, Function.comp_apply]
    constructor
    · rintro ⟨cr, ⟨hcr, hp⟩, rfl⟩
      exact ⟨cr, mem_list_iff.mp hcr, hp⟩
    · rintro ⟨cr, hcr, hp⟩
      have huid : cr.uid = uid := key_of_getByKey hcr
      exact ⟨cr, ⟨mem_list_of_getByKey hcr, hp⟩, huid⟩
  simp only [hmem]
  cases (u.tasks src).getByKey uid with
  | none => simp
  | some cr => cases hp : p cr <;> simp [hp, Option.filter]

theorem perm_getTasks_moveWhere_src (hne : src ≠ dst) :
    ((u.moveWhere src dst p err).getTasks src).Perm ((u.getTasks src).filter fun cr => !p cr) :=
  list_perm_filter (getByKey_moveWhere_src hne)

theorem tasks_moveWhere_dst (hne : src ≠ dst) :
    (u.moveWhere src dst p err).tasks dst =
      (((u.getTasks src).filter p).map fun cr => { cr with err := err cr }).foldl
        KeyedStore.add (u.tasks dst) :=
  moveAll_dst _ hne _

/-- No moved task is on the list it is moved to, so the list grows by each of them. -/
theorem len_moveWhere_dst (h : u.Apart) (hne : src ≠ dst) :
    ((u.moveWhere src dst p err).tasks dst).len =
      (u.tasks dst).len + ((u.getTasks src).filter p).length := by
  rw [tasks_moveWhere_dst hne, len_foldl_add nodup_uid_moved, length_map]
  intro cr hcr
  obtain ⟨cr', hcr', rfl⟩ := mem_map.mp hcr
  have hsrc : u.tasks.Has src cr'.uid := has_of_mem_list (mem_filter.mp hcr').1
  by_contra hsome
  exact hne (h _ _ _ hsrc (Option.isSome_iff_ne_none.mpr hsome))

theorem has_moveWhere_dst (hne : src ≠ dst) {uid : String} :
    (u.moveWhere src dst p err).tasks.Has dst uid ↔
      (∃ cr ∈ u.getTasks src, p cr = true ∧ cr.uid = uid) ∨ u.tasks.Has dst uid := by
  unfold Shelves.Has
  rw [tasks_moveWhere_dst hne, getByKey_foldl_add nodup_uid_moved, Option.isSome_or,
    Bool.or_eq_true]
  apply or_congr_left
  rw [Option.isSome_iff_exists]
  simp only [lookupList_eq_some nodup_uid_moved, mem_map, mem_filter]
  constructor
  · rintro ⟨_, ⟨cr, ⟨hcr, hp⟩, rfl⟩, huid⟩
    exact ⟨cr, hcr, hp, huid⟩
  · rintro ⟨cr, hcr, hp, huid⟩
    exact ⟨_, ⟨cr, ⟨hcr, hp⟩, rfl⟩, huid⟩

theorem tasks_settle_of_ne (hdst : l ≠ dst) (hassumed : l ≠ .assumedTasks) (hnew : l ≠ .newTasks) :
    (u.settle dst cr).tasks l = u.tasks l := by
  rw [tasks_settle]
  split_ifs
  · apply move_of_ne _ _ hdst
    cases cr.assumed
    · exact hnew
    · exact hassumed
  · exact put_of_ne _ hdst _

theorem tasks_settleAll_of_ne (crs : List CheckResult) (hdst : l ≠ dst)
    (hassumed : l ≠ .assumedTasks) (hnew : l ≠ .newTasks) :
    (u.settleAll dst crs).tasks l = u.tasks l := by
  induction crs generalizing u with
  | nil => rfl
  | cons cr crs ih => exact ih.trans (tasks_settle_of_ne hdst hassumed hnew)

theorem has_failed_moveAllTasksToFailedList {err : String} (hcr : cr ∈ u.getTasks .readyTasks) :
    (u.moveAllTasksToFailedList err).tasks.Has .failedTasks cr.uid := by
  unfold moveAllTasksToFailedList
  extract_lets u₁ u₂
  have hready : u₂.tasks .readyTasks = u.tasks .readyTasks := by
    rw [tasks_settleAll_of_ne _ (by decide) (by decide) (by decide),
      tasks_settleAll_of_ne _ (by decide) (by decide) (by decide)]
  have hcr₂ : cr ∈ u₂.getTasks .readyTasks := by
    unfold getTasks
    rw [hready]
    exact hcr
  rw [has_moveWhere_dst (by decide), has_moveWhere_dst (by decide)]
  exact Or.inr (Or.inl ⟨cr, hcr₂, rfl, rfl⟩)

end BindingUnitInfo

end

end GodelScheduler.Binder
