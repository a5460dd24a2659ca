import GodelScheduler.Binder.Workflow
import Mathlib.Logic.Relation

/-!
# What the stages do to a unit

The initialization puts each pod on one list or ignores it
(`initializePod_cases`). Every stage after the initialization changes a unit by a sequence of moves
(`Move`): a task leaves the assumed or the new tasks for a checked list, checked
tasks move on to another list, or a task is replaced by itself with other fields
of its queued pod. An invariant of the stages is proved by looking at the moves.
-/

namespace GodelScheduler.Binder

open Library BindingUnitInfo Shelves List

/-- The lists of tasks that have been checked. -/
def TaskList.checked : TaskList → Prop
  | .assumedTasks => False
  | .newTasks => False
  | _ => True

variable {l : TaskList} {q : CheckResult → Prop} {cr : CheckResult} {cr' : CheckResult}
  {l l' : TaskList} {crs : List CheckResult}

theorem TaskList.checked.ne_unchecked (h : l.checked) : l ≠ .assumedTasks ∧ l ≠ .newTasks := by
  cases l <;> simp_all [TaskList.checked]

/-- The same task. The binder changes what it keeps about the queued pod of a new task only. -/
structure SameTask (cr cr' : CheckResult) : Prop where
  assumed : cr'.assumed = cr.assumed
  suggestedNode : cr'.runningUnit.suggestedNode = cr.runningUnit.suggestedNode
  victims : cr'.runningUnit.victims = cr.runningUnit.victims
  pod : cr'.info.pod = cr.info.pod
  nominatedNode : cr'.info.nominatedNode = cr.info.nominatedNode
  returning : cr.assumed = true → cr'.info = cr.info

inductive Move : BindingUnitInfo → BindingUnitInfo → Prop
  | settleAssumed {u : BindingUnitInfo} {dst : TaskList} {cr cr' : CheckResult} : dst.checked →
    cr' ∈ u.getTasks .assumedTasks → cr.assumed = true → cr.runningUnit.victims = [] →
    cr.info = cr'.info → Move u (u.settle dst cr)
  | settleNew {u : BindingUnitInfo} {dst : TaskList} {cr cr' : CheckResult} : dst.checked →
    cr' ∈ u.getTasks .newTasks → cr.assumed = false → cr.runningUnit = cr'.runningUnit →
    Move u (u.settle dst cr)
  | moveWhere {u : BindingUnitInfo} {src dst : TaskList} (p : CheckResult → Bool)
    (err : CheckResult → Option String) : src.checked → src ≠ .failedTasks → dst.checked →
    src ≠ dst → Move u (u.moveWhere src dst p err)
  | addAssumedTask {u : BindingUnitInfo} {cr : CheckResult} (stamp : Option ℤ) :
    cr ∈ u.getTasks .assumedTasks →
    Move u (u.addAssumedTask { cr.info with initialPreemptAttemptTimestamp := stamp })
  | updateTask {u : BindingUnitInfo} {l : TaskList} {cr cr' : CheckResult} : l.checked →
    cr ∈ u.getTasks l → SameTask cr cr' → Move u (updateTask l u cr')

abbrev Moves : BindingUnitInfo → BindingUnitInfo → Prop := Relation.ReflTransGen Move

/-- A new task of the given kind is settled. -/
def SettlesNew (q : CheckResult → Prop) (u u' : BindingUnitInfo) : Prop :=
  ∃ dst cr, ∃ cr' ∈ u.getTasks .newTasks, dst.checked ∧ cr.assumed = false ∧
    cr.runningUnit = cr'.runningUnit ∧ q cr' ∧ u' = u.settle dst cr

abbrev MovesNew (q : CheckResult → Prop) : BindingUnitInfo → BindingUnitInfo → Prop :=
  Relation.ReflTransGen (SettlesNew q)

theorem MovesNew.moves {u u' : BindingUnitInfo} (h : MovesNew q u u') : Moves u u' := by
  refine Relation.ReflTransGen.mono ?_ _ _ h
  rintro u u' ⟨dst, cr, cr', hcr', hdst, hassumed, hunit, -, rfl⟩
  exact .settleNew hdst hcr' hassumed hunit

def OnNode (nodeName : NodeName) (cr : CheckResult) : Prop :=
  cr.runningUnit.suggestedNode = some nodeName

theorem mem_getNewTasksOnNode {u : BindingUnitInfo} {nodeName : NodeName} :
    cr ∈ u.getNewTasksOnNode nodeName ↔ cr ∈ u.getTasks .newTasks ∧ OnNode nodeName cr := by
  unfold getNewTasksOnNode OnNode
  rw [mem_filter, decide_eq_true_eq]

section

variable {u : BindingUnitInfo} {dst : TaskList} {cr : CheckResult}

theorem mem_getTasks_put (hl : l ≠ dst) :
    cr' ∈ (u.tasks.put dst cr l).list ↔ cr' ∈ u.getTasks l := by
  rw [put_of_ne _ hl]
  rfl

theorem mem_getTasks_settle (hl : l ≠ dst) (h : cr' ∈ (u.settle dst cr).getTasks l) :
    cr' ∈ u.getTasks l := by
  unfold getTasks at h ⊢
  rw [tasks_settle] at h
  split_ifs at h
  · exact (mem_getTasks_put hl).mp ((mem_drop _).mp h).1
  · exact (mem_getTasks_put hl).mp h

theorem mem_getTasks_settle_of_ne (hne : cr'.uid ≠ cr.uid) (h : cr' ∈ u.getTasks l) :
    cr' ∈ (u.settle dst cr).getTasks l := by
  unfold getTasks
  have hput : cr' ∈ (u.tasks.put dst cr l).list :=
    (mem_put _).mpr (.inr ⟨h, fun hc => hne hc.2⟩)
  rw [tasks_settle]
  split_ifs
  · exact (mem_drop _).mpr ⟨hput, fun hc => hne hc.2⟩
  · exact hput

theorem has_settle_of_ne {uid : String} (hne : uid ≠ cr.uid) (h : u.tasks.Has l uid) :
    (u.settle dst cr).tasks.Has l uid := by
  obtain ⟨cr', hcr', rfl⟩ := mem_map.mp (has_iff_mem.mp h)
  exact has_of_mem_list (mem_getTasks_settle_of_ne hne hcr')

theorem has_of_has_settle {uid : String} (h : (u.settle dst cr).tasks.Has l uid) :
    uid = cr.uid ∨ u.tasks.Has l uid := by
  rw [tasks_settle] at h
  have hput : (u.tasks.put dst cr).Has l uid := by
    split_ifs at h
    · exact ((has_drop _).mp h).2
    · exact h
  rcases (has_put _).mp hput with ⟨-, huid⟩ | hu
  · exact .inl huid
  · exact .inr hu

theorem mem_getTasks_updateTask (h : cr' ∈ u.getTasks l') (hne : l' ≠ l ∨ cr'.uid ≠ cr.uid) :
    cr' ∈ (updateTask l u cr).getTasks l' := by
  refine (mem_put _).mpr (.inr ⟨h, ?_⟩)
  rintro ⟨hl, huid⟩
  rcases hne with hne | hne
  · exact hne hl
  · exact hne huid

theorem nodup_order (o : RangeOrder CheckResult) (l : TaskList) :
    ((o.list (u.getTasks l)).map CheckResult.uid).Nodup :=
  ((o.perm _).map _).nodup_iff.mpr (u.tasks l).nodup_list_key

end

section

variable {u : BindingUnitInfo} {dst : TaskList}

/-- The tasks are settled one after the other, each while it is still in its list. -/
theorem reflTransGen_settleAll {R : BindingUnitInfo → BindingUnitInfo → Prop}
    (hnd : (crs.map CheckResult.uid).Nodup)
    (hcrs : ∀ cr ∈ crs, ∃ cr' ∈ u.getTasks l, cr'.uid = cr.uid ∧
      ∀ u, cr' ∈ u.getTasks l → R u (u.settle dst cr)) :
    Relation.ReflTransGen R u (u.settleAll dst crs) := by
  induction crs generalizing u with
  | nil => exact .refl
  | cons cr crs ih =>
    rw [nodup_map_cons] at hnd
    obtain ⟨⟨cr', hin, -, hstep⟩, hcrs⟩ := forall_mem_cons.mp hcrs
    refine .head (hstep u hin) (ih hnd.2 ?_)
    intro cr₂ hcr₂
    obtain ⟨cr₂', hin₂, huid, hstep₂⟩ := hcrs cr₂ hcr₂
    exact ⟨cr₂', mem_getTasks_settle_of_ne (huid ▸ hnd.1 _ hcr₂) hin₂, huid, hstep₂⟩

variable (hdst : dst.checked)
include hdst

theorem moves_assumedTo (node : CheckResult → Option NodeName) (err : Option String) :
    Moves u (u.settleAll dst ((u.getTasks .assumedTasks).map fun cr =>
      { assumed := true
        runningUnit := { suggestedNode := node cr, queuedPodInfo := cr.info }
        err := err })) := by
  apply reflTransGen_settleAll
  · rw [map_map]
    exact (u.tasks .assumedTasks).nodup_list_key
  · intro cr hcr
    obtain ⟨cr', hcr', rfl⟩ := mem_map.mp hcr
    exact ⟨cr', hcr', rfl, fun u hin => .settleAssumed hdst hin rfl rfl rfl⟩

theorem movesNew_newTo (p : CheckResult → Bool) (err : Option String) :
    MovesNew (fun cr => p cr = true) u
      (u.settleAll dst (((u.getTasks .newTasks).filter p).map fun cr =>
        ⟨false, cr.runningUnit, err⟩)) := by
  apply reflTransGen_settleAll
  · rw [map_map]
    exact (u.tasks .newTasks).nodup_list_key.sublist (filter_sublist.map _)
  · intro cr hcr
    obtain ⟨cr', hcr', rfl⟩ := mem_map.mp hcr
    obtain ⟨hin, hp⟩ := mem_filter.mp hcr'
    exact ⟨cr', hin, rfl, fun u hin =>
      ⟨dst, ⟨false, cr'.runningUnit, err⟩, cr', hin, hdst, rfl, rfl, hp, rfl⟩⟩

theorem moves_newTo (err : Option String) :
    Moves u (u.settleAll dst ((u.getTasks .newTasks).map fun cr =>
      ⟨false, cr.runningUnit, err⟩)) := by
  have h := (movesNew_newTo (u := u) hdst (fun _ => true) err).moves
  rwa [filter_true] at h

theorem moves_moveAllAssumedTasks (u : BindingUnitInfo) : Moves u (u.moveAllAssumedTasks dst) :=
  moves_assumedTo hdst _ none

theorem movesNew_moveAllNewTasksOnNode (err : Option String) (u : BindingUnitInfo)
    (nodeName : NodeName) :
    MovesNew (OnNode nodeName) u (u.moveAllNewTasksOnNode dst err nodeName) := by
  have h := movesNew_newTo (u := u) hdst
    (fun cr => decide (cr.runningUnit.suggestedNode = some nodeName)) err
  simp only [decide_eq_true_eq] at h
  exact h

omit hdst

theorem movesNew_addFailedTask (hcr : cr ∈ u.getTasks .newTasks) (hq : q cr) (err : String) :
    MovesNew q u (u.addFailedTask cr.runningUnit err false) :=
  .single ⟨.failedTasks, ⟨false, cr.runningUnit, some err⟩, cr, hcr, by trivial, rfl, rfl, hq, rfl⟩

theorem moves_addFailedNewTask (hcr : cr ∈ u.getTasks .newTasks) (err : String) :
    Moves u (u.addFailedTask cr.runningUnit err false) :=
  .single (.settleNew (by trivial) hcr rfl rfl)

theorem moves_moveAllTasksToFailedList (u : BindingUnitInfo) (err : String) :
    Moves u (u.moveAllTasksToFailedList err) := by
  unfold moveAllTasksToFailedList
  extract_lets u₁ u₂
  have hassumed : Moves u u₁ := moves_assumedTo (by trivial) (fun _ => none) (some err)
  have hnew : Moves u₁ u₂ := moves_newTo (by trivial) (some err)
  have hready : Moves u₂ (u₂.moveWhere .readyTasks .failedTasks (fun _ => true)
      fun _ => some err) :=
    .single (.moveWhere _ _ (by trivial) (by decide) (by trivial) (by decide))
  exact (hassumed.trans (hnew.trans hready)).tail
    (.moveWhere _ _ (by trivial) (by decide) (by trivial) (by decide))

theorem moves_moveAllNewInReadyAndWaiting (u : BindingUnitInfo) (err : String) :
    Moves u (u.moveAllNewTasksInReadyAndWaitingListToFailedList err) :=
  .tail (.single (.moveWhere _ _ (by trivial) (by decide) (by trivial) (by decide)))
    (.moveWhere _ _ (by trivial) (by decide) (by trivial) (by decide))

theorem moves_failNodes (u : BindingUnitInfo) (nodeToErr : GoMap (Option NodeName) String) :
    Moves u (failNodes u nodeToErr) :=
  List.foldlRecOn nodeToErr.entries _ .refl fun _ h _ _ =>
    h.tail (.moveWhere _ _ (by trivial) (by decide) (by trivial) (by decide))

end

section

variable {env : Env} {u : BindingUnitInfo}

theorem checkCrossNodePreemptionForAssumedTask_fst (env : Env) (task : BindingPodInfo)
    (victimPods : VictimPods) :
    ∃ stamp, (checkCrossNodePreemptionForAssumedTask env task victimPods).1 =
      { task with initialPreemptAttemptTimestamp := stamp } := by
  unfold checkCrossNodePreemptionForAssumedTask
  simp only
  split_ifs <;> exact ⟨_, rfl⟩

variable {l : List CheckResult}

theorem moves_checkAssumedTasks (env : Env) (hnd : (l.map CheckResult.uid).Nodup)
    (hl : ∀ cr ∈ l, cr ∈ u.getTasks .assumedTasks) (anyOneStillInProgress : Bool) :
    Moves u (checkAssumedTasks env l u anyOneStillInProgress).1 := by
  induction l generalizing u anyOneStillInProgress with
  | nil => exact .refl
  | cons cr l ih =>
    rw [nodup_map_cons] at hnd
    obtain ⟨hcr, hrest⟩ := forall_mem_cons.mp hl
    unfold checkAssumedTasks
    cases cr.info.nominatedNode with
    | none => exact ih hnd.2 hrest _
    | some victimPods =>
      simp only
      have htask := checkCrossNodePreemptionForAssumedTask_fst env cr.info victimPods
      generalize checkCrossNodePreemptionForAssumedTask env cr.info victimPods = checked at htask ⊢
      obtain ⟨task, inProgress, err⟩ := checked
      obtain ⟨stamp, rfl⟩ := htask
      set task := { cr.info with initialPreemptAttemptTimestamp := stamp }
      have hadd : Moves u (u.addAssumedTask task) := .single (.addAssumedTask stamp hcr)
      have hkeep : ∀ cr' ∈ l, cr' ∈ (u.addAssumedTask task).getTasks .assumedTasks :=
        fun cr' hcr' => (mem_put _).mpr (.inr ⟨hrest cr' hcr', fun hc => hnd.1 _ hcr' hc.2⟩)
      cases err with
      | none =>
        split_ifs
        · exact hadd.trans (moves_moveAllTasksToFailedList _ _)
        · exact hadd.trans (ih hnd.2 hkeep _)
      | some err =>
        have hfail : Moves u
            ((u.addAssumedTask task).addFailedTask { queuedPodInfo := task } err true) := by
          have hin : ⟨true, { queuedPodInfo := task }, none⟩ ∈
              (u.addAssumedTask task).getTasks .assumedTasks :=
            (mem_put _).mpr (.inl ⟨rfl, rfl⟩)
          exact hadd.tail (.settleAssumed (by trivial) hin rfl rfl rfl)
        split_ifs
        · exact hfail.trans (moves_moveAllTasksToFailedList _ _)
        · refine hfail.trans (ih hnd.2 ?_ _)
          intro cr' hcr'
          have hne : cr'.uid ≠ task.pod.uid := hnd.1 _ hcr'
          exact mem_getTasks_settle_of_ne hne (hkeep cr' hcr')

theorem moves_checkNewTasks (check : RunningUnitInfo → Option String)
    (unitErr : RunningUnitInfo → String) (hnd : (l.map CheckResult.uid).Nodup)
    (hl : ∀ cr ∈ l, cr ∈ u.getTasks .newTasks) : Moves u (checkNewTasks check unitErr l u) := by
  induction l generalizing u with
  | nil => exact .refl
  | cons cr l ih =>
    rw [nodup_map_cons] at hnd
    obtain ⟨hcr, hrest⟩ := forall_mem_cons.mp hl
    unfold checkNewTasks
    cases check cr.runningUnit with
    | none =>
      simp only
      split_ifs
      · exact moves_moveAllTasksToFailedList _ _
      · exact ih hnd.2 hrest
    | some err =>
      simp only
      have hfail := moves_addFailedNewTask hcr err
      split_ifs
      · exact hfail.trans (moves_moveAllTasksToFailedList _ _)
      · refine hfail.trans (ih hnd.2 ?_)
        intro cr' hcr'
        have hne : cr'.uid ≠ cr.uid := hnd.1 _ hcr'
        exact mem_getTasks_settle_of_ne hne (hrest cr' hcr')

theorem moves_checkCrossNodePreemptionForUnit (env : Env) (u : BindingUnitInfo) :
    Moves u (checkCrossNodePreemptionForUnit env u) := by
  have hassumed := moves_checkAssumedTasks env (nodup_order (u := u) env.taskOrder .assumedTasks)
    (fun cr hcr => (env.taskOrder.mem_list).mp hcr) false
  unfold checkCrossNodePreemptionForUnit
  split
  next u' heq =>
    rw [heq] at hassumed
    exact hassumed
  next u' anyOneStillInProgress heq =>
    rw [heq] at hassumed
    extract_lets moved
    have hmoved : Moves u' moved := by
      change Moves u' (if _ then _ else _)
      split_ifs
      · exact moves_moveAllAssumedTasks (by trivial) _
      · exact moves_moveAllAssumedTasks (by trivial) _
    by_cases hno : moved.noVictim = true
    · rw [if_pos hno]
      exact hassumed.trans hmoved
    · rw [if_neg hno]
      exact hassumed.trans (hmoved.trans (moves_checkNewTasks _ _ (nodup_order _ _)
        fun cr hcr => (env.taskOrder.mem_list).mp hcr))

theorem moves_checkCrossNodeTopologyForUnit (env : Env) (u : BindingUnitInfo) :
    Moves u (checkCrossNodeTopologyForUnit env u) :=
  moves_checkNewTasks _ _ (nodup_order _ _) fun _ hcr => (env.taskOrder.mem_list).mp hcr

theorem movesNew_checkTasksOnNode (nodeName : NodeName) (hnd : (l.map CheckResult.uid).Nodup)
    (hl : ∀ cr ∈ l, cr ∈ u.getNewTasksOnNode nodeName) :
    MovesNew (OnNode nodeName) u (checkTasksOnNode env nodeName l u) := by
  induction l generalizing u with
  | nil =>
    unfold checkTasksOnNode
    split_ifs
    · exact movesNew_moveAllNewTasksOnNode (by trivial) _ _ _
    · exact movesNew_moveAllNewTasksOnNode (by trivial) _ _ _
  | cons cr l ih =>
    rw [nodup_map_cons] at hnd
    obtain ⟨hcr, hrest⟩ := forall_mem_cons.mp hl
    unfold checkTasksOnNode
    cases env.checkConflictPhase cr.runningUnit with
    | none => exact ih hnd.2 hrest
    | some err =>
      simp only
      obtain ⟨hin, hon⟩ := mem_getNewTasksOnNode.mp hcr
      have hfail := movesNew_addFailedTask hin hon
      split_ifs
      · exact movesNew_moveAllNewTasksOnNode (by trivial) _ _ _
      · exact hfail _
      · refine (hfail _).trans (ih hnd.2 ?_)
        intro cr' hcr'
        obtain ⟨hin', hon'⟩ := mem_getNewTasksOnNode.mp (hrest cr' hcr')
        have hne : cr'.uid ≠ cr.uid := hnd.1 _ hcr'
        exact mem_getNewTasksOnNode.mpr ⟨mem_getTasks_settle_of_ne hne hin', hon'⟩

theorem nodup_getNewTasksOnNode (o : RangeOrder CheckResult) (nodeName : NodeName) :
    ((o.list (u.getNewTasksOnNode nodeName)).map CheckResult.uid).Nodup :=
  ((o.perm _).map _).nodup_iff.mpr
    ((u.tasks .newTasks).nodup_list_key.sublist (filter_sublist.map _))

/-- A node's check settles new tasks of this node only. -/
theorem movesNew_checkTasks (env : Env) (u : BindingUnitInfo) (nodeName : NodeName) :
    MovesNew (OnNode nodeName) u (checkTasks env u nodeName) := by
  unfold checkTasks
  split_ifs
  · exact movesNew_moveAllNewTasksOnNode (by trivial) _ _ _
  · simp only
    split
    · exact movesNew_moveAllNewTasksOnNode (by trivial) _ _ _
    · exact movesNew_checkTasksOnNode nodeName (nodup_getNewTasksOnNode _ _)
        fun cr hcr => (env.taskOrder.mem_list).mp hcr

def checkNode (env : Env) (u : BindingUnitInfo) (nodeName : NodeName) : BindingUnitInfo :=
  if u.isUnitFailed && !env.checksAfterCancel nodeName then u else checkTasks env u nodeName

theorem moves_foldl_checkNode (env : Env) (nodes : List NodeName) (u : BindingUnitInfo) :
    Moves u (nodes.foldl (checkNode env) u) := by
  refine List.foldlRecOn nodes _ .refl fun u' hu' node _ => ?_
  unfold checkNode
  split_ifs
  · exact hu'
  · exact hu'.trans (movesNew_checkTasks env u' node).moves

theorem moves_checkSameNodeConflictsForUnit (env : Env) (u : BindingUnitInfo) :
    Moves u (checkSameNodeConflictsForUnit env u) :=
  moves_foldl_checkNode env _ u

end

section

variable {env : Env}

def Update (u u' : BindingUnitInfo) : Prop :=
  ∃ l cr cr', l.checked ∧ cr ∈ u.getTasks l ∧ SameTask cr cr' ∧ u' = updateTask l u cr'

abbrev Updates : BindingUnitInfo → BindingUnitInfo → Prop := Relation.ReflTransGen Update

section

variable {u u' : BindingUnitInfo} (h : Updates u u')

include h

theorem Updates.moves : Moves u u' := by
  refine Relation.ReflTransGen.mono ?_ _ _ h
  rintro u u' ⟨l, cr, cr', hl, hcr, hsame, rfl⟩
  exact .updateTask hl hcr hsame

/-- What holds of a task whatever the binder keeps about its queued pod goes on holding. -/
theorem Updates.forall_mem (hq : ∀ cr cr', SameTask cr cr' → q cr → q cr')
    (hu : ∀ cr ∈ u.getTasks l, q cr) : ∀ cr ∈ u'.getTasks l, q cr := by
  induction h with
  | refl => exact hu
  | tail _ hstep ih =>
    obtain ⟨l', cr, cr', -, hcr, hsame, rfl⟩ := hstep
    intro cr₂ hcr₂
    rcases (mem_put _).mp hcr₂ with ⟨rfl, rfl⟩ | ⟨hold, -⟩
    · exact hq cr _ hsame (ih cr hcr)
    · exact ih cr₂ hold

end

theorem updates_assumeTasks (hl : l.checked) (hnd : (crs.map CheckResult.uid).Nodup)
    (s : BindingUnitInfo × BinderCache) (hcrs : ∀ cr ∈ crs, cr ∈ s.1.getTasks l) :
    Updates s.1 (assumeTasks env l crs s).1.1 := by
  induction crs generalizing s with
  | nil => exact .refl
  | cons cr crs ih =>
    rw [nodup_map_cons] at hnd
    obtain ⟨hcr, hrest⟩ := forall_mem_cons.mp hcrs
    unfold assumeTasks
    split_ifs with hassumed
    · exact ih hnd.2 s hrest
    · have hreturning : ∀ info, cr.assumed = true → info = cr.info :=
        fun _ h => absurd h hassumed
      simp only
      split
      · exact .refl
      · split
        · exact .single ⟨l, cr, reserve cr, hl, hcr, ⟨rfl, rfl, rfl, rfl, rfl, hreturning _⟩, rfl⟩
        next allBound _ _ cache' _ =>
          refine .head ⟨l, cr, setAssumed allBound (reserve cr), hl, hcr,
            ⟨rfl, rfl, rfl, rfl, rfl, hreturning _⟩, rfl⟩ (ih hnd.2 (_, cache') ?_)
          intro cr' hcr'
          have hne : cr'.uid ≠ cr.uid := hnd.1 _ hcr'
          exact mem_getTasks_updateTask (hrest cr' hcr') (.inr hne)

theorem updates_assumeNewTasks (env : Env) (u : BindingUnitInfo) (cache : BinderCache) :
    Updates u (assumeNewTasks env u cache).1.1 := by
  have hready : Updates u (assumeTasks env .readyTasks
      (env.taskOrder.list (u.getTasks .readyTasks)) (u, cache)).1.1 :=
    updates_assumeTasks (by trivial) (nodup_order _ _) (u, cache)
      fun _ hcr => (env.taskOrder.mem_list).mp hcr
  unfold assumeNewTasks
  split
  next s err heq =>
    rw [heq] at hready
    exact hready
  next s heq =>
    rw [heq] at hready
    exact hready.trans (updates_assumeTasks (by trivial) (nodup_order _ _) s
      fun _ hcr => (env.taskOrder.mem_list).mp hcr)

variable {s : BindingUnitInfo × BinderCache}

/-- The tasks of another list, and those with another UID, stay as they are. -/
theorem mem_getTasks_forgetNewAssumedTask {cr cr' : CheckResult} (h : cr' ∈ s.1.getTasks l')
    (hne : l' ≠ l ∨ cr'.uid ≠ cr.uid) : cr' ∈ (forgetNewAssumedTask l s cr).1.getTasks l' := by
  unfold forgetNewAssumedTask
  split_ifs
  · exact h
  · split
    · exact h
    · split
      · exact h
      · exact mem_getTasks_updateTask h hne

theorem mem_getTasks_foldl_forgetNewAssumedTask (hne : l' ≠ l) (crs : List CheckResult)
    (h : cr' ∈ s.1.getTasks l') : cr' ∈ (crs.foldl (forgetNewAssumedTask l) s).1.getTasks l' := by
  induction crs generalizing s with
  | nil => exact h
  | cons cr crs ih => exact ih (mem_getTasks_forgetNewAssumedTask h (.inl hne))

theorem updates_foldl_forgetNewAssumedTask (hl : l.checked) (hnd : (crs.map CheckResult.uid).Nodup)
    (s : BindingUnitInfo × BinderCache) (hcrs : ∀ cr ∈ crs, cr ∈ s.1.getTasks l) :
    Updates s.1 (crs.foldl (forgetNewAssumedTask l) s).1 := by
  induction crs generalizing s with
  | nil => exact .refl
  | cons cr crs ih =>
    rw [nodup_map_cons] at hnd
    have hone : Updates s.1 (forgetNewAssumedTask l s cr).1 := by
      unfold forgetNewAssumedTask
      split_ifs with hskip
      · exact .refl
      · split
        · exact .refl
        · split
          · exact .refl
          · exact .single ⟨l, cr, resetAssumed cr, hl, hcrs cr mem_cons_self,
              ⟨rfl, rfl, rfl, rfl, rfl, fun h => absurd (by simp [h]) hskip⟩, rfl⟩
    refine hone.trans (ih hnd.2 _ ?_)
    intro cr' hcr'
    have hne : cr'.uid ≠ cr.uid := hnd.1 _ hcr'
    exact mem_getTasks_forgetNewAssumedTask (hcrs cr' (mem_cons_of_mem _ hcr')) (.inr hne)

theorem updates_forgetNewAssumedTasks (u : BindingUnitInfo) (cache : BinderCache) :
    Updates u (forgetNewAssumedTasks u cache).1 := by
  have hready : Updates u
      ((u.getTasks .readyTasks).foldl (forgetNewAssumedTask .readyTasks) (u, cache)).1 :=
    updates_foldl_forgetNewAssumedTask (by trivial) (u.tasks .readyTasks).nodup_list_key (u, cache)
      fun _ hcr => hcr
  refine hready.trans (updates_foldl_forgetNewAssumedTask (by trivial)
    (u.tasks .waitingTasks).nodup_list_key _ ?_)
  intro cr hcr
  exact mem_getTasks_foldl_forgetNewAssumedTask (by decide) _ hcr

theorem moves_markVictimsAndAssumeTasks (env : Env) (u : BindingUnitInfo) (cache : BinderCache) :
    Moves u (markVictimsAndAssumeTasks env u cache).1 := by
  have hmarked : Moves u (markVictimsOfNewTasks env u cache).1 := moves_failNodes _ _
  unfold markVictimsAndAssumeTasks
  generalize markVictimsOfNewTasks env u cache = marked at hmarked ⊢
  obtain ⟨u', cache'⟩ := marked
  have hassumed := (updates_assumeNewTasks env u' cache').moves
  simp only
  split_ifs
  · exact hmarked
  · split
    next s heq =>
      rw [heq] at hassumed
      exact hmarked.trans hassumed
    next u'' cache'' err heq =>
      rw [heq] at hassumed
      exact hmarked.trans (hassumed.trans ((updates_forgetNewAssumedTasks u'' cache'').moves.trans
        (moves_moveAllNewInReadyAndWaiting _ err)))

end

section

variable {env : Env} {cache : BinderCache} {u : BindingUnitInfo} {qpi : BindingPodInfo}

variable (env : Env) (cache : BinderCache) (u : BindingUnitInfo) (qpi : BindingPodInfo)

theorem initializeTask_pod : (initializeTask env cache u qpi).1.queuedPodInfo.pod = qpi.pod := by
  unfold initializeTask
  simp only
  repeat' split
  all_goals rfl

/-- A task that was set up without an error. -/
structure InitializedTask (env : Env) (u : BindingUnitInfo) (qpi : BindingPodInfo)
    (rui : RunningUnitInfo) : Prop where
  pod : rui.queuedPodInfo.pod = qpi.pod
  suggestedNode : rui.suggestedNode.isSome
  initCycleState : env.initCycleState qpi.pod = none
  notTaken : ∀ victim ∈ rui.victims, u.hasVictim victim.uid = false

/-- An error leaves a task without victims, and the victims of a task are looked up. -/
theorem initializeTask_spec :
    let task := initializeTask env cache u qpi
    (task.2.isSome → task.1.victims = []) ∧ (task.2 = none → InitializedTask env u qpi task.1) ∧
      (task.1.victims = [] ∨ ∃ victimPods, task.1.queuedPodInfo.nominatedNode = some victimPods ∧
        getVictimsToPreempt env cache victimPods = .ok task.1.victims) := by
  unfold initializeTask
  simp only
  split
  · exact ⟨fun _ => rfl, fun h => (by cases h), .inl rfl⟩
  split
  · exact ⟨fun _ => rfl, fun h => (by cases h), .inl rfl⟩
  next hstate =>
    split
    · exact ⟨fun _ => rfl, fun h => (by cases h), .inl rfl⟩
    split
    · exact ⟨fun _ => rfl, fun h => (by cases h), .inl rfl⟩
    split
    · exact ⟨fun h => (by cases h), fun _ => ⟨rfl, rfl, hstate, forall_mem_nil _⟩, .inl rfl⟩
    next victimPods hnominated =>
      split
      · exact ⟨fun _ => rfl, fun h => (by cases h), .inl rfl⟩
      next victims hvictims =>
        split
        · exact ⟨fun _ => rfl, fun h => (by cases h), .inl rfl⟩
        next hfind =>
          refine ⟨fun h => (by cases h), fun _ => ⟨rfl, rfl, hstate, ?_⟩,
            .inr ⟨_, hnominated, hvictims⟩⟩
          intro victim hvictim
          exact Bool.eq_false_of_not_eq_true (List.find?_eq_none.mp hfind victim hvictim)

theorem initializePod_cases :
    initializePod env cache u qpi = u.addAssumedTask qpi ∨
      initializePod env cache u qpi = u.addIgnoredTasks qpi ∨
      (∃ rui err, rui.queuedPodInfo.pod = qpi.pod ∧ rui.victims = [] ∧
        initializePod env cache u qpi = u.addFailedTask rui err false) ∨
      ∃ rui, InitializedTask env u qpi rui ∧ initializePod env cache u qpi = u.addNewTask rui := by
  have hpod := initializeTask_pod env cache u qpi
  have hspec := initializeTask_spec env cache u qpi
  unfold initializePod
  split_ifs
  · exact .inl rfl
  · exact .inr (.inl rfl)
  · generalize initializeTask env cache u qpi = task at hpod hspec ⊢
    obtain ⟨rui, err⟩ := task
    cases err with
    | some err => exact .inr (.inr (.inl ⟨rui, err, hpod, hspec.1 rfl, rfl⟩))
    | none => exact .inr (.inr (.inr ⟨rui, hspec.2.1 rfl, rfl⟩))

end

end GodelScheduler.Binder
