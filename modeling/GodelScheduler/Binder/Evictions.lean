import GodelScheduler.Binder.Victims

/-!
# When only chosen pods are deleted

The condition is about the victim list, what the lister and the cache say of it at
initialization, and what the API server has under the names when the victims are
deleted. If a victim cannot be looked up or marked, its preemptor is failed before
anything is deleted. Otherwise every pod the API server deletes under the name of a
victim must have the UID of a victim, and a single pod unit that passes all checks
shows that nothing less will do.
-/

namespace GodelScheduler.Binder

open Library BindingUnitInfo RangeOrder Shelves

section

variable (podLister : PodLister) (deletePod : String → String → DeleteAnswer) (cache : BinderCache)
  (victimPods : VictimPods)

/-- Every victim can be looked up, and every pod found can be marked to be deleted. -/
def Preemptable : Prop :=
  ∀ victimPod ∈ victimPods, resolvable podLister cache victimPod ∧
    ∀ pod ∈ foundPod podLister victimPod, cache.CanMark pod

/-- What the API server deletes under the name of a pod found, up to the first refusal, has the
UID of a victim. -/
def DeletesChosen : Prop :=
  ∀ before victim after, victimPods.filterMap (foundPod podLister) = before ++ victim :: after →
    (∀ w ∈ before, ¬ deleteRefused deletePod w) →
      ∀ pod, deletePod victim.ns victim.name = .deleted pod →
        pod.uid ∈ victimPods.map VictimPod.uid

/-- Every pod deleted for a preemptor with these victims is one of them. -/
def EvictsOnly (o : Outcome) : Prop :=
  ∀ e ∈ o.evicted, e.preemptor.nominatedNode = some victimPods →
    e.pod.uid ∈ victimPods.map VictimPod.uid

end

section

variable {env : Env} {cache : BinderCache} {unit : BindingUnit} {o : Outcome}

/-- Pods are deleted for the new tasks that wait when all stages have been passed. -/
theorem mem_evicted {e : Eviction} (ho : checkAndBindUnit env cache unit = some o)
    (he : e ∈ o.evicted) :
    ∃ cr ∈ (afterStages env cache unit).1.getTasks .waitingTasks, isNewPreemptor cr = true ∧
      e ∈ (deleteVictimsForTask env cr.info cr.runningUnit.victims).1 := by
  rcases checkAndBindUnit_cases ho with ⟨-, hnone⟩ | heq
  · rw [hnone] at he
    cases he
  · rw [heq, evicted_deleteVictimsAndBindTasks] at he
    exact mem_deleteVictimsOfNewTasks_fst.mp he

theorem resolved_afterStages {cr : CheckResult} {l : TaskList}
    (h : cr ∈ (afterStages env cache unit).1.getTasks l) : Resolved env cache cr :=
  (sorted_afterStages kept_resolved resolved_initializeTask fun _ _ _ => Or.inl rfl).all l cr h

theorem marked_afterStages {cr : CheckResult}
    (h : cr ∈ (afterStages env cache unit).1.getTasks .waitingTasks) : Marked cache cr :=
  marked_markVictimsAndAssumeTasks h

theorem evictsOnly_of_deletesChosen {victimPods : VictimPods}
    (h : Preemptable env.podLister cache victimPods →
      DeletesChosen env.podLister env.deletePod victimPods)
    (ho : checkAndBindUnit env cache unit = some o) : EvictsOnly victimPods o := by
  intro e he hnominated
  obtain ⟨cr, hcr, hnew, hdeleted⟩ := mem_evicted ho he
  obtain ⟨hpre, before, victim, after, hvictims, hbefore, hdel⟩ :=
    mem_deleteVictimsForTask_iff.mp hdeleted
  rw [hpre] at hnominated
  have hfound : (∀ victimPod ∈ victimPods, resolvable env.podLister cache victimPod) ∧
      victimPods.filterMap (foundPod env.podLister) = cr.runningUnit.victims := by
    rcases resolved_afterStages hcr with hnil | ⟨victimPods', hnominated', hok⟩
    · rw [hnil] at hvictims
      cases before <;> cases hvictims
    · rw [hnominated] at hnominated'
      cases hnominated'
      exact getVictimsToPreempt_eq_ok_iff.mp hok
  have hmarked : ∀ victim ∈ cr.runningUnit.victims, cache.CanMark victim := by
    rcases marked_afterStages hcr with hassumed | hall
    · simp [isNewPreemptor, hassumed] at hnew
    · exact hall
  have hpreemptable : Preemptable env.podLister cache victimPods := by
    intro victimPod hmem
    refine ⟨hfound.1 victimPod hmem, ?_⟩
    intro pod hpod
    apply hmarked
    rw [← hfound.2]
    exact List.mem_filterMap.mpr ⟨victimPod, hmem, hpod⟩
  exact h hpreemptable before victim after (hfound.2.trans hvictims) hbefore e.pod hdel

end

section

variable {u : BindingUnitInfo} {l dst : TaskList} {cr cr' : CheckResult}

/-- The only task of a single pod unit, in one list. -/
structure Alone (u : BindingUnitInfo) (l : TaskList) (cr : CheckResult) : Prop where
  type : u.type = .singlePodUnitType
  here : u.getTasks l = [cr]
  elsewhere : ∀ l', l' ≠ l → u.getTasks l' = []

theorem Alone.not_failed (h : Alone u l cr) (hl : l ≠ .failedTasks) : u.isUnitFailed = false := by
  have hlen : (u.tasks .failedTasks).len = 0 := by
    rw [KeyedStore.len_eq_length_list]
    exact congrArg List.length (h.elsewhere .failedTasks hl.symm)
  unfold isUnitFailed
  rw [h.type]
  simp [hlen]

theorem type_settle : (u.settle dst cr).type = u.type := by
  unfold settle deleteTaskFromNewOrAssumedTasks
  split_ifs
  · rfl
  · split <;> rfl

theorem Alone.settle (h : Alone u .newTasks cr) (hdst : dst ≠ .newTasks)
    (huid : cr'.uid = cr.uid) (hassumed : cr'.assumed = false)
    (hnode : cr'.runningUnit.suggestedNode.isSome) : Alone (u.settle dst cr') dst cr' := by
  have htasks : (u.settle dst cr').tasks = u.tasks.move .newTasks dst cr' := by
    rw [tasks_settle, if_pos (Or.inr hnode), hassumed]
    rfl
  refine ⟨type_settle.trans h.type, ?_, ?_⟩
  · unfold getTasks
    rw [htasks, move_dst _ hdst.symm]
    exact KeyedStore.list_add_of_list_eq_nil (h.elsewhere dst hdst) cr'
  · intro l' hl'
    unfold getTasks
    rw [htasks]
    by_cases hnew : l' = .newTasks
    · subst hnew
      rw [move, drop, Function.update_self, put_of_ne _ hl', huid]
      exact KeyedStore.list_deleteByKey_of_list_eq_singleton h.here
    · rw [move_of_ne _ hnew hl']
      exact h.elsewhere l' hnew

theorem Alone.updateTask (h : Alone u l cr) (huid : cr'.uid = cr.uid) :
    Alone (updateTask l u cr') l cr' := by
  refine ⟨h.type, ?_, ?_⟩
  · have hput : (Binder.updateTask l u cr').tasks l = (u.tasks l).add cr' :=
      Function.update_self ..
    unfold getTasks
    rw [hput]
    exact KeyedStore.list_add_of_list_eq_singleton h.here huid
  · intro l' hl'
    have hput : (Binder.updateTask l u cr').tasks l' = u.tasks l' := put_of_ne _ hl' _
    unfold getTasks
    rw [hput]
    exact h.elsewhere l' hl'

end

section

variable {podLister : PodLister} {deletePod : String → String → DeleteAnswer}
  {u : BindingUnitInfo} {cr : CheckResult}

theorem checkNewTasks_of_pass {check : RunningUnitInfo → Option String}
    {unitErr : RunningUnitInfo → String} {crs : List CheckResult}
    (hpass : ∀ cr ∈ crs, check cr.runningUnit = none) (hu : u.isUnitFailed = false) :
    checkNewTasks check unitErr crs u = u := by
  induction crs with
  | nil => rfl
  | cons cr crs ih =>
    rw [List.forall_mem_cons] at hpass
    unfold checkNewTasks
    rw [hpass.1]
    simp only [hu]
    exact ih hpass.2

section

variable (h : Alone u .newTasks cr)

include h

theorem checkCrossNodePreemptionForUnit_of_alone :
    checkCrossNodePreemptionForUnit (.passing podLister deletePod) u = u := by
  have hassumed : u.getTasks .assumedTasks = [] := h.elsewhere _ (by decide)
  have hmoved : u.moveAllAssumedTasksToReadyList = u := by
    unfold moveAllAssumedTasksToReadyList moveAllAssumedTasks
    rw [hassumed]
    rfl
  unfold checkCrossNodePreemptionForUnit
  rw [hassumed]
  simp only [Env.passing, forward, id_eq, checkAssumedTasks, Bool.false_eq_true, if_false, hmoved]
  split_ifs
  · rfl
  · apply checkNewTasks_of_pass _ (h.not_failed (by decide))
    intro cr' _
    simp

theorem checkCrossNodeTopologyForUnit_of_alone (hnode : cr.runningUnit.suggestedNode.isSome) :
    checkCrossNodeTopologyForUnit (.passing podLister deletePod) u = u := by
  apply checkNewTasks_of_pass _ (h.not_failed (by decide))
  intro cr' hcr'
  have hmem : cr' ∈ u.getTasks .newTasks := hcr'
  rw [h.here, List.mem_singleton] at hmem
  subst hmem
  obtain ⟨node, hnode⟩ := Option.isSome_iff_exists.mp hnode
  simp [Env.passing, hnode]

theorem checkTasks_of_alone {node : NodeName}
    (hnode : cr.runningUnit.suggestedNode = some node) (hvictims : cr.runningUnit.victims ≠ []) :
    checkTasks (.passing podLister deletePod) u node =
      u.settle .waitingTasks ⟨false, cr.runningUnit, none⟩ := by
  have htasks : u.getNewTasksOnNode node = [cr] := by
    unfold getNewTasksOnNode
    rw [h.here]
    simp [hnode]
  have hpreempt : u.newTasksOnNodeNeedPreemption node = true := by
    unfold newTasksOnNodeNeedPreemption
    rw [htasks]
    simp [List.length_pos_iff.mpr hvictims]
  have hremove : ((u.getVictimsOfNewTasksOnNode node).findSome? fun victim =>
      (none : Option String).map fun err =>
        s!"fail to remove pod: {victim.ns}/{victim.name} from node info ({node.val}), " ++
          s!"error: {err}") = none := by
    simp
  unfold checkTasks
  simp only [Env.passing, Bool.not_true, Bool.false_eq_true, if_false, hremove, forward,
    id_eq, htasks, checkTasksOnNode, hpreempt, if_true]
  unfold moveAllNewTasksOnNodeToWaitingList moveAllNewTasksOnNode
  rw [htasks]
  rfl

theorem checkSameNodeConflictsForUnit_of_alone {node : NodeName}
    (hnodes : u.getNodeListOfNewTasks = [node])
    (hnode : cr.runningUnit.suggestedNode = some node) (hvictims : cr.runningUnit.victims ≠ []) :
    checkSameNodeConflictsForUnit (.passing podLister deletePod) u =
      u.settle .waitingTasks ⟨false, cr.runningUnit, none⟩ := by
  unfold checkSameNodeConflictsForUnit
  rw [hnodes]
  simp only [Env.passing, forward, id_eq, List.foldl_cons, List.foldl_nil, Bool.not_true,
    Bool.and_false, Bool.false_eq_true, if_false]
  exact checkTasks_of_alone h hnode hvictims

end

/-- The marked task waits, assumed, if the cache does not know its pod. -/
theorem markVictimsAndAssumeTasks_of_alone {cache : BinderCache} (h : Alone u .waitingTasks cr)
    (hassumed : cr.assumed = false) (huid : cr.uid ≠ "")
    (hfresh : cache.podStates.lookup cr.uid = none)
    (hmark : ∀ victim ∈ cr.runningUnit.victims, cache.CanMark victim)
    (hvictims : cr.runningUnit.victims ≠ []) :
    (markVictimsAndAssumeTasks (.passing podLister deletePod) u cache).1 =
      updateTask .waitingTasks u (setAssumed true (reserve cr)) := by
  obtain ⟨cache', hmarked, hsame⟩ : ∃ cache',
      markVictims cr.info.pod cr.runningUnit.victims cache = (cache', none) ∧
        SamePods cache cache' := by
    have hnone := markVictims_eq_none huid hmark
    have hsame := (samePods_markVictims cr.info.pod cr.runningUnit.victims cache).1
    generalize markVictims cr.info.pod cr.runningUnit.victims cache = marked at hnone hsame ⊢
    obtain ⟨cache', err⟩ := marked
    cases hnone
    exact ⟨cache', rfl, hsame⟩
  have hmarks : markVictimsOfNewTasks (.passing podLister deletePod) u cache = (u, cache') := by
    unfold markVictimsOfNewTasks
    simp only [Env.passing, forward, id_eq, h.here, List.foldl_cons, List.foldl_nil]
    have hstep : markVictimsOfTask (cache, ∅) cr = (cache', ∅) := by
      unfold markVictimsOfTask
      simp [hassumed, List.length_pos_iff.mpr hvictims, hmarked]
    rw [hstep]
    simp [failNodes]
  have hassume : ∃ cache'', assumeNewTasks (.passing podLister deletePod) u cache' =
      ((updateTask .waitingTasks u (setAssumed true (reserve cr)), cache''), none) := by
    have hready : u.getTasks .readyTasks = [] := h.elsewhere _ (by decide)
    have hlookup : cache'.podStates.lookup cr.uid = none := by
      rw [hsame.1]
      exact hfresh
    unfold assumeNewTasks
    simp only [Env.passing, forward, id_eq, hready, assumeTasks, h.here, hassumed,
      Bool.false_eq_true, if_false, BinderCache.assumePod, Pod.getPodKey, huid, hlookup,
      Option.isSome_none]
    exact ⟨_, rfl⟩
  obtain ⟨cache'', hassume⟩ := hassume
  unfold markVictimsAndAssumeTasks
  rw [hmarks]
  simp only [h.not_failed (by decide), Bool.false_eq_true, if_false, hassume]

end

section

variable {podLister : PodLister} {deletePod : String → String → DeleteAnswer}
  {cache : BinderCache} {uid : String} {victimPods : VictimPods} {victims : List Pod}

def preemptorNode : NodeName := nodeNamed ""

def preemptor (uid : String) (victimPods : VictimPods) : BindingPodInfo where
  pod :=
    { uid := uid
      ns := "default"
      name := "preemptor"
      nominatedNode := some (.parsed (some preemptorNode)) }
  timestamp := 0
  initialAttemptTimestamp := 0
  nominatedNode := some victimPods
  reserved_uid := reserved_uid_none uid

def preemptorUnit (uid : String) (victimPods : VictimPods) : BindingUnit where
  unitKey := .singlePodUnit "default" "preemptor"
  minMember := 1
  pods := (KeyedStore.empty _).add (preemptor uid victimPods)

def preemptorTask (uid : String) (victimPods : VictimPods) (victims : List Pod) :
    RunningUnitInfo where
  suggestedNode := some preemptorNode
  queuedPodInfo :=
    { preemptor uid victimPods with initialPreemptAttemptTimestamp := some 0 }
  victims := victims

def Fresh (cache : BinderCache) (uid : String) : Prop :=
  uid ≠ "" ∧ uid ∉ cache.assumedPods ∧ cache.podStates.lookup uid = none

theorem exists_fresh (cache : BinderCache) : ∃ uid, Fresh cache uid := by
  obtain ⟨uid, huid⟩ := Infinite.exists_notMem_finset
    ({""} ∪ cache.assumedPods ∪ cache.podStates.keys.toFinset)
  simp only [Finset.mem_union, Finset.mem_singleton, List.mem_toFinset, not_or] at huid
  refine ⟨uid, huid.1.1, huid.1.2, ?_⟩
  exact AList.lookup_eq_none.mpr fun h => huid.2 (AList.mem_keys.mp h)

theorem initializeUnit_preemptorUnit (hfresh : Fresh cache uid)
    (hok : getVictimsToPreempt (.passing podLister deletePod) cache victimPods = .ok victims)
    (hvictims : victims ≠ []) :
    initializeUnit (.passing podLister deletePod) cache (preemptorUnit uid victimPods) =
      (BindingUnitInfo.new .singlePodUnitType 1 1
        (decide (UnitKey.singlePodUnit "default" "preemptor" ∈ cache.scheduledUnits))).addNewTask
          (preemptorTask uid victimPods victims) := by
  have hskip : skipCheckingPod cache (preemptor uid victimPods).pod = false := by
    simp [skipCheckingPod, preemptor, BinderCache.isAssumedPod, Pod.getPodKey, Pod.boundPod,
      Except.map, hfresh.1, hfresh.2.1]
  have htask : ∀ everScheduled, initializeTask (.passing podLister deletePod) cache
      (BindingUnitInfo.new .singlePodUnitType 1 1 everScheduled) (preemptor uid victimPods) =
        (preemptorTask uid victimPods victims, none) := by
    intro everScheduled
    have hfind : (victims.find? fun victim => (BindingUnitInfo.new .singlePodUnitType 1 1
        everScheduled).hasVictim victim.uid) = none := by
      simp [BindingUnitInfo.hasVictim, BindingUnitInfo.new]
    have hstamp : victims.isEmpty = false := List.isEmpty_eq_false_iff.mpr hvictims
    have hnominated : (preemptor uid victimPods).nominatedNode = some victimPods := rfl
    have hnode : (preemptor uid victimPods).pod.getNodeNameFromPod = some preemptorNode := rfl
    unfold initializeTask
    simp only [hnominated, hnode, hok, hfind, hstamp]
    rfl
  have hlist : (preemptorUnit uid victimPods).pods.list = [preemptor uid victimPods] := rfl
  have hlen : (preemptorUnit uid victimPods).pods.len = 1 := rfl
  unfold initializeUnit
  rw [hlist, hlen]
  change initializePod _ cache (.new .singlePodUnitType 1 1 _) (preemptor uid victimPods) = _
  unfold initializePod
  rw [hskip, htask]
  rfl

theorem alone_addNewTask (everScheduled : Bool) :
    Alone ((BindingUnitInfo.new .singlePodUnitType 1 1 everScheduled).addNewTask
      (preemptorTask uid victimPods victims)) .newTasks
        { assumed := false, runningUnit := preemptorTask uid victimPods victims } := by
  refine ⟨rfl, rfl, ?_⟩
  intro l hl
  cases l
  case newTasks => exact absurd rfl hl
  all_goals rfl

theorem checkAndBindUnit_of_not_failed {env : Env} {unit : BindingUnit}
    {u₀ u₁ u₂ u₃ : BindingUnitInfo}
    (hlen : unit.pods.len ≠ 0) (htimeout : unitTimeout env cache unit = false)
    (h₀ : initializeUnit env cache unit = u₀) (hu₀ : u₀.isUnitFailed = false)
    (h₁ : checkCrossNodePreemptionForUnit env u₀ = u₁) (hu₁ : u₁.isUnitFailed = false)
    (h₂ : checkCrossNodeTopologyForUnit env u₁ = u₂) (hu₂ : u₂.isUnitFailed = false)
    (h₃ : checkSameNodeConflictsForUnit env u₂ = u₃) (hu₃ : u₃.isUnitFailed = false)
    (hu₄ : (markVictimsAndAssumeTasks env u₃ cache).1.isUnitFailed = false) :
    checkAndBindUnit env cache unit = some (deleteVictimsAndBindTasks env unit.unitKey
      (markVictimsAndAssumeTasks env u₃ cache).1 (markVictimsAndAssumeTasks env u₃ cache).2) := by
  simp only [checkAndBindUnit, if_neg hlen, htimeout, Bool.false_eq_true, if_false, stages,
    runStages, h₀, hu₀, h₁, hu₁, h₂, hu₂, h₃, hu₃, hu₄]

/-- All victims of the preemptor that the lister finds are deleted, by name. -/
theorem exists_evicted_preemptorUnit (hfresh : Fresh cache uid)
    (hpreemptable : Preemptable podLister cache victimPods)
    (hvictims : victimPods.filterMap (foundPod podLister) ≠ []) :
    ∃ o info, checkAndBindUnit (.passing podLister deletePod) cache
        (preemptorUnit uid victimPods) = some o ∧ info.nominatedNode = some victimPods ∧
      ∀ e ∈ (deleteVictimsForTask (.passing podLister deletePod) info
        (victimPods.filterMap (foundPod podLister))).1, e ∈ o.evicted := by
  set env := Env.passing podLister deletePod
  set victims := victimPods.filterMap (foundPod podLister)
  have hok : getVictimsToPreempt env cache victimPods = .ok victims :=
    getVictimsToPreempt_eq_ok_iff.mpr ⟨fun v hv => (hpreemptable v hv).1, rfl⟩
  have hmark : ∀ victim ∈ victims, cache.CanMark victim := by
    intro victim hvictim
    obtain ⟨victimPod, hmem, hfound⟩ := List.mem_filterMap.mp hvictim
    exact (hpreemptable victimPod hmem).2 victim hfound
  set rui := preemptorTask uid victimPods victims
  -- the unit after each stage: the preemptor is new, then it waits, then it waits assumed
  set u₀ := initializeUnit env cache (preemptorUnit uid victimPods)
  have hinit : u₀ = (BindingUnitInfo.new .singlePodUnitType 1 1 (decide
      (UnitKey.singlePodUnit "default" "preemptor" ∈ cache.scheduledUnits))).addNewTask rui :=
    initializeUnit_preemptorUnit hfresh hok hvictims
  have halone₀ : Alone u₀ .newTasks { assumed := false, runningUnit := rui } := by
    rw [hinit]
    exact alone_addNewTask _
  have hnodes : u₀.getNodeListOfNewTasks = [preemptorNode] := by
    rw [hinit]
    rfl
  set u₃ := u₀.settle .waitingTasks ⟨false, rui, none⟩
  have halone₃ : Alone u₃ .waitingTasks ⟨false, rui, none⟩ :=
    halone₀.settle (by decide) rfl rfl rfl
  have h₁ : checkCrossNodePreemptionForUnit env u₀ = u₀ :=
    checkCrossNodePreemptionForUnit_of_alone halone₀
  have h₂ : checkCrossNodeTopologyForUnit env u₀ = u₀ :=
    checkCrossNodeTopologyForUnit_of_alone halone₀ rfl
  have h₃ : checkSameNodeConflictsForUnit env u₀ = u₃ :=
    checkSameNodeConflictsForUnit_of_alone halone₀ hnodes rfl hvictims
  have h₄ : (markVictimsAndAssumeTasks env u₃ cache).1 =
      updateTask .waitingTasks u₃ (setAssumed true (reserve ⟨false, rui, none⟩)) :=
    markVictimsAndAssumeTasks_of_alone halone₃ rfl hfresh.1 hfresh.2.2 hmark hvictims
  have halone₄ : Alone (markVictimsAndAssumeTasks env u₃ cache).1 .waitingTasks
      (setAssumed true (reserve ⟨false, rui, none⟩)) := by
    rw [h₄]
    exact halone₃.updateTask rfl
  refine ⟨deleteVictimsAndBindTasks env (.singlePodUnit "default" "preemptor")
      (markVictimsAndAssumeTasks env u₃ cache).1 (markVictimsAndAssumeTasks env u₃ cache).2,
    (setAssumed true (reserve ⟨false, rui, none⟩)).info, ?_, rfl, ?_⟩
  · have hlen : (preemptorUnit uid victimPods).pods.len ≠ 0 := one_ne_zero
    have htimeout : unitTimeout env cache (preemptorUnit uid victimPods) = false := by
      simp [unitTimeout, preemptorUnit]
    have hnew := halone₀.not_failed (by decide)
    exact checkAndBindUnit_of_not_failed hlen htimeout rfl hnew h₁ hnew h₂ hnew h₃
      (halone₃.not_failed (by decide)) (halone₄.not_failed (by decide))
  · intro e he
    rw [evicted_deleteVictimsAndBindTasks, mem_deleteVictimsOfNewTasks_fst]
    refine ⟨setAssumed true (reserve ⟨false, rui, none⟩), ?_, ?_, he⟩
    · rw [halone₄.here]
      exact List.mem_singleton_self _
    · have hpos : 0 < victims.length := List.length_pos_iff.mpr hvictims
      exact decide_eq_true hpos

end

/-- For a victim list and the states of the lister, the cache and the API server, every unit with a
preemptor of these victims evicts only them exactly if the deleted names still belong to them. -/
theorem evictsOnlyVictims_iff (podLister : PodLister)
    (deletePod : String → String → DeleteAnswer) (cache : BinderCache) (victimPods : VictimPods) :
    (∀ env unit o, env.podLister = podLister → env.deletePod = deletePod →
      checkAndBindUnit env cache unit = some o → EvictsOnly victimPods o) ↔
        (Preemptable podLister cache victimPods →
          DeletesChosen podLister deletePod victimPods) := by
  constructor
  · intro h hpreemptable before victim after hsplit hbefore pod hdel
    obtain ⟨uid, hfresh⟩ := exists_fresh cache
    have hvictims : victimPods.filterMap (foundPod podLister) ≠ [] := by
      rw [hsplit]
      simp
    obtain ⟨o, info, ho, hnominated, hevicted⟩ :=
      exists_evicted_preemptorUnit hfresh hpreemptable hvictims
    have hmem : (⟨info, pod⟩ : Eviction) ∈ o.evicted := by
      apply hevicted
      exact mem_deleteVictimsForTask_iff.mpr
        ⟨rfl, before, victim, after, hsplit, hbefore, hdel⟩
    exact h _ _ o rfl rfl ho _ hmem hnominated
  · rintro h env unit o rfl rfl ho
    exact evictsOnly_of_deletesChosen h ho

section

def recreatedPod : Pod :=
  { uid := "web-0-new", ns := "default", name := "web-0", nodeName := some preemptorNode }

def chosenVictims : VictimPods := [⟨"default", "web-0", "web-0-old"⟩]

def cacheWithRecreatedPod : BinderCache :=
  ⟨(∅ : GoMap String Pod).insert "web-0-new" recreatedPod, ∅, ∅, ∅⟩

def serverWithRecreatedPod (ns name : String) : DeleteAnswer :=
  if ns = "default" ∧ name = "web-0" then .deleted recreatedPod else .notFound

/-- The victim was deleted and created again before the binder handled its preemptor. -/
theorem checkAndBindUnit_evicts_recreated_pod :
    ∃ o, checkAndBindUnit (.passing (.ofPods [recreatedPod]) serverWithRecreatedPod)
        cacheWithRecreatedPod (preemptorUnit "preemptor" chosenVictims) = some o ∧
      ¬ EvictsOnly chosenVictims o := by
  refine ⟨_, rfl, ?_⟩
  unfold EvictsOnly
  decide

end

end GodelScheduler.Binder
