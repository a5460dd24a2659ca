import GodelScheduler.Binder.Bind

/-!
# Enough tasks before anything is deleted or bound

The stages judge a unit by its failed and ignored tasks only. That enough tasks
are then ready or waiting follows because no task is lost: every pod of the unit
is in a list or ignored after the initialization, every move keeps it in some
list (`KeepsTasks`), the preemption check empties the assumed tasks and the
conflict check the new ones.

`startsDeleting` and `startsBinding` are the units with which the two
irreversible parts of the last stage begin, if they are reached at all.
-/

namespace GodelScheduler.Binder

open Library Shelves BindingUnitInfo CheckResult KeyedStore List

/-- The new tasks are on nodes the unit lists. -/
def BindingUnitInfo.NewOnNodes (u : BindingUnitInfo) : Prop :=
  ∀ cr ∈ u.getTasks .newTasks, ∃ node ∈ u.nodes, cr.runningUnit.suggestedNode = some node

/-- Only the lists, the nodes and the victims change. -/
structure SameUnit (u u' : BindingUnitInfo) : Prop where
  type : u'.type = u.type
  minMember : u'.minMember = u.minMember
  allMember : u'.allMember = u.allMember
  everScheduled : u'.everScheduled = u.everScheduled
  ignored : u'.ignoredTasks = u.ignoredTasks

structure KeepsTasks (u u' : BindingUnitInfo) : Prop extends SameUnit u u' where
  held : ∀ uid, u'.tasks.Held uid ↔ u.tasks.Held uid
  failed : ∀ uid, u.tasks.Has .failedTasks uid → u'.tasks.Has .failedTasks uid
  assumed : ∀ uid, u'.tasks.Has .assumedTasks uid → u.tasks.Has .assumedTasks uid
  new : ∀ cr ∈ u'.getTasks .newTasks, cr ∈ u.getTasks .newTasks
  onNodes : u.NewOnNodes → u'.NewOnNodes

namespace KeepsTasks

variable {u u' u'' : BindingUnitInfo}

theorem refl (u : BindingUnitInfo) : KeepsTasks u u :=
  ⟨⟨rfl, rfl, rfl, rfl, rfl⟩, fun _ => Iff.rfl, fun _ h => h, fun _ h => h, fun _ h => h, id⟩

theorem trans (h : KeepsTasks u u') (h' : KeepsTasks u' u'') : KeepsTasks u u'' where
  type := h'.type.trans h.type
  minMember := h'.minMember.trans h.minMember
  allMember := h'.allMember.trans h.allMember
  everScheduled := h'.everScheduled.trans h.everScheduled
  ignored := h'.ignored.trans h.ignored
  held uid := (h'.held uid).trans (h.held uid)
  failed uid huid := h'.failed uid (h.failed uid huid)
  assumed uid huid := h.assumed uid (h'.assumed uid huid)
  new cr hcr := h.new cr (h'.new cr hcr)
  onNodes hn := h'.onNodes (h.onNodes hn)

theorem isUnitFailed (h : KeepsTasks u u') (hfailed : u.isUnitFailed = true) :
    u'.isUnitFailed = true := by
  have hle : (u.tasks .failedTasks).len ≤ (u'.tasks .failedTasks).len := by
    rw [len_eq_length_list, len_eq_length_list, ← length_map uid, ← length_map uid]
    apply (subperm_of_subset (u.tasks .failedTasks).nodup_list_key _).length_le
    intro uid huid
    exact has_iff_mem.mp (h.failed uid (has_iff_mem.mpr huid))
  unfold BindingUnitInfo.isUnitFailed at hfailed ⊢
  rw [h.type, h.everScheduled, h.allMember, h.ignored, h.minMember]
  cases htype : u.type with
  | podGroupUnitType =>
    simp only [htype, Bool.and_eq_true, decide_eq_true_eq] at hfailed ⊢
    refine ⟨hfailed.1, ?_⟩
    omega
  | singlePodUnitType =>
    simp only [htype, decide_eq_true_eq] at hfailed ⊢
    omega

end KeepsTasks

variable {node : NodeName} {uid : String} {u' : BindingUnitInfo}

section Moves

variable {u : BindingUnitInfo} {src dst : TaskList} {cr : CheckResult}

theorem mem_nodes_deleteVictims (hnode : node ∈ u.nodes) (hcr : cr ∈ u.getTasks .newTasks)
    (hon : cr.runningUnit.suggestedNode = some node) (node' : NodeName) (victims : List Pod) :
    node ∈ (u.deleteVictims node' victims).nodes := by
  unfold deleteVictims
  simp only
  split_ifs with hempty
  · rw [Bool.and_eq_true, List.isEmpty_iff] at hempty
    rw [AList.mem_erase]
    refine ⟨?_, hnode⟩
    rintro rfl
    have hmem : cr ∈ u.getNewTasksOnNode node :=
      mem_filter.mpr ⟨hcr, decide_eq_true hon⟩
    rw [hempty.1] at hmem
    cases hmem
  · exact hnode

theorem mem_nodes_settle (hnode : node ∈ u.nodes) {cr' : CheckResult}
    (hcr' : cr' ∈ (u.settle dst cr).getTasks .newTasks)
    (hon : cr'.runningUnit.suggestedNode = some node) : node ∈ (u.settle dst cr).nodes := by
  unfold settle deleteTaskFromNewOrAssumedTasks at hcr' ⊢
  cases hassumed : cr.assumed with
  | true => exact hnode
  | false =>
    cases hsuggested : cr.runningUnit.suggestedNode with
    | none => exact hnode
    | some node' =>
      simp only [hassumed, hsuggested, Bool.false_eq_true, if_false] at hcr' ⊢
      refine mem_nodes_deleteVictims ?_ ?_ hon _ _
      · exact hnode
      · exact hcr'

theorem held_of_mem_getTasks {l : TaskList} (hcr : cr ∈ u.getTasks l) : u.tasks.Held cr.uid :=
  ⟨l, has_of_mem_list hcr⟩

theorem sameUnit_settle (dst : TaskList) (u : BindingUnitInfo) (cr : CheckResult) :
    SameUnit u (u.settle dst cr) := by
  unfold settle deleteTaskFromNewOrAssumedTasks
  split_ifs
  · exact ⟨rfl, rfl, rfl, rfl, rfl⟩
  · split <;> exact ⟨rfl, rfl, rfl, rfl, rfl⟩

section

variable (hdst : dst.checked)

include hdst

theorem uncheckedList_ne (assumed : Bool) : BindingUnitInfo.uncheckedList assumed ≠ dst := by
  cases assumed
  · exact hdst.ne_unchecked.2.symm
  · exact hdst.ne_unchecked.1.symm

theorem has_settle_self (u : BindingUnitInfo) (cr : CheckResult) :
    (u.settle dst cr).tasks.Has dst cr.uid := by
  have hput : (u.tasks.put dst cr).Has dst cr.uid := (has_put _).mpr (.inl ⟨rfl, rfl⟩)
  rw [tasks_settle]
  split_ifs
  · exact (has_drop _).mpr ⟨fun hc => uncheckedList_ne hdst cr.assumed hc.1.symm, hput⟩
  · exact hput

theorem has_settleAll {crs : List CheckResult}
    (h : uid ∈ crs.map CheckResult.uid ∨ u.tasks.Has dst uid) :
    (u.settleAll dst crs).tasks.Has dst uid := by
  induction crs generalizing u with
  | nil => exact h.resolve_left (by simp)
  | cons cr crs ih =>
    apply ih
    by_cases huid : uid = cr.uid
    · rw [huid]
      exact .inr (has_settle_self hdst u cr)
    · rw [map_cons, mem_cons] at h
      exact (h.imp_left fun hmem => hmem.resolve_left huid).imp_right (has_settle_of_ne huid)

theorem has_moveAllNewTasksOnNode (err : Option String)
    {nodeName : NodeName} (hcr : cr ∈ u.getNewTasksOnNode nodeName) :
    (u.moveAllNewTasksOnNode dst err nodeName).tasks.Has dst cr.uid := by
  apply has_settleAll hdst
  rw [map_map]
  exact .inl (mem_map.mpr ⟨cr, hcr, rfl⟩)

theorem held_settle (cr : CheckResult) (h : u.tasks.Held uid) :
    (u.settle dst cr).tasks.Held uid := by
  rw [tasks_settle]
  split_ifs
  · exact h.move (uncheckedList_ne hdst cr.assumed) cr
  · exact h.put dst cr

end

theorem held_of_held_settle (h : (u.settle dst cr).tasks.Held uid) :
    uid = cr.uid ∨ u.tasks.Held uid := by
  obtain ⟨l, hl⟩ := h
  exact (has_of_has_settle hl).imp_right fun hl => ⟨l, hl⟩

theorem onNodes_settle (hdst : dst.checked) (cr : CheckResult) (hnodes : u.NewOnNodes) :
    (u.settle dst cr).NewOnNodes := by
  intro cr' hcr'
  obtain ⟨node, hnode, hon⟩ := hnodes cr' (mem_getTasks_settle hdst.ne_unchecked.2.symm hcr')
  exact ⟨node, mem_nodes_settle hnode hcr' hon, hon⟩

namespace KeepsTasks

theorem settle (hdst : dst.checked) (hcr : u.tasks.Held cr.uid) :
    KeepsTasks u (u.settle dst cr) := by
  refine ⟨sameUnit_settle dst u cr, ?_, ?_, ?_, ?_, onNodes_settle hdst cr⟩
  · intro uid
    constructor
    · intro hheld
      rcases held_of_held_settle hheld with rfl | h
      · exact hcr
      · exact h
    · exact held_settle hdst cr
  · intro uid huid
    rw [tasks_settle]
    split_ifs
    · apply has_move_of_src_ne _ huid
      cases cr.assumed <;> decide
    · exact (has_put _).mpr (.inr huid)
  · intro uid huid
    obtain ⟨cr', hcr', rfl⟩ := mem_map.mp (has_iff_mem.mp huid)
    exact has_of_mem_list (mem_getTasks_settle hdst.ne_unchecked.1.symm hcr')
  · intro cr' hcr'
    exact mem_getTasks_settle hdst.ne_unchecked.2.symm hcr'

theorem of_tasks {u : BindingUnitInfo} {tasks : Shelves TaskList CheckResult.uid}
    (hheld : ∀ uid, tasks.Held uid ↔ u.tasks.Held uid)
    (hfailed : ∀ uid, u.tasks.Has .failedTasks uid → tasks.Has .failedTasks uid)
    (hassumed : ∀ uid, tasks.Has .assumedTasks uid → u.tasks.Has .assumedTasks uid)
    (hnew : tasks .newTasks = u.tasks .newTasks) : KeepsTasks u { u with tasks := tasks } := by
  have hmem : ∀ cr ∈ (tasks .newTasks).list, cr ∈ u.getTasks .newTasks := by
    intro cr hcr
    rwa [hnew] at hcr
  exact ⟨⟨rfl, rfl, rfl, rfl, rfl⟩, hheld, hfailed, hassumed, hmem,
    fun hnodes cr hcr => hnodes cr (hmem cr hcr)⟩

theorem moveWhere (hsrc : src.checked) (hfailed : src ≠ .failedTasks) (hdst : dst.checked)
    (hne : src ≠ dst) (u : BindingUnitInfo) (p : CheckResult → Bool)
    (err : CheckResult → Option String) : KeepsTasks u (u.moveWhere src dst p err) := by
  apply of_tasks
  · intro uid
    apply held_moveAll_iff hne
    intro cr hcr
    obtain ⟨cr', hcr', rfl⟩ := mem_map.mp hcr
    have hheld : u.tasks.Held cr'.uid := held_of_mem_getTasks (mem_filter.mp hcr').1
    exact hheld
  · intro uid huid
    exact has_moveAll_of_src_ne hfailed.symm huid _
  · intro uid huid
    unfold Shelves.Has at huid
    rwa [moveAll_of_ne _ hsrc.ne_unchecked.1.symm hdst.ne_unchecked.1.symm] at huid
  · exact moveAll_of_ne _ hsrc.ne_unchecked.2.symm hdst.ne_unchecked.2.symm _

theorem updateTask {l : TaskList} (hl : l.checked) (hcr : u.tasks.Held cr.uid) :
    KeepsTasks u (updateTask l u cr) := by
  apply of_tasks
  · intro uid
    exact held_put_iff hcr
  · intro uid huid
    exact (has_put _).mpr (.inr huid)
  · intro uid huid
    rcases (has_put _).mp huid with ⟨heq, -⟩ | h
    · exact absurd heq.symm hl.ne_unchecked.1
    · exact h
  · exact put_of_ne _ hl.ne_unchecked.2.symm _

theorem addAssumedTask {qpi : BindingPodInfo} (hin : u.tasks.Has .assumedTasks qpi.pod.uid) :
    KeepsTasks u (u.addAssumedTask qpi) := by
  apply of_tasks
  · intro uid
    exact held_put_iff ⟨.assumedTasks, hin⟩
  · intro uid huid
    exact (has_put _).mpr (.inr huid)
  · intro uid huid
    rcases (has_put _).mp huid with ⟨-, rfl⟩ | h
    · exact hin
    · exact h
  · exact put_of_ne _ (by decide) _

theorem of_move (h : Move u u') : KeepsTasks u u' := by
  cases h with
  | @settleAssumed _ cr cr' hdst hin _ _ hinfo =>
    apply settle hdst
    have hheld := held_of_mem_getTasks hin
    rwa [uid, ← hinfo] at hheld
  | @settleNew _ cr cr' hdst hin _ hunit =>
    apply settle hdst
    rw [uid_congr hunit]
    exact held_of_mem_getTasks hin
  | moveWhere p err hsrc hfailed hdst hne => exact moveWhere hsrc hfailed hdst hne u p err
  | @addAssumedTask cr stamp hin =>
    exact addAssumedTask (has_of_mem_list hin)
  | @updateTask l cr cr' hl hin hsame =>
    have huid : cr'.uid = cr.uid := congrArg Pod.uid hsame.pod
    apply updateTask hl
    rw [huid]
    exact held_of_mem_getTasks hin

theorem of_moves (h : Moves u u') : KeepsTasks u u' := by
  induction h with
  | refl => exact refl u
  | tail _ hmove ih => exact ih.trans (of_move hmove)

end KeepsTasks

end Moves

section

variable {env : Env} {u : BindingUnitInfo} {dst : TaskList}

theorem tasks_settleAll (assumed : Bool) {crs : List CheckResult}
    (hcrs : ∀ cr ∈ crs, cr.assumed = assumed ∧ (cr.assumed ∨ cr.runningUnit.suggestedNode.isSome)) :
    (u.settleAll dst crs).tasks =
      u.tasks.moveAll (BindingUnitInfo.uncheckedList assumed) dst crs := by
  induction crs generalizing u with
  | nil => rfl
  | cons cr crs ih =>
    obtain ⟨⟨hassumed, hplaced⟩, hcrs⟩ := forall_mem_cons.mp hcrs
    have hcr : (u.settle dst cr).tasks =
        u.tasks.move (BindingUnitInfo.uncheckedList assumed) dst cr := by
      rw [tasks_settle, if_pos hplaced, hassumed]
    refine (ih hcrs).trans ?_
    rw [hcr]
    rfl

theorem not_has_settleAll (hdst : dst.checked) (assumed : Bool) {crs : List CheckResult}
    (hcrs : ∀ cr ∈ crs, cr.assumed = assumed ∧
      (cr.assumed ∨ cr.runningUnit.suggestedNode.isSome)) (huid : uid ∈ crs.map CheckResult.uid) :
    ¬ (u.settleAll dst crs).tasks.Has (BindingUnitInfo.uncheckedList assumed) uid := by
  unfold Shelves.Has
  rw [tasks_settleAll assumed hcrs, getByKey_moveAll_src _ (uncheckedList_ne hdst assumed),
    if_pos huid]
  exact Bool.false_ne_true

theorem not_has_assumed_moveAllAssumedTasks (hdst : dst.checked) (uid : String) :
    ¬ (u.moveAllAssumedTasks dst).tasks.Has .assumedTasks uid := by
  intro hhas
  have hold := (KeepsTasks.of_moves (moves_moveAllAssumedTasks hdst u)).assumed uid hhas
  refine not_has_settleAll hdst true ?_ ?_ hhas
  · intro cr hcr
    obtain ⟨cr', -, rfl⟩ := mem_map.mp hcr
    exact ⟨rfl, .inl rfl⟩
  · rw [map_map]
    exact has_iff_mem.mp hold

theorem not_on_node_moveAllNewTasksOnNode (hdst : dst.checked) (err : Option String)
    (nodeName : NodeName) :
    ∀ cr ∈ (u.moveAllNewTasksOnNode dst err nodeName).getTasks .newTasks,
      cr.runningUnit.suggestedNode ≠ some nodeName := by
  intro cr hcr hon
  have hold := (KeepsTasks.of_moves
    (movesNew_moveAllNewTasksOnNode hdst err u nodeName).moves).new cr hcr
  refine not_has_settleAll hdst false ?_ ?_ (has_of_mem_list hcr)
  · intro cr' hcr'
    obtain ⟨cr'', hcr'', rfl⟩ := mem_map.mp hcr'
    have hsome := of_decide_eq_true (mem_filter.mp hcr'').2
    exact ⟨rfl, .inr (by rw [hsome]; rfl)⟩
  · rw [map_map]
    exact mem_map.mpr ⟨cr, mem_filter.mpr ⟨hold, decide_eq_true hon⟩, rfl⟩

theorem getTasks_new_moveAllTasksToFailedList
    (h : ∀ cr ∈ u.getTasks .newTasks, cr.runningUnit.suggestedNode.isSome) (err : String) :
    (u.moveAllTasksToFailedList err).getTasks .newTasks = [] := by
  rw [eq_nil_iff_forall_not_mem]
  intro cr hcr
  unfold moveAllTasksToFailedList at hcr
  extract_lets u₁ u₂ at hcr
  have hassumed : ∀ cr ∈ u₁.getTasks .newTasks, cr.runningUnit.suggestedNode.isSome :=
    fun cr hcr => h cr ((KeepsTasks.of_moves
      (moves_assumedTo (by trivial) (fun _ => none) (some err))).new cr hcr)
  have hcr₂ : cr ∈ u₂.getTasks .newTasks :=
    ((KeepsTasks.moveWhere (by trivial) (by decide) (by trivial) (by decide) _ _ _).trans
      (KeepsTasks.moveWhere (by trivial) (by decide) (by trivial) (by decide) _ _ _)).new cr hcr
  have hcr₁ : cr ∈ u₁.getTasks .newTasks :=
    (KeepsTasks.of_moves (moves_newTo (by trivial) (some err))).new cr hcr₂
  refine not_has_settleAll (by trivial) false ?_ ?_ (has_of_mem_list hcr₂)
  · intro cr' hcr'
    obtain ⟨cr'', hcr'', rfl⟩ := mem_map.mp hcr'
    exact ⟨rfl, .inr (hassumed cr'' hcr'')⟩
  · rw [map_map]
    exact mem_map_of_mem hcr₁

theorem isUnitFailed_of_checkAssumedTasks_eq_none (env : Env) (l : List CheckResult)
    (u : BindingUnitInfo) (anyOneStillInProgress : Bool)
    (h : (checkAssumedTasks env l u anyOneStillInProgress).2 = none) :
    (checkAssumedTasks env l u anyOneStillInProgress).1.isUnitFailed = true := by
  induction l generalizing u anyOneStillInProgress with
  | nil => cases h
  | cons cr l ih =>
    unfold checkAssumedTasks at h ⊢
    split at h
    · exact ih _ _ h
    · simp only at h ⊢
      split_ifs at h ⊢ with hfailed
      · exact (KeepsTasks.of_moves (moves_moveAllTasksToFailedList _ _)).isUnitFailed hfailed
      · exact ih _ _ h

theorem not_has_assumed_checkCrossNodePreemptionForUnit
    (h : (checkCrossNodePreemptionForUnit env u).isUnitFailed = false) (uid : String) :
    ¬ (checkCrossNodePreemptionForUnit env u).tasks.Has .assumedTasks uid := by
  have hnone := isUnitFailed_of_checkAssumedTasks_eq_none env
    (env.taskOrder.list (u.getTasks .assumedTasks)) u false
  unfold checkCrossNodePreemptionForUnit at h ⊢
  split at h
  next u' heq =>
    rw [heq] at hnone
    rw [hnone rfl] at h
    cases h
  next u' anyOneStillInProgress heq =>
    extract_lets moved
    have hmoved : ¬ moved.tasks.Has .assumedTasks uid := by
      change ¬ (if anyOneStillInProgress then u'.moveAllAssumedTasksToWaitingList
        else u'.moveAllAssumedTasksToReadyList).tasks.Has .assumedTasks uid
      split_ifs
      · exact not_has_assumed_moveAllAssumedTasks (by trivial) uid
      · exact not_has_assumed_moveAllAssumedTasks (by trivial) uid
    by_cases hno : moved.noVictim = true
    · rw [if_pos hno]
      exact hmoved
    · rw [if_neg hno]
      exact fun hhas => hmoved ((KeepsTasks.of_moves (moves_checkNewTasks _ _ (nodup_order _ _)
        fun cr hcr => (env.taskOrder.mem_list).mp hcr)).assumed uid hhas)

theorem not_on_node_checkTasksOnNode (nodeName : NodeName) (l : List CheckResult)
    (u : BindingUnitInfo) (h : (checkTasksOnNode env nodeName l u).isUnitFailed = false) :
    ∀ cr ∈ (checkTasksOnNode env nodeName l u).getTasks .newTasks,
      cr.runningUnit.suggestedNode ≠ some nodeName := by
  induction l generalizing u with
  | nil =>
    unfold checkTasksOnNode
    split_ifs
    · exact not_on_node_moveAllNewTasksOnNode (by trivial) _ _
    · exact not_on_node_moveAllNewTasksOnNode (by trivial) _ _
  | cons cr l ih =>
    unfold checkTasksOnNode at h ⊢
    cases hcheck : env.checkConflictPhase cr.runningUnit with
    | none =>
      simp only [hcheck] at h
      exact ih u h
    | some err =>
      simp only [hcheck] at h ⊢
      split_ifs at h ⊢ with hpreemptor hfailed
      · exact not_on_node_moveAllNewTasksOnNode (by trivial) _ _
      · rw [hfailed] at h
        cases h
      · exact ih _ h

theorem not_on_node_checkTasks (nodeName : NodeName)
    (h : (checkTasks env u nodeName).isUnitFailed = false) :
    ∀ cr ∈ (checkTasks env u nodeName).getTasks .newTasks,
      cr.runningUnit.suggestedNode ≠ some nodeName := by
  unfold checkTasks at h ⊢
  split_ifs at h ⊢
  · exact not_on_node_moveAllNewTasksOnNode (by trivial) _ _
  · simp only at h ⊢
    split at h
    · exact not_on_node_moveAllNewTasksOnNode (by trivial) _ _
    · exact not_on_node_checkTasksOnNode nodeName _ u h

theorem KeepsTasks.not_failed {u u' : BindingUnitInfo} (h : KeepsTasks u u')
    (hu' : u'.isUnitFailed = false) : u.isUnitFailed = false := by
  by_contra hfailed
  rw [h.isUnitFailed (eq_true_of_ne_false hfailed)] at hu'
  cases hu'

theorem not_on_nodes_foldl_checkNode (nodes : List NodeName) (u : BindingUnitInfo)
    (h : (nodes.foldl (checkNode env) u).isUnitFailed = false) :
    ∀ node ∈ nodes, ∀ cr ∈ (nodes.foldl (checkNode env) u).getTasks .newTasks,
      cr.runningUnit.suggestedNode ≠ some node := by
  induction nodes generalizing u with
  | nil =>
    intro node hnode
    cases hnode
  | cons node nodes ih =>
    -- a unit that has not failed in the end has not failed before, so no node was left out
    have hu := (KeepsTasks.of_moves (moves_foldl_checkNode env (node :: nodes) u)).not_failed h
    rw [foldl_cons, checkNode, hu, Bool.false_and, if_neg Bool.false_ne_true] at h ⊢
    have hkeeps := KeepsTasks.of_moves (moves_foldl_checkNode env nodes (checkTasks env u node))
    intro node' hnode' cr hcr
    rcases mem_cons.mp hnode' with rfl | hmem
    · exact not_on_node_checkTasks node' (hkeeps.not_failed h) cr (hkeeps.new cr hcr)
    · exact ih _ h node' hmem cr hcr

theorem getTasks_new_checkSameNodeConflictsForUnit (hnodes : u.NewOnNodes)
    (h : (checkSameNodeConflictsForUnit env u).isUnitFailed = false) :
    (checkSameNodeConflictsForUnit env u).getTasks .newTasks = [] := by
  rw [eq_nil_iff_forall_not_mem]
  intro cr hcr
  obtain ⟨node, hnode, hon⟩ := hnodes cr ((KeepsTasks.of_moves
    (moves_checkSameNodeConflictsForUnit env u)).new cr hcr)
  have hmem : node ∈ env.nodeOrder.list u.getNodeListOfNewTasks :=
    (env.nodeOrder.mem_list).mpr hnode
  exact not_on_nodes_foldl_checkNode _ u h node hmem cr hcr hon

end

section

variable {env : Env} {cache : BinderCache} {u : BindingUnitInfo} {qpi : BindingPodInfo}

/-- The pod is in a list or ignored. -/
def BindingUnitInfo.Accounts (u : BindingUnitInfo) (uid : String) : Prop :=
  u.tasks.Held uid ∨ uid ∈ u.ignoredTasks.map fun info => info.pod.uid

structure Initialized (pods : List BindingPodInfo) (u u' : BindingUnitInfo) : Prop where
  type : u'.type = u.type
  minMember : u'.minMember = u.minMember
  allMember : u'.allMember = u.allMember
  everScheduled : u'.everScheduled = u.everScheduled
  keeps : ∀ uid, u.Accounts uid → u'.Accounts uid
  accounts : ∀ info ∈ pods, u'.Accounts info.pod.uid
  only : ∀ uid, u'.tasks.Held uid → uid ∈ pods.map (fun info => info.pod.uid) ∨ u.tasks.Held uid
  onNodes : u.NewOnNodes → u'.NewOnNodes

theorem initialized_of_held {qpi : BindingPodInfo} (hsame : SameUnit u u')
    (hkeep : ∀ uid, u.tasks.Held uid → u'.tasks.Held uid) (hself : u'.tasks.Held qpi.pod.uid)
    (honly : ∀ uid, u'.tasks.Held uid → uid = qpi.pod.uid ∨ u.tasks.Held uid)
    (hnodes : u.NewOnNodes → u'.NewOnNodes) : Initialized [qpi] u u' := by
  refine ⟨hsame.type, hsame.minMember, hsame.allMember, hsame.everScheduled, ?_, ?_, ?_, hnodes⟩
  · rintro uid (hu | hmem)
    · exact .inl (hkeep uid hu)
    · right
      rwa [hsame.ignored]
  · intro info hinfo
    rw [mem_singleton.mp hinfo]
    exact .inl hself
  · exact fun uid huid => (honly uid huid).imp_left mem_singleton.mpr

section

variable (u : BindingUnitInfo)

theorem initialized_addAssumedTask (qpi : BindingPodInfo) :
    Initialized [qpi] u (u.addAssumedTask qpi) := by
  refine initialized_of_held ⟨rfl, rfl, rfl, rfl, rfl⟩ (fun _ h => h.put _ _) ?_ ?_ ?_
  · exact ⟨.assumedTasks, (has_put _).mpr (.inl ⟨rfl, rfl⟩)⟩
  · exact fun _ => held_of_held_put
  · intro hnodes cr hcr
    exact hnodes cr ((mem_getTasks_put (by decide)).mp hcr)

theorem initialized_addIgnoredTasks (qpi : BindingPodInfo) :
    Initialized [qpi] u (u.addIgnoredTasks qpi) := by
  have hignored : ((u.addIgnoredTasks qpi).ignoredTasks.map fun info => info.pod.uid) =
      (u.ignoredTasks.map fun info => info.pod.uid) ++ [qpi.pod.uid] := map_append
  refine ⟨rfl, rfl, rfl, rfl, ?_, ?_, fun uid huid => .inr huid, id⟩
  · rintro uid (hheld | hmem)
    · exact .inl hheld
    · right
      rw [hignored]
      exact mem_append_left _ hmem
  · intro info hinfo
    right
    rw [mem_singleton.mp hinfo, hignored]
    exact mem_append_right _ (mem_singleton_self _)

theorem initialized_addFailedTask {rui : RunningUnitInfo}
    (hpod : rui.queuedPodInfo.pod = qpi.pod) (err : String) :
    Initialized [qpi] u (u.addFailedTask rui err false) := by
  have huid : rui.queuedPodInfo.pod.uid = qpi.pod.uid := congrArg Pod.uid hpod
  refine initialized_of_held (sameUnit_settle .failedTasks u ⟨false, rui, some err⟩)
    (fun _ h => held_settle (by trivial) _ h) ?_ ?_ (onNodes_settle (by trivial) _)
  · exact huid ▸ ⟨.failedTasks, has_settle_self (by trivial) u _⟩
  · exact huid ▸ fun _ => held_of_held_settle

theorem initialized_addNewTask {rui : RunningUnitInfo}
    (hpod : rui.queuedPodInfo.pod = qpi.pod) (hnode : rui.suggestedNode = some node) :
    Initialized [qpi] u (u.addNewTask rui) := by
  have huid : rui.queuedPodInfo.pod.uid = qpi.pod.uid := congrArg Pod.uid hpod
  unfold addNewTask
  rw [hnode]
  refine initialized_of_held ⟨rfl, rfl, rfl, rfl, rfl⟩ (fun _ h => h.put _ _) ?_ ?_ ?_
  · exact huid ▸ ⟨.newTasks, (has_put _).mpr (.inl ⟨rfl, rfl⟩)⟩
  · exact huid ▸ fun _ => held_of_held_put
  · intro hnodes cr hcr
    rcases (mem_put _).mp hcr with ⟨-, rfl⟩ | ⟨hold, -⟩
    · exact ⟨node, (AList.mem_insert _).mpr (.inl rfl), hnode⟩
    · obtain ⟨node', hnode', hon⟩ := hnodes cr hold
      exact ⟨node', (AList.mem_insert _).mpr (.inr hnode'), hon⟩

end

variable (env : Env) (cache : BinderCache)

theorem initialized_initializePod (u : BindingUnitInfo) (qpi : BindingPodInfo) :
    Initialized [qpi] u (initializePod env cache u qpi) := by
  rcases initializePod_cases env cache u qpi with
    heq | heq | ⟨rui, err, hpod, -, heq⟩ | ⟨rui, htask, heq⟩
  · rw [heq]
    exact initialized_addAssumedTask u qpi
  · rw [heq]
    exact initialized_addIgnoredTasks u qpi
  · rw [heq]
    exact initialized_addFailedTask u hpod err
  · obtain ⟨node, hnode⟩ := Option.isSome_iff_exists.mp htask.suggestedNode
    rw [heq]
    exact initialized_addNewTask u htask.pod hnode

theorem initialized_foldl (pods : List BindingPodInfo) (u : BindingUnitInfo) :
    Initialized pods u (pods.foldl (initializePod env cache) u) := by
  induction pods generalizing u with
  | nil =>
    exact ⟨rfl, rfl, rfl, rfl, fun _ h => h, fun _ h => (by cases h), fun _ h => .inr h, id⟩
  | cons qpi pods ih =>
    have hone := initialized_initializePod env cache u qpi
    have hrest := ih (initializePod env cache u qpi)
    refine ⟨hrest.type.trans hone.type, hrest.minMember.trans hone.minMember,
      hrest.allMember.trans hone.allMember, hrest.everScheduled.trans hone.everScheduled,
      fun uid h => hrest.keeps uid (hone.keeps uid h), ?_, ?_,
      fun h => hrest.onNodes (hone.onNodes h)⟩
    · intro info hinfo
      rcases mem_cons.mp hinfo with rfl | hmem
      · exact hrest.keeps _ (hone.accounts info (mem_singleton_self _))
      · exact hrest.accounts info hmem
    · intro uid hheld
      rcases hrest.only uid hheld with hmem | h
      · exact .inl (mem_cons_of_mem _ hmem)
      · rcases hone.only uid h with hmem | h
        · exact .inl (mem_cons.mpr (.inl (mem_singleton.mp hmem)))
        · exact .inr h

theorem initialized_initializeUnit (unit : BindingUnit) :
    Initialized unit.pods.list (.new unit.unitKey.type unit.minMember unit.pods.len
      (decide (unit.unitKey ∈ cache.scheduledUnits))) (initializeUnit env cache unit) := by
  obtain ⟨htype, hmin, hall, hever, hkeeps, haccounts, honly, hnodes⟩ :=
    initialized_foldl env cache (env.podOrder.list unit.pods.list) (.new unit.unitKey.type
      unit.minMember unit.pods.len (decide (unit.unitKey ∈ cache.scheduledUnits)))
  refine ⟨htype, hmin, hall, hever, hkeeps, ?_, ?_, hnodes⟩
  · intro info hinfo
    exact haccounts info ((env.podOrder.mem_list).mpr hinfo)
  · intro uid hheld
    rcases honly uid hheld with hmem | h
    · exact .inl (((env.podOrder.perm _).map _).mem_iff.mp hmem)
    · exact .inr h

end

section

variable (env : Env) (cache : BinderCache) (unit : BindingUnit)

/-- The unit and the cache after the stages, if the unit fails in none of them. -/
def passStages : List (String × Stage) → BindingUnitInfo × BinderCache →
    Option (BindingUnitInfo × BinderCache)
  | [], s => some s
  | (_, stage) :: rest, s =>
    let s := stage s
    if s.1.isUnitFailed then none else passStages rest s

/-- The unit and the cache with which the victims of the unit are deleted. -/
def startsDeleting : Option (BindingUnitInfo × BinderCache) :=
  if unit.pods.len = 0 then none
  else if unitTimeout env cache unit then none
  else passStages (stages env unit)
    (.new unit.unitKey.type unit.minMember unit.pods.len false, cache)

/-- The unit with which the ready tasks are bound. -/
def startsBinding : Option BindingUnitInfo :=
  (startsDeleting env cache unit).bind fun s =>
    let u := failNodes s.1 (deleteVictimsOfNewTasks env s.1).2
    if !u.isUnitFailed && u.isAbleToBindReadyTasks && (lockUnit env u).isNone then some u else none

end

section MinMember

variable {env : Env} {cache : BinderCache} {unit : BindingUnit}

/-- The pods of the unit in the given lists. -/
def BindingUnit.podsIn (unit : BindingUnit) (ls : List TaskList) (u : BindingUnitInfo) :
    List BindingPodInfo :=
  unit.pods.list.filter fun info =>
    ls.any fun l => ((u.tasks l).getByKey info.pod.uid).isSome

/-- A unit whose victims are deleted has passed every stage. -/
structure Passed (env : Env) (cache : BinderCache) (unit : BindingUnit) (u : BindingUnitInfo) :
    Prop where
  keeps : KeepsTasks (initializeUnit env cache unit) u
  noAssumed : ∀ uid, ¬ u.tasks.Has .assumedTasks uid
  noNew : ∀ uid, ¬ u.tasks.Has .newTasks uid
  notFailed : u.isUnitFailed = false

theorem passed_of_startsDeleting {s : BindingUnitInfo × BinderCache}
    (hs : startsDeleting env cache unit = some s) : Passed env cache unit s.1 := by
  unfold startsDeleting stages at hs
  split_ifs at hs
  unfold passStages passStages passStages passStages passStages passStages at hs
  simp only at hs
  set u₀ := initializeUnit env cache unit
  have hpreemption := KeepsTasks.of_moves (moves_checkCrossNodePreemptionForUnit env u₀)
  set u₁ := checkCrossNodePreemptionForUnit env u₀
  have htopology := KeepsTasks.of_moves (moves_checkCrossNodeTopologyForUnit env u₁)
  set u₂ := checkCrossNodeTopologyForUnit env u₁
  have hconflicts := KeepsTasks.of_moves (moves_checkSameNodeConflictsForUnit env u₂)
  split_ifs at hs with h₀ h₁ h₂ h₃ h₄
  have hassume := KeepsTasks.of_moves (moves_markVictimsAndAssumeTasks env
    (checkSameNodeConflictsForUnit env u₂) cache)
  cases hs
  have hafter := htopology.trans (hconflicts.trans hassume)
  have hnodes : u₀.NewOnNodes :=
    (initialized_initializeUnit env cache unit).onNodes fun cr hcr => (by cases hcr)
  have hcleared := getTasks_new_checkSameNodeConflictsForUnit
    (htopology.onNodes (hpreemption.onNodes hnodes)) (Bool.eq_false_of_not_eq_true h₃)
  constructor
  · exact hpreemption.trans hafter
  · intro uid hhas
    exact not_has_assumed_checkCrossNodePreemptionForUnit (Bool.eq_false_of_not_eq_true h₁) uid
      (hafter.assumed uid hhas)
  · intro uid hhas
    obtain ⟨cr, hcr, -⟩ := mem_map.mp (has_iff_mem.mp hhas)
    have hmem := hassume.new cr hcr
    rw [hcleared] at hmem
    cases hmem
  · exact Bool.eq_false_of_not_eq_true h₄

namespace Passed

variable {u : BindingUnitInfo}

theorem held_pod (h : Passed env cache unit u) (hheld : u.tasks.Held uid) :
    uid ∈ unit.pods.list.map fun info => info.pod.uid := by
  rcases (initialized_initializeUnit env cache unit).only uid ((h.keeps.held uid).mp hheld) with
    hmem | ⟨l, hl⟩
  · exact hmem
  · cases hl

theorem failed_or_ignored (h : Passed env cache unit u) {info : BindingPodInfo}
    (hinfo : info ∈ unit.pods.list) (hready : ¬ u.tasks.Has .readyTasks info.pod.uid)
    (hwaiting : ¬ u.tasks.Has .waitingTasks info.pod.uid) :
    info.pod.uid ∈ (u.getTasks .failedTasks).map CheckResult.uid ++
      u.ignoredTasks.map fun info => info.pod.uid := by
  rw [mem_append]
  rcases (initialized_initializeUnit env cache unit).accounts info hinfo with hheld | hignored
  · obtain ⟨l, hl⟩ := (h.keeps.held _).mpr hheld
    cases l with
    | assumedTasks => exact absurd hl (h.noAssumed _)
    | newTasks => exact absurd hl (h.noNew _)
    | readyTasks => exact absurd hl hready
    | waitingTasks => exact absurd hl hwaiting
    | failedTasks => exact .inl (has_iff_mem.mp hl)
  · right
    rwa [h.keeps.ignored]

theorem length_pods_le (h : Passed env cache unit u) :
    unit.pods.len ≤ (unit.podsIn [.readyTasks, .waitingTasks] u).length +
      (u.tasks .failedTasks).len + u.ignoredTasks.length := by
  let p : BindingPodInfo → Bool := fun info =>
    [TaskList.readyTasks, .waitingTasks].any fun l =>
      ((u.tasks l).getByKey info.pod.uid).isSome
  have hsub : (unit.pods.list.filter fun info => !p info).map (fun info => info.pod.uid) ⊆
      (u.getTasks .failedTasks).map CheckResult.uid ++
        u.ignoredTasks.map fun info => info.pod.uid := by
    intro uid huid
    obtain ⟨info, hinfo, rfl⟩ := mem_map.mp huid
    obtain ⟨hmem, hnot⟩ := mem_filter.mp hinfo
    simp only [p, any_cons, any_nil, Bool.or_false, Bool.not_eq_true',
      Bool.or_eq_false_iff] at hnot
    exact h.failed_or_ignored hmem (Bool.not_eq_true _ ▸ hnot.1) (Bool.not_eq_true _ ▸ hnot.2)
  have hnodup : ((unit.pods.list.filter fun info => !p info).map fun info => info.pod.uid).Nodup :=
    unit.pods.nodup_list_key.sublist (filter_sublist.map _)
  have hle := (subperm_of_subset hnodup hsub).length_le
  have hsplit := length_eq_length_filter_add (l := unit.pods.list) p
  rw [length_append, length_map, length_map, length_map] at hle
  have hfailed : (u.tasks .failedTasks).len = (u.getTasks .failedTasks).length :=
    len_eq_length_list _
  have hpods : (unit.podsIn [.readyTasks, .waitingTasks] u).length =
      (unit.pods.list.filter p).length := rfl
  rw [len_eq_length_list]
  omega

variable (htype : unit.unitKey.type = .podGroupUnitType)
  (hever : unit.unitKey ∉ cache.scheduledUnits)

include htype hever

theorem group_never_scheduled (h : Passed env cache unit u) :
    u.type = .podGroupUnitType ∧ u.everScheduled = false ∧ u.minMember = unit.minMember ∧
      u.allMember = unit.pods.len := by
  have hinit := initialized_initializeUnit env cache unit
  refine ⟨?_, ?_, h.keeps.minMember.trans hinit.minMember, h.keeps.allMember.trans hinit.allMember⟩
  · rw [h.keeps.type, hinit.type]
    exact htype
  · rw [h.keeps.everScheduled, hinit.everScheduled]
    exact decide_eq_false hever

theorem minMember_le_ready_or_waiting (h : Passed env cache unit u) :
    unit.minMember ≤ (unit.podsIn [.readyTasks, .waitingTasks] u).length := by
  obtain ⟨hutype, huever, humin, huall⟩ := h.group_never_scheduled htype hever
  have hle := h.length_pods_le
  have hnot := h.notFailed
  unfold isUnitFailed at hnot
  rw [hutype, huever, humin, huall] at hnot
  simp only [Bool.not_false, Bool.true_and, decide_eq_false_iff_not, not_lt] at hnot
  omega

end Passed

theorem length_ready_le {u : BindingUnitInfo}
    (hpods : ∀ uid, u.tasks.Held uid → uid ∈ unit.pods.list.map fun info => info.pod.uid) :
    (u.tasks .readyTasks).len ≤ (unit.podsIn [.readyTasks] u).length := by
  have hlen : ((unit.podsIn [.readyTasks] u).map fun info => info.pod.uid).length =
      (unit.podsIn [.readyTasks] u).length := length_map _
  rw [len_eq_length_list, ← length_map uid, ← hlen]
  apply (subperm_of_subset (u.tasks .readyTasks).nodup_list_key _).length_le
  intro uid huid
  have hhas := has_iff_mem.mpr huid
  obtain ⟨info, hinfo, heq⟩ := mem_map.mp (hpods _ ⟨_, hhas⟩)
  refine mem_map.mpr ⟨info, mem_filter.mpr ⟨hinfo, ?_⟩, heq⟩
  simp only [any_cons, any_nil, Bool.or_false]
  rw [heq]
  exact hhas

def memberOf (uid : String) : BindingPodInfo where
  pod :=
    { uid := uid
      ns := "default"
      name := uid
      podGroupName := some "group"
      assumedNode := some (nodeNamed "") }
  timestamp := 0
  initialAttemptTimestamp := 0
  reserved_uid := reserved_uid_none uid

def groupOfThree : BindingUnit where
  unitKey := .podGroupUnit "default" "group"
  minMember := 2
  pods := (((KeyedStore.empty _).add (memberOf "a")).add (memberOf "b")).add (memberOf "c")

/-- The third pod has a conflict on its node. -/
def conflictOfThird : Env :=
  { Env.passing (.ofPods []) fun _ _ => .notFound with
    checkConflictPhase := fun rui =>
      if rui.queuedPodInfo.pod.uid = "c" then some "conflict" else none }

def emptyBinderCache : BinderCache where
  podStates := ∅
  assumedPods := ∅
  marks := ∅
  scheduledUnits := ∅

end MinMember

end GodelScheduler.Binder
