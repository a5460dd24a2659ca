import GodelScheduler.Binder.MinMember
import GodelScheduler.Binder.VictimGroups
import GodelScheduler.NodeResources.Fits

/-!
# Conflicts on a node

The conflict check with the resources of the nodes: the tasks of a node are
checked one after the other on a copy of its cached node, from which the victims
of all of them were removed at first and to which every task that passes is
added. A preemptor that fails takes the whole node with it, so the victims
removed are those of the tasks that stay.

`checkTasks_eq` says that on a node this is the check of the workflow for some
answers of the plugins, `tasks_no_overcommit` that the tasks accepted on a node
fit on it together.
-/

namespace GodelScheduler.Binder.Conflicts

open Library NodeResources NodeInfoImpl KeepsTasks List

/-- A node of the binder's cache, which is reached by adding and removing pods. -/
structure CachedNode extends NodeInfoImpl where
  placed : podInfoMaintainer.Placed

def initCycleState (pod : Pod) : Option String :=
  match pod.podResourceType, pod.podLauncher with
  | none, _ => some "pod resource type only allow [guaranteed best-effort]"
  | some _, none => some "pod launcher only allow [kubelet node-manager]"
  | some _, some _ => none

section

variable (gates : FeatureGates) (text : QuantityText) (o : ResourceOrders)

def checkConflicts (pod : Pod) (nodeInfo : NodeInfoImpl) : Option String :=
  (fitsRequest text o {} (computePodResourceRequest gates o pod) nodeInfo).map fun insufficient =>
    insufficient.reason

def runCheckConflictsPlugins (pod : Pod) (nodeInfo : NodeInfoImpl) : Option String :=
  (checkConflicts gates text o pod nodeInfo).map fun reason =>
    s!"failed to run \"NodeResourcesCheck\" check conflict plugin for pod \"{pod.name}\": {reason}"

/-- Every task that passes is added to the node for the checks after it. -/
def checkTasksOnNode (nodeName : NodeName) :
    List CheckResult → NodeInfoImpl → BindingUnitInfo → BindingUnitInfo
  | [], _, u =>
    if u.newTasksOnNodeNeedPreemption nodeName then u.moveAllNewTasksOnNodeToWaitingList nodeName
    else u.moveAllNewTasksOnNodeToReadyList nodeName
  | cr :: rest, clonedNodeInfo, u =>
    match runCheckConflictsPlugins gates text o cr.info.pod clonedNodeInfo with
    | none => checkTasksOnNode nodeName rest (clonedNodeInfo.addPod gates o cr.info.pod) u
    | some err =>
      let err := s!"fail to check conflict for pod: {cr.info.pod.ns}/{cr.info.pod.name}, " ++
        s!"error: {err}"
      if 0 < cr.runningUnit.victims.length then
        u.moveAllNewTasksOnNodeToFailedList nodeName err
      else
        let u := u.addFailedTask cr.runningUnit err false
        if u.isUnitFailed then u else checkTasksOnNode nodeName rest clonedNodeInfo u

def removalError (nodeName : NodeName) (victim : Pod) (err : String) : String :=
  s!"fail to remove pod: {victim.ns}/{victim.name} from node info ({nodeName.val}), " ++
    s!"error: {err}"

variable (getNodeInfo : NodeName → Option CachedNode) (env : Env) (u : BindingUnitInfo)

def checkTasks (nodeName : NodeName) : BindingUnitInfo :=
  match getNodeInfo nodeName with
  | none =>
    u.moveAllNewTasksOnNodeToFailedList nodeName
      s!"fail to get node info for node: {nodeName.val}"
  | some nodeInfo =>
    match NodeInfoImpl.removePods gates o (removalError nodeName)
        (u.getVictimsOfNewTasksOnNode nodeName) nodeInfo.toNodeInfoImpl with
    | .error err => u.moveAllNewTasksOnNodeToFailedList nodeName err
    | .ok clonedNodeInfo =>
      checkTasksOnNode gates text o nodeName
        (env.taskOrder.list (u.getNewTasksOnNode nodeName)) clonedNodeInfo u

/-- One node, unless the unit has failed and the node is not checked any more. -/
def checkNode (nodeName : NodeName) : BindingUnitInfo :=
  if u.isUnitFailed && !env.checksAfterCancel nodeName then u
  else checkTasks gates text o getNodeInfo env u nodeName

def checkSameNodeConflictsForUnit : BindingUnitInfo :=
  (env.nodeOrder.list u.getNodeListOfNewTasks).foldl (checkNode gates text o getNodeInfo env) u

end

variable {gates : FeatureGates} {text : QuantityText} {o : ResourceOrders}
  {getNodeInfo : NodeName → Option CachedNode} {env : Env} {u : BindingUnitInfo}
  {nodeName : NodeName} {l : List CheckResult} {P : CheckResult → Prop}

section

variable (gates text o getNodeInfo env nodeName)

/-- The answers of the checks on a node, by the UID of the task. -/
theorem checkTasksOnNode_eq (hnd : (l.map CheckResult.uid).Nodup) (n : NodeInfoImpl)
    (u : BindingUnitInfo) :
    ∃ answers : String → Option String, ∀ env : Env,
      (∀ cr ∈ l, env.checkConflictPhase cr.runningUnit = answers cr.uid) →
      checkTasksOnNode gates text o nodeName l n u = Binder.checkTasksOnNode env nodeName l u := by
  induction l generalizing n u with
  | nil => exact ⟨fun _ => none, fun _ _ => rfl⟩
  | cons cr l ih =>
    rw [nodup_map_cons] at hnd
    -- the answers for the rest do not depend on the first task
    have hrest : ∀ (a : Option String) (answers : String → Option String) (env : Env),
        (∀ cr' ∈ cr :: l, env.checkConflictPhase cr'.runningUnit =
          Function.update answers cr.uid a cr'.uid) →
        env.checkConflictPhase cr.runningUnit = a ∧
          ∀ cr' ∈ l, env.checkConflictPhase cr'.runningUnit = answers cr'.uid := by
      intro a answers env h
      constructor
      · rw [h cr mem_cons_self, Function.update_self]
      · intro cr' hcr'
        have hne : cr'.uid ≠ cr.uid := hnd.1 _ hcr'
        rw [h cr' (mem_cons_of_mem _ hcr'), Function.update_of_ne hne]
    cases hcheck : runCheckConflictsPlugins gates text o cr.info.pod n with
    | none =>
      obtain ⟨answers, hanswers⟩ := ih hnd.2 (n.addPod gates o cr.info.pod) u
      refine ⟨Function.update answers cr.uid none, fun env henv => ?_⟩
      obtain ⟨hhead, htail⟩ := hrest none answers env henv
      unfold checkTasksOnNode Binder.checkTasksOnNode
      rw [hcheck, hhead]
      exact hanswers env htail
    | some err =>
      obtain ⟨answers, hanswers⟩ := ih hnd.2 n (u.addFailedTask cr.runningUnit
        (s!"fail to check conflict for pod: {cr.info.pod.ns}/{cr.info.pod.name}, " ++
          s!"error: {err}") false)
      refine ⟨Function.update answers cr.uid (some err), fun env henv => ?_⟩
      obtain ⟨hhead, htail⟩ := hrest (some err) answers env henv
      unfold checkTasksOnNode Binder.checkTasksOnNode
      rw [hcheck, hhead]
      simp only
      rw [hanswers env htail]

/-- The answers to the removal of victims, by their UID. -/
theorem removePods_eq {victims : List Pod} (hnd : (victims.map Pod.uid).Nodup)
    (describe : Pod → String → String) (n : NodeInfoImpl) :
    ∃ answers : String → Option String, ∀ remove : Pod → Option String,
      (∀ victim ∈ victims, remove victim = answers victim.uid) →
      (victims.findSome? fun victim => (remove victim).map (describe victim)) =
        match NodeInfoImpl.removePods gates o describe victims n with
        | .error err => some err
        | .ok _ => none := by
  induction victims generalizing n with
  | nil => exact ⟨fun _ => none, fun _ _ => rfl⟩
  | cons victim victims ih =>
    rw [nodup_map_cons] at hnd
    cases hremove : n.removePod gates o victim with
    | error err =>
      refine ⟨fun _ => some err, fun remove hanswers => ?_⟩
      unfold removePods
      rw [hremove, List.findSome?_cons, hanswers victim mem_cons_self]
      rfl
    | ok n' =>
      obtain ⟨answers, hrest⟩ := ih hnd.2 n'
      refine ⟨Function.update answers victim.uid none, fun remove hanswers => ?_⟩
      unfold removePods
      rw [hremove, List.findSome?_cons, hanswers victim mem_cons_self,
        Function.update_self]
      apply hrest
      intro v hv
      have hne : v.uid ≠ victim.uid := hnd.1 _ hv
      rw [hanswers v (mem_cons_of_mem _ hv), Function.update_of_ne hne]

/-- The answers of the environment on the given nodes. -/
structure Answers (getNodeInfo : NodeName → Option CachedNode) (env : Env) (nodes : List NodeName)
    (removes conflicts : NodeName → String → Option String) (env' : Env) : Prop where
  taskOrder : env'.taskOrder = env.taskOrder
  checksAfterCancel : env'.checksAfterCancel = env.checksAfterCancel
  hasNodeInfo : ∀ node ∈ nodes, env'.hasNodeInfo node = (getNodeInfo node).isSome
  removePod : ∀ node ∈ nodes, ∀ victim, env'.removePod node victim = removes node victim.uid
  checkConflictPhase : ∀ node ∈ nodes, ∀ rui : RunningUnitInfo, rui.suggestedNode = some node →
    env'.checkConflictPhase rui = conflicts node rui.queuedPodInfo.pod.uid

theorem checkTasks_eq (h : VictimsGrouped u) :
    ∃ removes conflicts : String → Option String, ∀ env' : Env,
      Answers getNodeInfo env [nodeName] (fun _ => removes) (fun _ => conflicts) env' →
      checkTasks gates text o getNodeInfo env u nodeName = Binder.checkTasks env' u nodeName := by
  have hself : nodeName ∈ [nodeName] := mem_singleton_self _
  unfold checkTasks Binder.checkTasks
  cases hnode : getNodeInfo nodeName with
  | none =>
    refine ⟨fun _ => none, fun _ => none, fun env' henv => ?_⟩
    rw [henv.hasNodeInfo nodeName hself, hnode]
    rfl
  | some nodeInfo =>
    obtain ⟨removes, hremoves⟩ := removePods_eq gates o (h.nodup_victims nodeName)
      (removalError nodeName) nodeInfo.toNodeInfoImpl
    simp only
    cases hok : NodeInfoImpl.removePods gates o (removalError nodeName)
        (u.getVictimsOfNewTasksOnNode nodeName) nodeInfo.toNodeInfoImpl with
    | error err =>
      refine ⟨removes, fun _ => none, fun env' henv => ?_⟩
      have hfind := hremoves (env'.removePod nodeName) fun victim _ =>
        henv.removePod nodeName hself victim
      rw [hok] at hfind
      unfold removalError at hfind
      rw [henv.hasNodeInfo nodeName hself, hnode, hfind]
      rfl
    | ok clonedNodeInfo =>
      obtain ⟨conflicts, hconflicts⟩ := checkTasksOnNode_eq gates text o nodeName
        (nodup_getNewTasksOnNode env.taskOrder nodeName) clonedNodeInfo u
      refine ⟨removes, conflicts, fun env' henv => ?_⟩
      have hfind := hremoves (env'.removePod nodeName) fun victim _ =>
        henv.removePod nodeName hself victim
      rw [hok] at hfind
      unfold removalError at hfind
      have htasks := hconflicts env' fun cr hcr =>
        henv.checkConflictPhase nodeName hself cr.runningUnit
          (mem_getNewTasksOnNode.mp ((env.taskOrder.mem_list).mp hcr)).2
      rw [henv.hasNodeInfo nodeName hself, hnode, henv.taskOrder]
      simp only
      rw [htasks, hfind]
      rfl

theorem movesNew_checkTasks (h : VictimsGrouped u) :
    MovesNew (OnNode nodeName) u (checkTasks gates text o getNodeInfo env u nodeName) := by
  obtain ⟨removes, conflicts, heq⟩ := checkTasks_eq gates text o getNodeInfo env nodeName h
  rw [heq
    { env with
      hasNodeInfo := fun node => (getNodeInfo node).isSome
      removePod := fun _ victim => removes victim.uid
      checkConflictPhase := fun rui => conflicts rui.queuedPodInfo.pod.uid }
    ⟨rfl, rfl, fun _ _ => rfl, fun _ _ _ => rfl, fun _ _ _ _ => rfl⟩]
  exact Binder.movesNew_checkTasks _ u nodeName

theorem movesNew_checkNode (h : VictimsGrouped u) :
    MovesNew (OnNode nodeName) u (checkNode gates text o getNodeInfo env u nodeName) := by
  unfold checkNode
  split_ifs
  · exact .refl
  · exact movesNew_checkTasks gates text o getNodeInfo env nodeName h

theorem moves_foldl_checkNode (nodes : List NodeName) (h : VictimsGrouped u) :
    Moves u (nodes.foldl (checkNode gates text o getNodeInfo env) u) := by
  induction nodes generalizing u with
  | nil => exact .refl
  | cons node nodes ih =>
    have hstep := (movesNew_checkNode gates text o getNodeInfo env node h).moves
    exact hstep.trans (ih (h.of_moves hstep))

end

section

variable (gates text o)

/-- The tasks that pass when they are checked in turn. -/
def passing : List CheckResult → NodeInfoImpl → List CheckResult
  | [], _ => []
  | cr :: rest, n =>
    match runCheckConflictsPlugins gates text o cr.info.pod n with
    | none => cr :: passing rest (n.addPod gates o cr.info.pod)
    | some _ => passing rest n

/-- A pod with a non-zero request asks for a resource. -/
structure Asks (pod : Pod) (type : PodResourceType) (f : ResourceField) : Prop where
  type : pod.podResourceType = some type
  nonZero : NonZero (computePodResourceRequest gates o pod).toResource
  checks : Checks {} (computePodResourceRequest gates o pod).toResource f

variable {gates text o} {type : PodResourceType} {f : ResourceField}

theorem Asks.ne_allowedPodNumber {pod : Pod} (h : Asks gates o pod type f) :
    f ≠ .allowedPodNumber := by
  rintro rfl
  exact h.checks

variable (gates text o) in
theorem passing_sublist (l : List CheckResult) (n : NodeInfoImpl) :
    (passing gates text o l n).Sublist l := by
  induction l generalizing n with
  | nil => exact List.Sublist.refl _
  | cons cr l ih =>
    unfold passing
    split
    · exact (ih _).cons_cons cr
    · exact (ih _).cons cr

theorem request_eq_zero {pod : Pod} (htype : pod.podResourceType.isSome)
    (hf : f ≠ .allowedPodNumber) (h : ¬ Asks gates o pod type f) :
    (if NodeInfoImpl.columnOf pod = type then (totalRequest gates o pod).amount f else 0) = 0 := by
  split_ifs with hcolumn
  · by_contra hamount
    obtain ⟨type', htype'⟩ := Option.isSome_iff_exists.mp htype
    have hsame : type' = type := by
      rw [← hcolumn, NodeInfoImpl.columnOf, htype']
      rfl
    refine h ⟨htype'.trans (congrArg some hsame), ⟨f, hf, hamount⟩, ?_⟩
    cases f with
    | allowedPodNumber => exact hf rfl
    | milliCPU => trivial
    | memory => trivial
    | ephemeralStorage => trivial
    | scalar name =>
      refine ⟨?_, by simp [IgnoredResources.ignores]⟩
      by_contra hnot
      apply hamount
      have hlookup : (totalRequest gates o pod).scalarResources.lookup name = none :=
        AList.lookup_eq_none.mpr hnot
      simp [Resource.amount, Resource.view, hlookup]
  · rfl

/-- Tasks that pass in turn leave every resource one of them asks for within what is allocatable,
and so they leave every resource that was. -/
theorem amount_passing_le (hf : f ≠ .allowedPodNumber)
    (htype : ∀ cr ∈ l, cr.info.pod.podResourceType.isSome) {n : NodeInfoImpl}
    (h : (∃ cr ∈ passing gates text o l n, Asks gates o cr.info.pod type f) ∨
      (n.requested type).amount f ≤ (n.allocatable type).amount f) :
    ((n.addPods gates o ((passing gates text o l n).map fun cr => cr.info.pod)).requested
      type).amount f ≤ (n.allocatable type).amount f := by
  induction l generalizing n with
  | nil =>
    rcases h with ⟨cr, hcr, -⟩ | h
    · cases hcr
    · exact h
  | cons cr l ih =>
    obtain ⟨hcr, hrest⟩ := forall_mem_cons.mp htype
    unfold passing at h ⊢
    cases hcheck : runCheckConflictsPlugins gates text o cr.info.pod n with
    | some err =>
      rw [hcheck] at h
      exact ih hrest h
    | none =>
      rw [hcheck] at h
      have halloc : (n.addPod gates o cr.info.pod).allocatable type = n.allocatable type := by
        rw [NodeInfoImpl.addPod, allocatable_update]
        cases type <;> rfl
      have hfits : fitsRequest text o {} (computePodResourceRequest gates o cr.info.pod) n =
          none := by
        simpa [runCheckConflictsPlugins, checkConflicts] using hcheck
      rw [← halloc]
      apply ih hrest
      rw [halloc]
      by_cases hask : Asks gates o cr.info.pod type f
      · exact .inr (amount_addPod_le hask.type hask.nonZero hfits hask.checks o)
      · rcases h with ⟨cr', hcr', hask'⟩ | h
        · rcases mem_cons.mp hcr' with rfl | hmem
          · exact absurd hask' hask
          · exact .inl ⟨cr', hmem, hask'⟩
        · right
          rw [amount_addPod n _ type hf, request_eq_zero hcr hf hask, add_zero]
          exact h

end

section

def accepts (u : BindingUnitInfo) (uid : String) : Bool :=
  ((u.tasks .readyTasks).getByKey uid).isSome || ((u.tasks .waitingTasks).getByKey uid).isSome

theorem accepts_iff {uid : String} :
    accepts u uid = true ↔ u.tasks.Has .readyTasks uid ∨ u.tasks.Has .waitingTasks uid := by
  unfold accepts Shelves.Has
  rw [Bool.or_eq_true]

theorem not_accepts_of_failed (h : Sorted P u) {uid : String}
    (hfailed : u.tasks.Has .failedTasks uid) : ¬ accepts u uid = true := by
  rw [accepts_iff]
  rintro (hhas | hhas)
  · cases h.apart _ _ _ hhas hfailed
  · cases h.apart _ _ _ hhas hfailed

theorem not_accepts_moveAllNewTasksOnNodeToFailedList (hP : Kept P) (h : Sorted P u)
    (err : String) {cr : CheckResult} (hcr : cr ∈ u.getNewTasksOnNode nodeName) :
    ¬ accepts (u.moveAllNewTasksOnNodeToFailedList nodeName err) cr.uid = true :=
  not_accepts_of_failed
    (h.of_moves hP (movesNew_moveAllNewTasksOnNode (by trivial) _ _ _).moves)
    (has_moveAllNewTasksOnNode (by trivial) _ hcr)

variable (gates text o) in
theorem movesNew_checkTasksOnNode (hnd : (l.map CheckResult.uid).Nodup)
    (hl : ∀ cr ∈ l, cr ∈ u.getNewTasksOnNode nodeName) (n : NodeInfoImpl) :
    MovesNew (OnNode nodeName) u (checkTasksOnNode gates text o nodeName l n u) := by
  obtain ⟨answers, heq⟩ := checkTasksOnNode_eq gates text o nodeName hnd n u
  rw [heq
    { Env.passing (.ofPods []) fun _ _ => .notFound with
      checkConflictPhase := fun rui => answers rui.queuedPodInfo.pod.uid }
    fun _ _ => rfl]
  exact Binder.movesNew_checkTasksOnNode nodeName hnd hl

/-- Either no task of the node is accepted, or exactly those not to be checked any more and those
that pass in turn are, and the others have no victims. -/
theorem accepts_checkTasksOnNode (hP : Kept P) (h : Sorted P u)
    (hnd : (l.map CheckResult.uid).Nodup) (hl : ∀ cr ∈ l, cr ∈ u.getNewTasksOnNode nodeName)
    (n : NodeInfoImpl) (hu' : (checkTasksOnNode gates text o nodeName l n u).isUnitFailed = false) :
    (∀ cr ∈ u.getNewTasksOnNode nodeName,
      ¬ accepts (checkTasksOnNode gates text o nodeName l n u) cr.uid = true) ∨
    ((∀ cr ∈ l, cr ∉ passing gates text o l n → cr.runningUnit.victims = []) ∧
      ∀ cr ∈ u.getNewTasksOnNode nodeName,
        accepts (checkTasksOnNode gates text o nodeName l n u) cr.uid = true ↔
          cr ∉ l ∨ cr ∈ passing gates text o l n) := by
  induction l generalizing n u with
  | nil =>
    refine .inr ⟨fun cr hcr => (by cases hcr), fun cr hcr => ?_⟩
    refine iff_of_true ?_ (.inl (by simp))
    rw [accepts_iff]
    unfold checkTasksOnNode
    split_ifs
    · exact .inr (has_moveAllNewTasksOnNode (by trivial) _ hcr)
    · exact .inl (has_moveAllNewTasksOnNode (by trivial) _ hcr)
  | cons cr l ih =>
    have hall := movesNew_checkTasksOnNode gates text o hnd hl n
    rw [nodup_map_cons] at hnd
    have hnotin : cr ∉ l := fun hmem => hnd.1 cr hmem rfl
    obtain ⟨hcr, hrest⟩ := forall_mem_cons.mp hl
    unfold checkTasksOnNode at hu' hall ⊢
    unfold passing
    cases hcheck : runCheckConflictsPlugins gates text o cr.info.pod n with
    | none =>
      simp only [hcheck] at hu' ⊢
      refine (ih h hnd.2 hrest (n.addPod gates o cr.info.pod) hu').imp_right ?_
      rintro ⟨hvictims, haccepts⟩
      refine ⟨fun cr' hcr' hnot => ?_, fun cr' hcr' => ?_⟩
      · rw [mem_cons, not_or] at hnot
        exact hvictims cr' ((mem_cons.mp hcr').resolve_left hnot.1) hnot.2
      · rw [haccepts cr' hcr', mem_cons, mem_cons]
        by_cases heq : cr' = cr
        · subst heq
          exact iff_of_true (.inl hnotin) (.inr (.inl rfl))
        · simp only [heq, false_or]
    | some err =>
      simp only [hcheck] at hu' hall ⊢
      split_ifs at hu' hall ⊢ with hvictims hfailed
      · exact .inl fun cr' hcr' => not_accepts_moveAllNewTasksOnNodeToFailedList hP h _ hcr'
      · rw [hfailed] at hu'
        cases hu'
      · obtain ⟨hin, hon⟩ := mem_getNewTasksOnNode.mp hcr
        set u₁ := u.addFailedTask cr.runningUnit
          (s!"fail to check conflict for pod: {cr.info.pod.ns}/{cr.info.pod.name}, " ++
            s!"error: {err}") false
        have hkeep : ∀ cr' ∈ u.getNewTasksOnNode nodeName, cr'.uid ≠ cr.uid →
            cr' ∈ u₁.getNewTasksOnNode nodeName := by
          intro cr' hcr' hne
          obtain ⟨hin', hon'⟩ := mem_getNewTasksOnNode.mp hcr'
          exact mem_getNewTasksOnNode.mpr ⟨mem_getTasks_settle_of_ne hne hin', hon'⟩
        have hmoves : MovesNew (OnNode nodeName) u u₁ := movesNew_addFailedTask hin hon _
        have hrest₁ : ∀ cr' ∈ l, cr' ∈ u₁.getNewTasksOnNode nodeName := fun cr' hcr' =>
          hkeep cr' (hrest cr' hcr') (hnd.1 cr' hcr')
        -- the failed task stays failed, and is in no other list
        have hfailed₁ : ¬accepts (checkTasksOnNode gates text o nodeName l n u₁) cr.uid = true := by
          apply not_accepts_of_failed (h.of_moves hP hall.moves)
          apply (of_moves (movesNew_checkTasksOnNode gates text o hnd.2 hrest₁ n).moves).failed
          exact has_settle_self (by trivial) u _
        have hunique : ∀ cr' ∈ u.getNewTasksOnNode nodeName, cr'.uid = cr.uid → cr' = cr :=
          fun cr' hcr' heq => inj_on_of_nodup_map (u.tasks .newTasks).nodup_list_key
            (mem_getNewTasksOnNode.mp hcr').1 hin heq
        have hsub := (passing_sublist gates text o l n).subset
        rcases ih (h.of_moves hP hmoves.moves) hnd.2 hrest₁ n hu' with hnone | ⟨hno, haccepts⟩
        · left
          intro cr' hcr'
          by_cases heq : cr'.uid = cr.uid
          · rw [heq]
            exact hfailed₁
          · exact hnone cr' (hkeep cr' hcr' heq)
        · refine .inr ⟨fun cr' hcr' hnot => ?_, fun cr' hcr' => ?_⟩
          · rcases mem_cons.mp hcr' with rfl | hmem
            · exact eq_nil_of_length_eq_zero (Nat.eq_zero_of_not_pos hvictims)
            · exact hno cr' hmem hnot
          · by_cases heq : cr'.uid = cr.uid
            · obtain rfl := hunique cr' hcr' heq
              refine iff_of_false hfailed₁ ?_
              rintro (hnot | hmem)
              · exact hnot mem_cons_self
              · exact hnotin (hsub hmem)
            · rw [haccepts cr' (hkeep cr' hcr' heq), mem_cons]
              have hne : cr' ≠ cr := fun hc => heq (congrArg CheckResult.uid hc)
              simp only [hne, false_or]

end

section

/-- The new tasks of a node that are accepted in the end. -/
def acceptedOn (u u' : BindingUnitInfo) (nodeName : NodeName) : List CheckResult :=
  (u.getNewTasksOnNode nodeName).filter fun cr => accepts u' cr.uid

variable (gates o) in
/-- The victims of the tasks can be removed from the node, and the tasks then added without
requesting more than is allocatable of anything one of them asks for. -/
def FitTogether (n : NodeInfoImpl) (crs : List CheckResult) : Prop :=
  ∀ victims : List Pod, (victims.map Pod.uid).Nodup →
    (∀ uid, uid ∈ victims.map Pod.uid ↔ ∃ cr ∈ crs, uid ∈ cr.victimUids) →
    ∃ n', NodeInfoImpl.removePods gates o (fun _ err => err) victims n = .ok n' ∧
      ∀ type f, (∃ cr ∈ crs, Asks gates o cr.info.pod type f) →
        ((n'.addPods gates o (crs.map fun cr => cr.info.pod)).requested type).amount f ≤
          (n.allocatable type).amount f

theorem mem_acceptedOn {u u' : BindingUnitInfo} {cr : CheckResult} :
    cr ∈ acceptedOn u u' nodeName ↔ cr ∈ u.getNewTasksOnNode nodeName ∧ accepts u' cr.uid = true :=
  mem_filter

theorem nodup_acceptedOn (u u' : BindingUnitInfo) (nodeName : NodeName) :
    (acceptedOn u u' nodeName).Nodup :=
  ((u.tasks .newTasks).nodup_list.filter _).filter _

theorem FitTogether.of_perm {n : NodeInfoImpl} {crs crs' : List CheckResult}
    (h : FitTogether gates o n crs) (hperm : crs.Perm crs') : FitTogether gates o n crs' := by
  intro victims hnd hvictims
  obtain ⟨n', hremove, hle⟩ := h victims hnd fun uid => by
    rw [hvictims uid]
    simp only [hperm.mem_iff]
  refine ⟨n', hremove, fun type f hask => ?_⟩
  obtain ⟨cr, hcr, hasks⟩ := hask
  have hf := hasks.ne_allowedPodNumber
  rw [amount_addPods _ _ _ hf, sumRequests_perm (hperm.symm.map _), ← amount_addPods _ _ _ hf]
  exact hle type f ⟨cr, hperm.mem_iff.mpr hcr, hasks⟩

/-- The victims may be removed in any order, and by any pods with their UIDs. -/
theorem fitTogether_of_removed {n n₁ : NodeInfoImpl} (hplaced : n.podInfoMaintainer.Placed)
    {describe : Pod → String → String} {removed : List Pod} {crs : List CheckResult}
    (hnd : (removed.map Pod.uid).Nodup)
    (hn₁ : NodeInfoImpl.removePods gates o describe removed n = .ok n₁)
    (hremoved : ∀ uid, uid ∈ removed.map Pod.uid ↔ ∃ cr ∈ crs, uid ∈ cr.victimUids)
    (hle : ∀ type f, f ≠ .allowedPodNumber → (∃ cr ∈ crs, Asks gates o cr.info.pod type f) →
      ((n₁.addPods gates o (crs.map fun cr => cr.info.pod)).requested type).amount f ≤
        (n₁.allocatable type).amount f) : FitTogether gates o n crs := by
  intro victims hnd' hvictims
  have hremoves₁ := removes_removePods hplaced hnd hn₁
  have hperm : (victims.map Pod.uid).Perm (removed.map Pod.uid) :=
    (perm_ext_iff_of_nodup hnd' hnd).mpr fun uid => (hvictims uid).trans (hremoved uid).symm
  obtain ⟨n', hn'⟩ := exists_removePods gates o (fun _ err => err) hplaced hnd'
    fun uid huid => hremoves₁.present uid (hperm.mem_iff.mp huid)
  have hremoves := removes_removePods hplaced hnd' hn'
  refine ⟨n', hn', fun type f hask => ?_⟩
  obtain ⟨cr, hcr, hasks⟩ := hask
  have hf := hasks.ne_allowedPodNumber
  have hsame : (n'.requested type).amount f = (n₁.requested type).amount f := by
    rw [hremoves.amount type f hf, hremoves₁.amount type f hf, (hperm.map _).sum_eq]
  have hle₁ := hle type f hf ⟨cr, hcr, hasks⟩
  rw [amount_addPods _ _ _ hf, hremoves₁.allocatable] at hle₁
  rw [amount_addPods _ _ _ hf, hsame]
  exact hle₁

theorem fitTogether_checkTasks (hP : Kept P) (h : Sorted P u) (hgrouped : VictimsGrouped u)
    (htype : ∀ cr ∈ u.getTasks .newTasks, cr.info.pod.podResourceType.isSome)
    (hu' : (checkTasks gates text o getNodeInfo env u nodeName).isUnitFailed = false)
    (hne : acceptedOn u (checkTasks gates text o getNodeInfo env u nodeName) nodeName ≠ []) :
    ∃ n, getNodeInfo nodeName = some n ∧ FitTogether gates o n.toNodeInfoImpl
      (acceptedOn u (checkTasks gates text o getNodeInfo env u nodeName) nodeName) := by
  obtain ⟨cr₀, hcr₀⟩ := exists_mem_of_ne_nil _ hne
  obtain ⟨hin₀, haccepts₀⟩ := mem_acceptedOn.mp hcr₀
  unfold checkTasks at hu' haccepts₀ ⊢
  cases hnode : getNodeInfo nodeName with
  | none =>
    simp only [hnode] at haccepts₀
    exact absurd haccepts₀ (not_accepts_moveAllNewTasksOnNodeToFailedList hP h _ hin₀)
  | some n =>
    simp only [hnode] at hu' haccepts₀ ⊢
    refine ⟨n, rfl, ?_⟩
    cases hremove : NodeInfoImpl.removePods gates o (removalError nodeName)
        (u.getVictimsOfNewTasksOnNode nodeName) n.toNodeInfoImpl with
    | error err =>
      simp only [hremove] at haccepts₀
      exact absurd haccepts₀ (not_accepts_moveAllNewTasksOnNodeToFailedList hP h _ hin₀)
    | ok n₁ =>
      simp only [hremove] at hu' haccepts₀ ⊢
      set l := env.taskOrder.list (u.getNewTasksOnNode nodeName)
      have hmem : ∀ cr, cr ∈ l ↔ cr ∈ u.getNewTasksOnNode nodeName := fun cr =>
        env.taskOrder.mem_list
      have hnd : (l.map CheckResult.uid).Nodup := nodup_getNewTasksOnNode _ _
      rcases accepts_checkTasksOnNode hP h hnd (fun cr hcr => (hmem cr).mp hcr) n₁ hu' with
        hnone | ⟨hvictims, haccepts⟩
      · exact absurd haccepts₀ (hnone cr₀ hin₀)
      have hsub := (passing_sublist gates text o l n₁).subset
      have hiff : ∀ cr, cr ∈ acceptedOn u (checkTasksOnNode gates text o nodeName l n₁ u) nodeName ↔
          cr ∈ passing gates text o l n₁ := by
        intro cr
        rw [mem_acceptedOn]
        constructor
        · rintro ⟨hin, hacc⟩
          exact ((haccepts cr hin).mp hacc).resolve_left fun hnot => hnot ((hmem cr).mpr hin)
        · intro hpass
          have hin := (hmem cr).mp (hsub hpass)
          exact ⟨hin, (haccepts cr hin).mpr (.inr hpass)⟩
      have hperm : (passing gates text o l n₁).Perm
          (acceptedOn u (checkTasksOnNode gates text o nodeName l n₁ u) nodeName) := by
        rw [perm_ext_iff_of_nodup
          ((List.Nodup.of_map _ hnd).sublist (passing_sublist gates text o l n₁))
          (nodup_acceptedOn _ _ _)]
        exact fun cr => (hiff cr).symm
      refine FitTogether.of_perm ?_ hperm
      apply fitTogether_of_removed n.placed (hgrouped.nodup_victims nodeName) hremove
      · intro uid
        rw [hgrouped.map_uid_victims, AList.mem_keys.symm, hgrouped.grouped]
        constructor
        · rintro ⟨cr, hcr, hon, huid⟩
          have hl : cr ∈ l := (hmem cr).mpr (mem_getNewTasksOnNode.mpr ⟨hcr, hon⟩)
          refine ⟨cr, ?_, huid⟩
          -- a task that does not pass has no victims
          by_contra hnot
          rw [CheckResult.victimUids, hvictims cr hl hnot] at huid
          cases huid
        · rintro ⟨cr, hpass, huid⟩
          obtain ⟨hcr, hon⟩ := mem_getNewTasksOnNode.mp ((hmem cr).mp (hsub hpass))
          exact ⟨cr, hcr, hon, huid⟩
      · intro type f hf hask
        refine amount_passing_le hf (fun cr hcr => htype cr ?_) (.inl hask)
        exact (mem_getNewTasksOnNode.mp ((hmem cr).mp hcr)).1

end

section

variable (gates text o getNodeInfo env) in
theorem sameOn_foldl_checkNode (h : VictimsGrouped u) {nodes : List NodeName}
    (hnot : nodeName ∉ nodes) :
    SameOn nodeName u (nodes.foldl (checkNode gates text o getNodeInfo env) u) := by
  induction nodes generalizing u with
  | nil => exact SameOn.refl nodeName u
  | cons node nodes ih =>
    rw [mem_cons, not_or] at hnot
    have hstep := movesNew_checkNode gates text o getNodeInfo env node h
    exact (SameOn.of_movesNew (Ne.symm hnot.1) hstep).trans
      (ih (h.of_moves hstep.moves) hnot.2)

/-- What is accepted on a node is decided when the node is checked. -/
theorem perm_acceptedOn {u u₁ u₂ u' : BindingUnitInfo} (hbefore : SameOn nodeName u u₁)
    (hstep : Moves u₁ u₂) (hafter : SameOn nodeName u₂ u') :
    (acceptedOn u₁ u₂ nodeName).Perm (acceptedOn u u' nodeName) := by
  rw [perm_ext_iff_of_nodup (nodup_acceptedOn _ _ _) (nodup_acceptedOn _ _ _)]
  intro cr
  rw [mem_acceptedOn, mem_acceptedOn, mem_getNewTasksOnNode, mem_getNewTasksOnNode]
  have hnew : cr ∈ u₁.getTasks .newTasks ∧ OnNode nodeName cr ↔
      cr ∈ u.getTasks .newTasks ∧ OnNode nodeName cr :=
    ⟨fun h => ⟨hbefore.new cr h.1, h.2⟩, fun h => ⟨hbefore.onNode cr h.1 h.2, h.2⟩⟩
  rw [← hnew]
  refine and_congr_right fun ⟨hcr, hon⟩ => ?_
  have hsame := hafter.has cr.uid fun cr' hcr' heq => by
    rw [inj_on_of_nodup_map (u₁.tasks .newTasks).nodup_list_key
      ((of_moves hstep).new cr' hcr') hcr heq]
    exact hon
  rw [accepts_iff, accepts_iff, hsame, hsame]

theorem fitTogether_checkSameNodeConflictsForUnit (hP : Kept P) (h : Sorted P u)
    (hgrouped : VictimsGrouped u) (hnodes : u.NewOnNodes)
    (htype : ∀ cr ∈ u.getTasks .newTasks, cr.info.pod.podResourceType.isSome)
    (hu' : (checkSameNodeConflictsForUnit gates text o getNodeInfo env u).isUnitFailed = false)
    (hne : acceptedOn u (checkSameNodeConflictsForUnit gates text o getNodeInfo env u)
      nodeName ≠ []) :
    ∃ n, getNodeInfo nodeName = some n ∧ FitTogether gates o n.toNodeInfoImpl
      (acceptedOn u (checkSameNodeConflictsForUnit gates text o getNodeInfo env u) nodeName) := by
  obtain ⟨cr₀, hcr₀⟩ := exists_mem_of_ne_nil _ hne
  obtain ⟨hin₀, hon₀⟩ := mem_getNewTasksOnNode.mp (mem_acceptedOn.mp hcr₀).1
  obtain ⟨node, hnode, hon⟩ := hnodes cr₀ hin₀
  obtain rfl : node = nodeName := Option.some_inj.mp (hon.symm.trans hon₀)
  unfold checkSameNodeConflictsForUnit at hu' hne ⊢
  have hnd : (env.nodeOrder.list u.getNodeListOfNewTasks).Nodup :=
    env.nodeOrder.nodup_list u.nodes.keys_nodup
  have hmem : node ∈ env.nodeOrder.list u.getNodeListOfNewTasks := env.nodeOrder.mem_list.mpr hnode
  -- the nodes checked before this one, this one, and the nodes after it
  obtain ⟨before, after, hsplit⟩ := append_of_mem hmem
  rw [hsplit, foldl_append, foldl_cons] at hu' hne ⊢
  rw [hsplit, nodup_middle, nodup_cons, mem_append, not_or] at hnd
  obtain ⟨⟨hbefore, hafter⟩, -⟩ := hnd
  set u₁ := before.foldl (checkNode gates text o getNodeInfo env) u
  have hmoves₁ : Moves u u₁ := moves_foldl_checkNode gates text o getNodeInfo env before hgrouped
  have hgrouped₁ := hgrouped.of_moves hmoves₁
  have hstep := (movesNew_checkNode gates text o getNodeInfo env node hgrouped₁).moves
  have hmoves' := moves_foldl_checkNode gates text o getNodeInfo env after
    (hgrouped₁.of_moves hstep)
  have hu₂ := (of_moves hmoves').not_failed hu'
  have hu₁ := (of_moves hstep).not_failed hu₂
  have hperm := perm_acceptedOn
    (sameOn_foldl_checkNode gates text o getNodeInfo env hgrouped hbefore) hstep
    (sameOn_foldl_checkNode gates text o getNodeInfo env (hgrouped₁.of_moves hstep) hafter)
  have hcheck : checkNode gates text o getNodeInfo env u₁ node =
      checkTasks gates text o getNodeInfo env u₁ node := by
    unfold checkNode
    rw [hu₁, Bool.false_and, if_neg Bool.false_ne_true]
  have hne₁ : acceptedOn u₁ (checkNode gates text o getNodeInfo env u₁ node) node ≠ [] := by
    intro hnil
    rw [hnil] at hperm
    exact hne hperm.nil_eq.symm
  rw [hcheck] at hu₂ hne₁
  obtain ⟨n, hn, hfit⟩ := fitTogether_checkTasks hP (h.of_moves hP hmoves₁) hgrouped₁
    (fun cr hcr => htype cr ((of_moves hmoves₁).new cr hcr)) hu₂ hne₁
  rw [← hcheck] at hfit
  exact ⟨n, hn, hfit.of_perm hperm⟩

def beforeConflicts (env : Env) (cache : BinderCache) (unit : BindingUnit) : BindingUnitInfo :=
  let env := { env with initCycleState := initCycleState }
  checkCrossNodeTopologyForUnit env
    (checkCrossNodePreemptionForUnit env (initializeUnit env cache unit))

theorem moves_beforeConflicts (env : Env) (cache : BinderCache) (unit : BindingUnit) :
    Moves (initializeUnit { env with initCycleState := initCycleState } cache unit)
      (beforeConflicts env cache unit) :=
  (moves_checkCrossNodePreemptionForUnit _ _).trans (moves_checkCrossNodeTopologyForUnit _ _)

/-- Tasks accepted together do not overcommit their node. -/
theorem tasks_no_overcommit (gates : FeatureGates) (text : QuantityText) (o : ResourceOrders)
    (getNodeInfo : NodeName → Option CachedNode) (env : Env) (cache : BinderCache)
    (unit : BindingUnit) (u u' : BindingUnitInfo) (hu : u = beforeConflicts env cache unit)
    (hu' : u' = checkSameNodeConflictsForUnit gates text o getNodeInfo env u)
    (hnot : u'.isUnitFailed = false) (nodeName : NodeName) (hne : acceptedOn u u' nodeName ≠ []) :
    ∃ n, getNodeInfo nodeName = some n ∧
      FitTogether gates o n.toNodeInfoImpl (acceptedOn u u' nodeName) := by
  subst hu hu'
  have hmoves := moves_beforeConflicts env cache unit
  have hkeeps := of_moves hmoves
  have hnodes := (initialized_initializeUnit { env with initCycleState := initCycleState } cache
    unit).onNodes fun cr hcr => (by cases hcr)
  refine fitTogether_checkSameNodeConflictsForUnit kept_true ((Sorted.initializeUnit kept_true
    (fun _ _ => trivial) fun _ _ _ => trivial).of_moves kept_true hmoves)
    ((VictimsGrouped.initializeUnit _ cache unit).of_moves hmoves) (hkeeps.onNodes hnodes) ?_ hnot
    hne
  intro cr hcr
  have hinit : initCycleState cr.info.pod = none :=
    initCycleState_of_mem_new { env with initCycleState := initCycleState } cache _ _
      (fun cr hcr => (by cases hcr)) cr (hkeeps.new cr hcr)
  unfold initCycleState at hinit
  split at hinit
  · cases hinit
  · cases hinit
  next htype _ => rw [htype]; rfl

def deviceNodeName : NodeName := nodeNamed ""

def deviceTask (uid : String) (nominatedNode : Option VictimPods) : BindingPodInfo where
  pod :=
    { devicePod uid with
      podGroupName := some "group"
      assumedNode := some deviceNodeName }
  timestamp := 0
  initialAttemptTimestamp := 0
  nominatedNode := nominatedNode

def deviceUnit : BindingUnit where
  unitKey := .podGroupUnit "default" "group"
  minMember := 2
  pods := ((KeyedStore.empty _).add (deviceTask "a" none)).add
    (deviceTask "b" (some [⟨"default", "v", "v"⟩]))

def occupiedNode : CachedNode where
  toNodeInfoImpl := deviceNode.addPod allGates .forward (devicePod "v")
  placed := by
    rw [toNodeInfo_addPod]
    exact PodInfoMaintainer.placed_new.addPodInfo (devicePod "v")

theorem tasks_no_overcommit_device :
    ∃ n', NodeInfoImpl.removePods allGates .forward (fun _ err => err) [devicePod "v"]
      occupiedNode.toNodeInfoImpl = .ok n' ∧
      ((n'.addPods allGates .forward
        [(deviceTask "a" none).pod, (deviceTask "b" none).pod]).requested
          .guaranteed).amount (.scalar "example.com/device") ≤ 2 := by
  let env := Env.passing (.ofPods [devicePod "v"]) fun _ _ => .notFound
  obtain ⟨n, hn, hfit⟩ := tasks_no_overcommit allGates plainText .forward
    (fun _ => some occupiedNode) env emptyBinderCache deviceUnit _ _ rfl rfl (by decide)
    deviceNodeName (by decide)
  cases hn
  have haccepted : acceptedOn (beforeConflicts env emptyBinderCache deviceUnit)
      (checkSameNodeConflictsForUnit allGates plainText .forward (fun _ => some occupiedNode) env
        (beforeConflicts env emptyBinderCache deviceUnit)) deviceNodeName =
      [⟨false, ⟨some deviceNodeName, deviceTask "a" none, []⟩, none⟩,
        ⟨false, ⟨some deviceNodeName, { deviceTask "b" (some [⟨"default", "v", "v"⟩]) with
          initialPreemptAttemptTimestamp := some 0 }, [devicePod "v"]⟩, none⟩] := by decide
  rw [haccepted] at hfit
  obtain ⟨n', hn', hle⟩ := hfit [devicePod "v"] (by decide)
    (by simp [CheckResult.victimUids, eq_comm])
  exact ⟨n', hn', hle .guaranteed (.scalar "example.com/device")
    ⟨_, mem_cons_self .., rfl, ⟨.milliCPU, by decide, by decide⟩, by decide, by decide⟩⟩

end

end GodelScheduler.Binder.Conflicts
