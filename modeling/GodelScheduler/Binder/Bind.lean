import GodelScheduler.Binder.Sorted

/-!
# Binding the ready tasks

After the ready tasks have been bound, in parallel, the unit is judged again: the
tasks that could not be bound count as failed, and a group that was never
scheduled fails as soon as too few of its tasks are left. Then all tasks are
rejected, those included whose bind succeeded. `boundKept_iff` says exactly when
a bound task is left alone.
-/

namespace GodelScheduler.Binder

open Library BindingUnitInfo List

/-- A unit as the check stages leave it: no task is in two lists. -/
structure CheckedUnit extends BindingUnitInfo where
  apart : toBindingUnitInfo.Apart

def BindingUnitInfo.failsWith (u : BindingUnitInfo) (failed : ℕ) : Bool :=
  match u.type with
  | .podGroupUnitType =>
    !u.everScheduled &&
      decide ((u.allMember : ℤ) - failed - u.ignoredTasks.length < u.minMember)
  | .singlePodUnitType => decide (0 < failed)

theorem BindingUnitInfo.isUnitFailed_eq (u : BindingUnitInfo) :
    u.isUnitFailed = u.failsWith (u.tasks .failedTasks).len := rfl

section

variable (env : Env) (u : BindingUnitInfo)

/-- A preemptor one of whose victims the API server refuses to delete. -/
def deletionFails (cr : CheckResult) : Bool :=
  isNewPreemptor cr && cr.runningUnit.victims.any fun victim =>
    match env.deletePod victim.ns victim.name with
    | .error _ => true
    | _ => false

/-- A new task that waits on the node of such a preemptor. -/
def failedByDeletion (cr : CheckResult) : Bool :=
  !cr.assumed && (u.getTasks .waitingTasks).any fun cr' =>
    deletionFails env cr' && decide (cr'.runningUnit.suggestedNode = cr.runningUnit.suggestedNode)

def bindFails (cr : CheckResult) : Bool :=
  match bindTask env cr with
  | .failed _ => true
  | _ => false

def bindSucceeds (cr : CheckResult) : Bool := decide (bindTask env cr = .bound)

/-- The number of failed tasks once the victims have been deleted. -/
def failedAfterDeletion : ℕ :=
  (u.tasks .failedTasks).len + ((u.getTasks .waitingTasks).filter (failedByDeletion env u)).length

def failedAfterBind : ℕ :=
  failedAfterDeletion env u + ((u.getTasks .readyTasks).filter (bindFails env)).length

def ReachesBind : Prop :=
  ¬ u.failsWith (failedAfterDeletion env u) ∧ u.isAbleToBindReadyTasks ∧ lockUnit env u = none

end

section

variable {u : BindingUnitInfo}

def onNodes (nodes : List (Option NodeName)) (cr : CheckResult) : Bool :=
  !cr.assumed && decide (cr.runningUnit.suggestedNode ∈ nodes)

theorem onNodes_cons (node : Option NodeName) (nodes : List (Option NodeName)) :
    onNodes (node :: nodes) = fun cr =>
      (!cr.assumed && decide (cr.runningUnit.suggestedNode = node)) || onNodes nodes cr := by
  funext cr
  unfold onNodes
  cases cr.assumed <;> simp

/-- What the loop over the nodes with an error changes. -/
structure FailsNodes (nodes : List (Option NodeName)) (u u' : BindingUnitInfo) : Prop where
  frame : u' = { u with tasks := u'.tasks }
  ready : u'.tasks .readyTasks = u.tasks .readyTasks
  apart : u'.Apart
  failed : (u'.tasks .failedTasks).len =
    (u.tasks .failedTasks).len + ((u.getTasks .waitingTasks).filter (onNodes nodes)).length

theorem failsNodes_foldl (h : u.Apart) (entries : List (Sigma fun _ : Option NodeName => String)) :
    FailsNodes (entries.map Sigma.fst) u
      (entries.foldl
        (fun u entry => u.moveAllNewTasksOnNodeFromWaitingToFailedList entry.1 entry.2) u) := by
  induction entries generalizing u with
  | nil => exact ⟨rfl, rfl, h, by simp [onNodes]⟩
  | cons entry entries ih =>
    set u₁ := u.moveAllNewTasksOnNodeFromWaitingToFailedList entry.1 entry.2 with hu₁
    have hrest := ih (u := u₁) (BindingUnitInfo.Apart.moveWhere h)
    have hready : u₁.tasks .readyTasks = u.tasks .readyTasks :=
      tasks_moveWhere_of_ne (by decide) (by decide)
    have hlen : (u₁.tasks .failedTasks).len =
        (u.tasks .failedTasks).len + ((u.getTasks .waitingTasks).filter fun cr =>
          !cr.assumed && decide (cr.runningUnit.suggestedNode = entry.1)).length :=
      len_moveWhere_dst h (by decide)
    have hperm : (u₁.getTasks .waitingTasks).Perm ((u.getTasks .waitingTasks).filter fun cr =>
        !(!cr.assumed && decide (cr.runningUnit.suggestedNode = entry.1))) :=
      perm_getTasks_moveWhere_src (by decide)
    constructor
    · exact hrest.frame
    · exact hrest.ready.trans hready
    · exact hrest.apart
    · rw [foldl_cons, ← hu₁, hrest.failed, map_cons, onNodes_cons, length_filter_or,
        (hperm.filter _).length_eq, hlen, Nat.add_assoc]

end

section

variable {env : Env} {u : BindingUnitInfo}

theorem deleteVictimsForTask_fails_iff (preemptor : BindingPodInfo) (victims : List Pod) :
    (deleteVictimsForTask env preemptor victims).2.isSome = victims.any fun victim =>
      match env.deletePod victim.ns victim.name with
      | .error _ => true
      | _ => false := by
  induction victims with
  | nil => rfl
  | cons victim rest ih =>
    unfold deleteVictimsForTask
    cases hdel : env.deletePod victim.ns victim.name with
    | error err => simp [hdel]
    | notFound => simpa [hdel] using ih
    | deleted pod => simpa [hdel] using ih

theorem mem_foldl_deleteVictimsStep (l : List CheckResult)
    (s : List Eviction × GoMap (Option NodeName) String) (node : Option NodeName) :
    node ∈ (l.foldl (deleteVictimsStep env) s).2 ↔
      node ∈ s.2 ∨ ∃ cr ∈ l, cr.runningUnit.suggestedNode = node ∧
        (deleteVictimsForTask env cr.info cr.runningUnit.victims).2.isSome := by
  refine foldl_iff_or (Q := fun s => node ∈ s.2) (fun s cr => ?_) l s
  unfold deleteVictimsStep
  split
  next evicted hdel => simp [hdel]
  next evicted err hdel => simp [hdel, AList.mem_insert, or_comm, eq_comm]

theorem mem_deleteVictimsOfNewTasks {node : Option NodeName} :
    node ∈ (deleteVictimsOfNewTasks env u).2 ↔
      ∃ cr ∈ u.getTasks .waitingTasks, deletionFails env cr = true ∧
        cr.runningUnit.suggestedNode = node := by
  refine (mem_foldl_deleteVictimsStep _ _ _).trans ?_
  unfold deletionFails
  simp only [deleteVictimsForTask_fails_iff, mem_filter, Bool.and_eq_true, AList.notMem_empty,
    false_or]
  constructor
  · rintro ⟨cr, ⟨hcr, hnew⟩, hnode, hfail⟩
    exact ⟨cr, hcr, ⟨hnew, hfail⟩, hnode⟩
  · rintro ⟨cr, hcr, ⟨hnew, hfail⟩, hnode⟩
    exact ⟨cr, ⟨hcr, hnew⟩, hnode, hfail⟩

theorem onNodes_deleteVictimsOfNewTasks :
    onNodes ((deleteVictimsOfNewTasks env u).2.entries.map Sigma.fst) = failedByDeletion env u := by
  funext cr
  have hkeys : cr.runningUnit.suggestedNode ∈
      (deleteVictimsOfNewTasks env u).2.entries.map Sigma.fst ↔
        cr.runningUnit.suggestedNode ∈ (deleteVictimsOfNewTasks env u).2 := Iff.rfl
  unfold onNodes failedByDeletion
  congr 1
  rw [Bool.eq_iff_iff, decide_eq_true_iff, hkeys, mem_deleteVictimsOfNewTasks, any_eq_true]
  simp only [Bool.and_eq_true, decide_eq_true_iff]

theorem failsNodes_deletion (env : Env) (h : u.Apart) :
    FailsNodes ((deleteVictimsOfNewTasks env u).2.entries.map Sigma.fst) u
      (failNodes u (deleteVictimsOfNewTasks env u).2) :=
  failsNodes_foldl h _

theorem len_failed_afterDeletion (env : Env) (h : u.Apart) :
    ((failNodes u (deleteVictimsOfNewTasks env u).2).tasks .failedTasks).len =
      failedAfterDeletion env u := by
  rw [(failsNodes_deletion env h).failed, onNodes_deleteVictimsOfNewTasks]
  rfl

end

variable {cr : CheckResult}

section

variable {env : Env} {u : BindingUnitInfo}

theorem bound_foldl_bindStep (l : List CheckResult) (s : List String × GoMap String String) :
    (l.foldl (bindStep env) s).1 = s.1 ++ (l.filter (bindSucceeds env)).map CheckResult.uid := by
  induction l generalizing s with
  | nil => simp
  | cons cr l ih =>
    rw [foldl_cons, ih]
    unfold bindStep bindSucceeds
    cases hbind : bindTask env cr <;> simp [hbind]

theorem mem_foldl_bindStep (l : List CheckResult) (s : List String × GoMap String String)
    (uid : String) :
    uid ∈ (l.foldl (bindStep env) s).2 ↔
      uid ∈ s.2 ∨ ∃ cr ∈ l, cr.uid = uid ∧ bindFails env cr = true := by
  refine foldl_iff_or (Q := fun s => uid ∈ s.2) (fun s cr => ?_) l s
  unfold bindStep bindFails
  cases bindTask env cr <;> simp [AList.mem_insert, or_comm, eq_comm]

theorem bound_bindTasks :
    (bindTasks env u).1 =
      ((u.getTasks .readyTasks).filter (bindSucceeds env)).map CheckResult.uid :=
  (bound_foldl_bindStep _ _).trans (nil_append _)

theorem lookup_bindTasks_isSome (hcr : cr ∈ u.getTasks .readyTasks) :
    ((bindTasks env u).2.lookup cr.uid).isSome = bindFails env cr := by
  rw [Bool.eq_iff_iff, AList.lookup_isSome]
  refine (mem_foldl_bindStep _ _ _).trans ?_
  constructor
  · rintro (hnone | ⟨cr', hcr', huid, hfails⟩)
    · cases hnone
    · rwa [← inj_on_of_nodup_map (u.tasks .readyTasks).nodup_list_key hcr' hcr huid]
  · intro hfails
    exact .inr ⟨cr, hcr, rfl, hfails⟩

theorem filter_failed_bindTasks :
    ((u.getTasks .readyTasks).filter fun cr => ((bindTasks env u).2.lookup cr.uid).isSome) =
      (u.getTasks .readyTasks).filter (bindFails env) :=
  filter_congr fun _ hcr => lookup_bindTasks_isSome hcr

end

section

variable {o : Outcome}

theorem podToForget_uid {pod : Pod} (h : podToForget cr = some pod) : pod.uid = cr.uid := by
  unfold podToForget at h
  split_ifs at h
  exact cr.info.reserved_uid pod h

/-- Rejecting tasks names them and forgets pods of theirs, and changes only the cache besides. -/
structure Rejects (l : List CheckResult) (o o' : Outcome) : Prop where
  unitInfo : o'.unitInfo = o.unitInfo
  bound : o'.bound = o.bound
  evicted : o'.evicted = o.evicted
  rejected : o'.rejected = o.rejected ++ l.map fun cr => (cr.uid, cr.err)
  reEnqueued : o'.reEnqueued = o.reEnqueued
  forgotten : ∀ uid ∈ o'.forgotten, uid ∈ o.forgotten ∨ uid ∈ l.map CheckResult.uid

theorem rejects_foldl (l : List CheckResult) (o : Outcome) :
    Rejects l o (l.foldl rejectFailedTask o) := by
  induction l using List.reverseRecOn with
  | nil => exact ⟨rfl, rfl, rfl, by simp, rfl, fun uid h => .inl h⟩
  | append_singleton l cr ih =>
    have hrejected : (l.foldl rejectFailedTask o).rejected ++ [(cr.uid, cr.err)] =
        o.rejected ++ (l ++ [cr]).map fun cr => (cr.uid, cr.err) := by
      rw [ih.rejected, map_append, append_assoc]
      rfl
    rw [foldl_append, foldl_cons, foldl_nil, rejectFailedTask]
    cases hpod : podToForget cr with
    | none =>
      refine ⟨ih.unitInfo, ih.bound, ih.evicted, hrejected, ih.reEnqueued, fun uid huid => ?_⟩
      rw [map_append, mem_append]
      exact (ih.forgotten uid huid).imp_right .inl
    | some pod =>
      refine ⟨ih.unitInfo, ih.bound, ih.evicted, hrejected, ih.reEnqueued, fun uid huid => ?_⟩
      rw [map_append, mem_append, ← or_assoc]
      refine (mem_append.mp huid).imp (ih.forgotten uid) fun h => ?_
      rwa [podToForget_uid hpod] at h

theorem rejects_rejectFailedTasks (o : Outcome) :
    Rejects (o.unitInfo.getTasks .failedTasks) o (rejectFailedTasks o) :=
  rejects_foldl _ o

theorem evicted_failAndRejectAllTasks (err : String) :
    (failAndRejectAllTasks o err).evicted = o.evicted :=
  (rejects_rejectFailedTasks _).evicted

theorem evicted_finishUnit : (finishUnit o).evicted = o.evicted :=
  (rejects_rejectFailedTasks _).evicted

end

section

variable {env : Env} {cache : BinderCache} {unit : BindingUnit} {o : Outcome}

def checkedUnit (env : Env) (cache : BinderCache) (unit : BindingUnit) : CheckedUnit where
  toBindingUnitInfo := (afterStages env cache unit).1
  apart := (sorted_afterStages kept_true (fun _ _ => trivial) fun _ _ _ => trivial).apart

/-- Tasks are bound only by the last stage, which gets a checked unit. -/
theorem checkAndBindUnit_cases (ho : checkAndBindUnit env cache unit = some o) :
    (o.bound = [] ∧ o.evicted = []) ∨
      o = deleteVictimsAndBindTasks env unit.unitKey
        (checkedUnit env cache unit).toBindingUnitInfo (afterStages env cache unit).2 := by
  unfold checkAndBindUnit at ho
  split_ifs at ho
  · cases ho
    exact .inl ⟨rfl, rfl⟩
  · cases ho
    rcases runStages_cases (deleteVictimsAndBindTasks env unit.unitKey) (stages env unit) _ with
      ⟨u, cache', err, heq⟩ | heq
    · left
      rw [heq, failAndRejectAllTasks]
      exact ⟨(rejects_rejectFailedTasks _).bound, (rejects_rejectFailedTasks _).evicted⟩
    · exact .inr heq

end

section BoundKept

variable {env : Env} {unitKey : UnitKey} {cache : BinderCache}

/-- No bound task is failed, forgotten or rejected. -/
def BoundKept (o : Outcome) : Prop :=
  ∀ uid ∈ o.bound, ¬ o.unitInfo.tasks.Has .failedTasks uid ∧ uid ∉ o.forgotten ∧
    uid ∉ o.rejected.map Prod.fst

theorem boundKept_of_bound_eq_nil {o : Outcome} (h : o.bound = []) : BoundKept o := by
  intro uid huid
  rw [h] at huid
  cases huid

theorem has_of_mem_map_uid {u : BindingUnitInfo} {l : TaskList} {uid : String}
    (h : uid ∈ (u.getTasks l).map CheckResult.uid) : u.tasks.Has l uid := by
  obtain ⟨cr, hcr, rfl⟩ := mem_map.mp h
  exact Shelves.has_of_mem_list hcr

theorem boundKept_finishUnit {o : Outcome} (hforgotten : o.forgotten = [])
    (hrejected : o.rejected = [])
    (hbound : ∀ uid ∈ o.bound, ¬ o.unitInfo.tasks.Has .failedTasks uid) :
    BoundKept (finishUnit o) := by
  have hrejects := rejects_rejectFailedTasks (reEnqueueWaitingTasks o)
  intro uid huid
  have hnot : ¬ o.unitInfo.tasks.Has .failedTasks uid := by
    apply hbound
    rwa [finishUnit, hrejects.bound] at huid
  refine ⟨?_, ?_, ?_⟩
  · rw [finishUnit, hrejects.unitInfo]
    exact hnot
  · intro hmem
    rcases hrejects.forgotten uid hmem with h | h
    · rw [reEnqueueWaitingTasks, hforgotten] at h
      cases h
    · exact hnot (has_of_mem_map_uid h)
  · intro hmem
    have hrej : o.rejected ++ (o.unitInfo.getTasks .failedTasks).map (fun cr => (cr.uid, cr.err)) =
        (finishUnit o).rejected := hrejects.rejected.symm
    rw [← hrej, hrejected, nil_append, map_map] at hmem
    exact hnot (has_of_mem_map_uid hmem)

theorem not_boundKept_failAndRejectAllTasks {o : Outcome} {err : String}
    (hcr : cr ∈ o.unitInfo.getTasks .readyTasks) (hbound : cr.uid ∈ o.bound) :
    ¬ BoundKept (failAndRejectAllTasks o err) := by
  have hrejects := rejects_rejectFailedTasks
    { o with unitInfo := o.unitInfo.moveAllTasksToFailedList err }
  intro h
  have hmem : cr.uid ∈ (failAndRejectAllTasks o err).bound := by
    rw [failAndRejectAllTasks, hrejects.bound]
    exact hbound
  apply (h cr.uid hmem).1
  rw [failAndRejectAllTasks, hrejects.unitInfo]
  exact has_failed_moveAllTasksToFailedList hcr

theorem bindSucceeds_not_bindFails (h : bindSucceeds env cr = true) : bindFails env cr = false := by
  have hbound : bindTask env cr = .bound := by simpa [bindSucceeds] using h
  simp [bindFails, hbound]

namespace FailsNodes

variable {nodes : List (Option NodeName)} {u u' : BindingUnitInfo} (h : FailsNodes nodes u u')

include h

theorem failsWith_eq (n : ℕ) : u'.failsWith n = u.failsWith n := by
  rw [h.frame]
  rfl

theorem lockUnit_eq : lockUnit env u' = lockUnit env u := by
  rw [h.frame]
  rfl

theorem getTasks_ready : u'.getTasks .readyTasks = u.getTasks .readyTasks :=
  congrArg KeyedStore.list h.ready

theorem isAbleToBindReadyTasks_eq : u'.isAbleToBindReadyTasks = u.isAbleToBindReadyTasks := by
  rw [h.frame]
  unfold isAbleToBindReadyTasks
  rw [h.ready]

end FailsNodes

section

variable {u : BindingUnitInfo}

theorem len_failed_afterBind (h : u.Apart) :
    ((u.moveTasksFromReadyToFailedList (bindTasks env u).2).tasks .failedTasks).len =
      (u.tasks .failedTasks).len + ((u.getTasks .readyTasks).filter (bindFails env)).length := by
  rw [← filter_failed_bindTasks]
  exact len_moveWhere_dst h (by decide)

theorem mem_ready_of_bindSucceeds (hcr : cr ∈ u.getTasks .readyTasks)
    (hbound : bindSucceeds env cr = true) :
    cr ∈ (u.moveTasksFromReadyToFailedList (bindTasks env u).2).getTasks .readyTasks := by
  have hperm : ((u.moveTasksFromReadyToFailedList (bindTasks env u).2).getTasks .readyTasks).Perm
      ((u.getTasks .readyTasks).filter fun cr => !((bindTasks env u).2.lookup cr.uid).isSome) :=
    perm_getTasks_moveWhere_src (by decide)
  rw [hperm.mem_iff, mem_filter, lookup_bindTasks_isSome hcr,
    bindSucceeds_not_bindFails hbound]
  exact ⟨hcr, rfl⟩

/-- Bound tasks are kept unless the unit has failed after the bind and there is a bound task. -/
theorem boundKept_bindReadyTasks_iff (env : Env) (unitKey : UnitKey) (o : Outcome)
    (h : o.unitInfo.Apart) (hforgotten : o.forgotten = []) (hrejected : o.rejected = []) :
    BoundKept (bindReadyTasks env unitKey o) ↔
      ((∃ cr ∈ o.unitInfo.getTasks .readyTasks, bindSucceeds env cr = true) →
        ¬ o.unitInfo.failsWith ((o.unitInfo.tasks .failedTasks).len +
          ((o.unitInfo.getTasks .readyTasks).filter (bindFails env)).length)) := by
  unfold bindReadyTasks
  simp only
  set u₂ := o.unitInfo.moveTasksFromReadyToFailedList (bindTasks env o.unitInfo).2
  have hfails : u₂.isUnitFailed = o.unitInfo.failsWith ((o.unitInfo.tasks .failedTasks).len +
      ((o.unitInfo.getTasks .readyTasks).filter (bindFails env)).length) := by
    rw [← len_failed_afterBind h]
    rfl
  have hmem : ∀ uid, uid ∈ (bindTasks env o.unitInfo).1 ↔
      ∃ cr ∈ o.unitInfo.getTasks .readyTasks, bindSucceeds env cr = true ∧ cr.uid = uid := by
    intro uid
    rw [bound_bindTasks]
    simp only [mem_map, mem_filter, and_assoc]
  rw [← hfails]
  by_cases hfailed : u₂.isUnitFailed = true
  · rw [if_pos hfailed]
    constructor
    · rintro hkept ⟨cr, hcr, hbound⟩
      exact absurd hkept (not_boundKept_failAndRejectAllTasks
        (mem_ready_of_bindSucceeds hcr hbound) ((hmem cr.uid).mpr ⟨cr, hcr, hbound, rfl⟩))
    · intro hnone
      apply boundKept_of_bound_eq_nil
      rw [failAndRejectAllTasks, (rejects_rejectFailedTasks _).bound]
      apply eq_nil_iff_forall_not_mem.mpr
      intro uid huid
      obtain ⟨cr, hcr, hbound, -⟩ := (hmem uid).mp huid
      exact hnone ⟨cr, hcr, hbound⟩ hfailed
  · rw [if_neg hfailed]
    refine iff_of_true (boundKept_finishUnit hforgotten hrejected ?_) fun _ => hfailed
    -- a task that stays ready is in no other list
    intro uid huid hhas
    obtain ⟨cr, hcr, hbound, rfl⟩ := (hmem uid).mp huid
    have hapart : u₂.Apart := BindingUnitInfo.Apart.moveWhere h
    have hready := Shelves.has_of_mem_list (mem_ready_of_bindSucceeds hcr hbound)
    exact absurd (hapart _ _ _ hready hhas) (by decide)

end

/-- A bound task is kept in every outcome in which the unit does not get to bind its tasks, none
of them is bound, or too few fail to make the unit fail. -/
theorem boundKept_iff (env : Env) (unitKey : UnitKey) (u : CheckedUnit) (cache : BinderCache) :
    BoundKept (deleteVictimsAndBindTasks env unitKey u.toBindingUnitInfo cache) ↔
      (ReachesBind env u.toBindingUnitInfo →
        (∃ cr ∈ u.getTasks .readyTasks, bindSucceeds env cr = true) →
          ¬ u.failsWith (failedAfterBind env u.toBindingUnitInfo)) := by
  have hdel := failsNodes_deletion env u.apart
  have hlen := len_failed_afterDeletion env u.apart
  unfold deleteVictimsAndBindTasks ReachesBind
  simp only
  set u₁ := failNodes u.toBindingUnitInfo
    (deleteVictimsOfNewTasks env u.toBindingUnitInfo).2
  have hfails : u₁.isUnitFailed =
      u.failsWith (failedAfterDeletion env u.toBindingUnitInfo) := by
    rw [isUnitFailed_eq, hdel.failsWith_eq, hlen]
  rw [← hfails, ← hdel.isAbleToBindReadyTasks_eq, ← hdel.lockUnit_eq]
  have hnil : ∀ o : Outcome, o.bound = [] → ∀ err, BoundKept (failAndRejectAllTasks o err) := by
    intro o ho err
    apply boundKept_of_bound_eq_nil
    rw [failAndRejectAllTasks, (rejects_rejectFailedTasks _).bound]
    exact ho
  by_cases hfailed : u₁.isUnitFailed = true
  · rw [if_pos hfailed]
    exact iff_of_true (hnil _ rfl _) fun hreach => absurd hfailed hreach.1
  rw [if_neg hfailed]
  by_cases hable : u₁.isAbleToBindReadyTasks = true
  · rw [if_pos hable]
    cases lockUnit env u₁ with
    | some err => exact iff_of_true (hnil _ rfl _) fun hreach => by cases hreach.2.2
    | none =>
      have hbind := boundKept_bindReadyTasks_iff env unitKey
        { unitInfo := u₁
          cache := cache
          evicted := (deleteVictimsOfNewTasks env u.toBindingUnitInfo).1 } hdel.apart rfl rfl
      simp only [hdel.getTasks_ready, hdel.failsWith_eq, hlen] at hbind
      rw [hbind]
      exact ⟨fun h _ => h, fun h => h ⟨hfailed, hable, rfl⟩⟩
  · rw [if_neg hable]
    refine iff_of_true ?_ fun hreach => absurd hreach.2.1 hable
    apply boundKept_of_bound_eq_nil
    exact (rejects_rejectFailedTasks _).bound

section

/-- A task of a group on its node, assumed in the cache. -/
def assumedTask (uid : String) : CheckResult :=
  let pod : Pod := { uid := uid, ns := "default", name := uid, podGroupName := some "group" }
  { assumed := false
    runningUnit :=
      { suggestedNode := some (nodeNamed "")
        queuedPodInfo :=
          { pod := pod
            timestamp := 0
            initialAttemptTimestamp := 0
            reservedPod := some { pod with nodeName := some (nodeNamed "") }
            newlyAssumedButStillInHandling := true
            reserved_uid := by simp } } }

/-- A group of two that was never scheduled and needs both of its tasks; both are ready. -/
def readyPair : CheckedUnit where
  type := .podGroupUnitType
  minMember := 2
  allMember := 2
  everScheduled := false
  tasks := ((Shelves.empty _ _).put .readyTasks (assumedTask "a")).put .readyTasks (assumedTask "b")
  ignoredTasks := []
  nodes := ∅
  victimsGroupByNode := ∅
  allVictims := ∅
  apart := by
    apply Shelves.Apart.put
    · apply Shelves.Apart.put Shelves.apart_empty
      intro l
      cases l <;> decide
    · intro l
      cases l <;> decide

/-- The API server takes the binding of the first task and refuses that of the second. -/
def bindsFirst : Env :=
  { Env.passing (.ofPods []) fun _ _ => .notFound with
    bindPhase := fun pod => if pod.uid = "a" then .bound else .failed "conflict" }

def cacheWithPair : BinderCache where
  podStates := ((∅ : GoMap String Pod).insert "a" (assumedTask "a").info.pod).insert "b"
    (assumedTask "b").info.pod
  assumedPods := {"a", "b"}
  marks := ∅
  scheduledUnits := ∅

theorem bindTasks_rejects_bound_task :
    ¬ BoundKept (deleteVictimsAndBindTasks bindsFirst (.podGroupUnit "default" "group")
      readyPair.toBindingUnitInfo cacheWithPair) := by
  intro h
  exact (h "a" (by decide)).1 (by decide)

end

end BoundKept

end GodelScheduler.Binder
