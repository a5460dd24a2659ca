import GodelScheduler.Binder.Bind

/-!
# The pods deleted for a preemptor

The scheduler names each victim by namespace, name and UID. The binder looks a
victim up by namespace and name when it initializes the preemptor, carries the pod
it found through the stages, and deletes by namespace and name. No step compares
UIDs, so a pod created under the name of a victim is deleted in its place.
`evictsOnlyVictims_iff` says for which victims, lister, cache and API server every
deleted pod is one the scheduler chose, in whatever unit the preemptor is and
whatever the checks answer.
-/

namespace GodelScheduler.Binder

open Library BindingUnitInfo List

variable {victims : List Pod}

section

variable {env : Env} {cache : BinderCache}

def foundPod (podLister : PodLister) (victimPod : VictimPod) : Option Pod :=
  match podLister.get victimPod.ns victimPod.name with
  | .found pod => some pod
  | _ => none

/-- The lister answers, and a pod found is not marked by a preemptor. -/
def resolvable (podLister : PodLister) (cache : BinderCache) (victimPod : VictimPod) : Prop :=
  match podLister.get victimPod.ns victimPod.name with
  | .found pod => cache.isPodMarkedToDelete pod = .ok false
  | .notFound => True
  | .error _ => False

/-- The victims of a task are the pods found under the names in the list, in its order. -/
theorem getVictimsToPreempt_eq_ok_iff {victimPods : VictimPods} :
    getVictimsToPreempt env cache victimPods = .ok victims ↔
      (∀ victimPod ∈ victimPods, resolvable env.podLister cache victimPod) ∧
        victimPods.filterMap (foundPod env.podLister) = victims := by
  induction victimPods generalizing victims with
  | nil => simp [getVictimsToPreempt]
  | cons victimPod rest ih =>
    rw [forall_mem_cons]
    unfold getVictimsToPreempt
    cases hget : env.podLister.get victimPod.ns victimPod.name with
    | notFound =>
      have hnone : foundPod env.podLister victimPod = none := by simp [foundPod, hget]
      have hres : resolvable env.podLister cache victimPod := by simp [resolvable, hget]
      simp only [filterMap_cons_none hnone, ih, hres, true_and]
    | error err =>
      have hres : ¬ resolvable env.podLister cache victimPod := by simp [resolvable, hget]
      simp [hres]
    | found pod =>
      have hsome : foundPod env.podLister victimPod = some pod := by simp [foundPod, hget]
      have hres : resolvable env.podLister cache victimPod ↔
          cache.isPodMarkedToDelete pod = .ok false := by
        simp [resolvable, hget]
      rw [filterMap_cons_some hsome, hres]
      rcases hmark : cache.isPodMarkedToDelete pod with err | _ | _
      · simp [hmark]
      · simp only [hmark, true_and]
        cases hrest : getVictimsToPreempt env cache rest with
        | error err =>
          have hnot : ¬ ∀ v ∈ rest, resolvable env.podLister cache v := by
            intro hall
            have hok := ih.mpr ⟨hall, rfl⟩
            rw [hrest] at hok
            cases hok
          simp [Except.map, hnot]
        | ok found =>
          obtain ⟨hall, hfound⟩ := ih.mp hrest
          simp only [Except.map, Except.ok.injEq, hfound]
          exact ⟨fun h => ⟨hall, h⟩, fun h => h.2⟩
      · simp [hmark]

/-- The victims of a task are what its nominated node resolves to. -/
def Resolved (env : Env) (cache : BinderCache) (cr : CheckResult) : Prop :=
  cr.runningUnit.victims = [] ∨ ∃ victimPods, cr.info.nominatedNode = some victimPods ∧
    getVictimsToPreempt env cache victimPods = .ok cr.runningUnit.victims

theorem kept_resolved : Kept (Resolved env cache) where
  returning _ _ _ _ _ _ hvictims _ := .inl hvictims
  same cr cr' hsame h := by
    unfold Resolved at h ⊢
    rw [hsame.victims, hsame.nominatedNode]
    exact h

theorem resolved_initializeTask (u : BindingUnitInfo) (qpi : BindingPodInfo) :
    Resolved env cache
      { assumed := false, runningUnit := (initializeTask env cache u qpi).1 } :=
  (initializeTask_spec env cache u qpi).2.2

end

section

variable {env : Env}

/-- The API server refuses to delete the victim. -/
def deleteRefused (deletePod : String → String → DeleteAnswer) (victim : Pod) : Prop :=
  ∃ err, deletePod victim.ns victim.name = .error err

/-- A pod is deleted for a task if it has the name of a victim reached before any refusal. -/
theorem mem_deleteVictimsForTask_iff {preemptor : BindingPodInfo} {e : Eviction} :
    e ∈ (deleteVictimsForTask env preemptor victims).1 ↔
      e.preemptor = preemptor ∧ ∃ before victim after, victims = before ++ victim :: after ∧
        (∀ w ∈ before, ¬ deleteRefused env.deletePod w) ∧
          env.deletePod victim.ns victim.name = .deleted e.pod := by
  induction victims with
  | nil => simp [deleteVictimsForTask]
  | cons victim rest ih =>
    -- the victim itself comes first, or the split is one of the rest
    have hsplit : (∃ before v after, victim :: rest = before ++ v :: after ∧
        (∀ w ∈ before, ¬ deleteRefused env.deletePod w) ∧
          env.deletePod v.ns v.name = .deleted e.pod) ↔
        env.deletePod victim.ns victim.name = .deleted e.pod ∨
          (¬ deleteRefused env.deletePod victim ∧ ∃ before v after, rest = before ++ v :: after ∧
            (∀ w ∈ before, ¬ deleteRefused env.deletePod w) ∧
              env.deletePod v.ns v.name = .deleted e.pod) := by
      constructor
      · rintro ⟨before, v, after, heq, hbefore, hdel⟩
        cases before with
        | nil =>
          cases heq
          exact .inl hdel
        | cons w before =>
          cases heq
          rw [forall_mem_cons] at hbefore
          exact .inr ⟨hbefore.1, before, v, after, rfl, hbefore.2, hdel⟩
      · rintro (hdel | ⟨hnot, before, v, after, rfl, hbefore, hdel⟩)
        · exact ⟨[], victim, rest, rfl, forall_mem_nil _, hdel⟩
        · exact ⟨victim :: before, v, after, rfl, forall_mem_cons.mpr ⟨hnot, hbefore⟩, hdel⟩
    rw [hsplit]
    unfold deleteVictimsForTask
    cases hdel : env.deletePod victim.ns victim.name with
    | error err =>
      have hrefused : deleteRefused env.deletePod victim := ⟨err, hdel⟩
      simp [hrefused]
    | notFound =>
      have hnot : ¬ deleteRefused env.deletePod victim := by
        rintro ⟨err, herr⟩
        rw [hdel] at herr
        cases herr
      simp only [reduceCtorEq, false_or, hnot, not_false_eq_true, true_and]
      exact ih
    | deleted pod =>
      have hnot : ¬ deleteRefused env.deletePod victim := by
        rintro ⟨err, herr⟩
        rw [hdel] at herr
        cases herr
      simp only [mem_cons, ih, hnot, not_false_eq_true, true_and, DeleteAnswer.deleted.injEq]
      constructor
      · rintro (rfl | ⟨hpre, hrest⟩)
        · exact ⟨rfl, .inl rfl⟩
        · exact ⟨hpre, .inr hrest⟩
      · rintro ⟨rfl, rfl | hrest⟩
        · exact .inl rfl
        · exact .inr ⟨rfl, hrest⟩

theorem mem_foldl_evicted (l : List CheckResult)
    (s : List Eviction × GoMap (Option NodeName) String) (e : Eviction) :
    e ∈ (l.foldl (deleteVictimsStep env) s).1 ↔
      e ∈ s.1 ∨ ∃ cr ∈ l, e ∈ (deleteVictimsForTask env cr.info cr.runningUnit.victims).1 := by
  refine foldl_iff_or (Q := fun s => e ∈ s.1) (fun s cr => ?_) l s
  unfold deleteVictimsStep
  split
  next heq => rw [heq, mem_append]
  next heq => rw [heq, mem_append]

theorem mem_deleteVictimsOfNewTasks_fst {u : BindingUnitInfo} {e : Eviction} :
    e ∈ (deleteVictimsOfNewTasks env u).1 ↔
      ∃ cr ∈ u.getTasks .waitingTasks, isNewPreemptor cr = true ∧
        e ∈ (deleteVictimsForTask env cr.info cr.runningUnit.victims).1 := by
  unfold deleteVictimsOfNewTasks
  rw [mem_foldl_evicted]
  simp only [not_mem_nil, false_or, mem_filter, and_assoc]

/-- Whatever happens after the deletions, it deletes nothing. -/
theorem evicted_deleteVictimsAndBindTasks (unitKey : UnitKey) (u : BindingUnitInfo)
    (cache : BinderCache) :
    (deleteVictimsAndBindTasks env unitKey u cache).evicted =
      (deleteVictimsOfNewTasks env u).1 := by
  unfold deleteVictimsAndBindTasks
  simp only
  split_ifs
  · exact evicted_failAndRejectAllTasks _
  · split
    · exact evicted_failAndRejectAllTasks _
    · unfold bindReadyTasks
      simp only
      split_ifs
      · exact evicted_failAndRejectAllTasks _
      · exact evicted_finishUnit
  · exact evicted_finishUnit

end

section

/-- The binder knows the pod and did not assume it, so it can be marked. -/
def BinderCache.CanMark (c : BinderCache) (pod : Pod) : Prop :=
  pod.uid ≠ "" ∧ (c.podStates.lookup pod.uid).isSome ∧ pod.uid ∉ c.assumedPods

/-- The caches differ at most in the markers and in the status of the units. -/
def SamePods (c c' : BinderCache) : Prop :=
  c'.podStates = c.podStates ∧ c'.assumedPods = c.assumedPods

variable {c : BinderCache} {c' : BinderCache}

theorem SamePods.canMark_iff (h : SamePods c c') {pod : Pod} : c'.CanMark pod ↔ c.CanMark pod := by
  unfold BinderCache.CanMark
  rw [h.1, h.2]

theorem SamePods.trans {c'' : BinderCache} (h : SamePods c c') (h' : SamePods c' c'') :
    SamePods c c'' :=
  ⟨h'.1.trans h.1, h'.2.trans h.2⟩

theorem markPodToDelete_ok {pod preemptor : Pod}
    (h : c.markPodToDelete pod preemptor = .ok c') : c.CanMark pod ∧ SamePods c c' := by
  unfold BinderCache.markPodToDelete Pod.getPodKey at h
  by_cases hpod : pod.uid = ""
  · simp [hpod] at h
  by_cases hpre : preemptor.uid = ""
  · simp [hpod, hpre] at h
  simp only [hpod, hpre, if_false] at h
  split_ifs at h with hknown
  cases h
  exact ⟨⟨hpod, hknown⟩, rfl, rfl⟩

theorem exists_markPodToDelete {pod preemptor : Pod} (h : c.CanMark pod)
    (hpre : preemptor.uid ≠ "") : ∃ c', c.markPodToDelete pod preemptor = .ok c' := by
  unfold BinderCache.markPodToDelete Pod.getPodKey
  simp only [h.1, hpre, if_false]
  rw [if_pos h.2]
  exact ⟨_, rfl⟩

theorem samePods_markVictims (preemptor : Pod) (victims : List Pod) (c : BinderCache) :
    SamePods c (markVictims preemptor victims c).1 ∧
      ((markVictims preemptor victims c).2 = none → ∀ victim ∈ victims, c.CanMark victim) := by
  induction victims generalizing c with
  | nil => exact ⟨⟨rfl, rfl⟩, fun _ => forall_mem_nil _⟩
  | cons victim rest ih =>
    unfold markVictims
    cases hmark : c.markPodToDelete victim preemptor with
    | error err => exact ⟨⟨rfl, rfl⟩, fun h => by cases h⟩
    | ok c' =>
      obtain ⟨hcan, hsame⟩ := markPodToDelete_ok hmark
      obtain ⟨hsame', hall⟩ := ih c'
      refine ⟨hsame.trans hsame', ?_⟩
      intro hnone
      rw [forall_mem_cons]
      exact ⟨hcan, fun w hw => hsame.canMark_iff.mp (hall hnone w hw)⟩

theorem markVictims_eq_none {preemptor : Pod} (hpre : preemptor.uid ≠ "")
    (h : ∀ victim ∈ victims, c.CanMark victim) : (markVictims preemptor victims c).2 = none := by
  induction victims generalizing c with
  | nil => rfl
  | cons victim rest ih =>
    rw [forall_mem_cons] at h
    obtain ⟨c', hmark⟩ := exists_markPodToDelete h.1 hpre
    have hsame := (markPodToDelete_ok hmark).2
    unfold markVictims
    rw [hmark]
    exact ih fun w hw => hsame.canMark_iff.mpr (h.2 w hw)

/-- A task that is not new, or whose victims could all be marked. -/
def Marked (c : BinderCache) (cr : CheckResult) : Prop :=
  cr.assumed = true ∨ ∀ victim ∈ cr.runningUnit.victims, c.CanMark victim

theorem markVictimsOfTask_spec (s : BinderCache × GoMap (Option NodeName) String)
    (cr : CheckResult) :
    SamePods s.1 (markVictimsOfTask s cr).1 ∧ (∀ node ∈ s.2, node ∈ (markVictimsOfTask s cr).2) ∧
      (cr.runningUnit.suggestedNode ∈ (markVictimsOfTask s cr).2 ∨ Marked s.1 cr) := by
  unfold markVictimsOfTask
  simp only
  split_ifs with hcond
  · have hspec := samePods_markVictims cr.info.pod cr.runningUnit.victims s.1
    split
    next cache' heq =>
      rw [heq] at hspec
      exact ⟨hspec.1, fun _ h => h, .inr (.inr (hspec.2 rfl))⟩
    next cache' err heq =>
      rw [heq] at hspec
      exact ⟨hspec.1, fun _ h => (AList.mem_insert _).mpr (.inr h),
        .inl ((AList.mem_insert _).mpr (.inl rfl))⟩
  · refine ⟨⟨rfl, rfl⟩, fun _ h => h, ?_⟩
    -- the task is not new, has no victims, or its node has failed already
    by_cases hassumed : cr.assumed = true
    · exact .inr (.inl hassumed)
    by_cases hvictims : cr.runningUnit.victims = []
    · right
      right
      rw [hvictims]
      exact forall_mem_nil _
    left
    have hpos : 0 < cr.runningUnit.victims.length := length_pos_iff.mpr hvictims
    have hnone : ¬ (s.2.lookup cr.runningUnit.suggestedNode).isNone = true := by
      intro hnone
      exact hcond (by simp [hassumed, hpos, hnone])
    rw [← AList.lookup_isSome, Option.isSome_iff_ne_none]
    simpa using hnone

theorem foldl_markVictimsOfTask_spec (l : List CheckResult)
    (s : BinderCache × GoMap (Option NodeName) String) :
    SamePods s.1 (l.foldl markVictimsOfTask s).1 ∧
      (∀ node ∈ s.2, node ∈ (l.foldl markVictimsOfTask s).2) ∧
      ∀ cr ∈ l, cr.runningUnit.suggestedNode ∈ (l.foldl markVictimsOfTask s).2 ∨ Marked s.1 cr := by
  induction l generalizing s with
  | nil => exact ⟨⟨rfl, rfl⟩, fun _ h => h, fun _ h => by cases h⟩
  | cons cr l ih =>
    obtain ⟨hsame, hkeep, hcr⟩ := markVictimsOfTask_spec s cr
    obtain ⟨hsame', hkeep', hrest⟩ := ih (markVictimsOfTask s cr)
    refine ⟨hsame.trans hsame', fun node h => hkeep' node (hkeep node h), ?_⟩
    rw [forall_mem_cons]
    constructor
    · exact hcr.imp_left (hkeep' _)
    · intro cr' hcr'
      apply (hrest cr' hcr').imp_right
      rintro (hassumed | hall)
      · exact .inl hassumed
      · exact .inr fun victim hvictim => hsame.canMark_iff.mp (hall victim hvictim)

end

section

variable {env : Env} {cache : BinderCache} {u : BindingUnitInfo}

variable {cr : CheckResult}

theorem mem_waiting_failNodes {nodeToErr : GoMap (Option NodeName) String}
    (h : cr ∈ (failNodes u nodeToErr).getTasks .waitingTasks) :
    cr ∈ u.getTasks .waitingTasks ∧
      (cr.assumed = true ∨ cr.runningUnit.suggestedNode ∉ nodeToErr) := by
  have hkeys : cr.runningUnit.suggestedNode ∈ nodeToErr ↔
      cr.runningUnit.suggestedNode ∈ nodeToErr.entries.map Sigma.fst := Iff.rfl
  rw [hkeys]
  unfold failNodes at h
  generalize nodeToErr.entries = entries at h ⊢
  induction entries generalizing u with
  | nil => exact ⟨h, .inr (by simp)⟩
  | cons entry entries ih =>
    obtain ⟨hmem, hnode⟩ := ih h
    have hperm : ((u.moveAllNewTasksOnNodeFromWaitingToFailedList entry.1 entry.2).getTasks
        .waitingTasks).Perm ((u.getTasks .waitingTasks).filter fun cr =>
          !(!cr.assumed && decide (cr.runningUnit.suggestedNode = entry.1))) :=
      perm_getTasks_moveWhere_src (by decide)
    obtain ⟨hu, hnot⟩ := mem_filter.mp (hperm.mem_iff.mp hmem)
    refine ⟨hu, ?_⟩
    rcases hnode with hassumed | hnotin
    · exact .inl hassumed
    · cases hassumed : cr.assumed with
      | true => exact .inl rfl
      | false =>
        right
        simp only [hassumed, Bool.not_false, Bool.true_and, Bool.not_eq_true',
          decide_eq_false_iff_not] at hnot
        simp [hnot, hnotin]

theorem marked_markVictimsOfNewTasks
    (h : cr ∈ (markVictimsOfNewTasks env u cache).1.getTasks .waitingTasks) : Marked cache cr := by
  obtain ⟨hmem, hnode⟩ := mem_waiting_failNodes h
  have hspec := (foldl_markVictimsOfTask_spec (env.taskOrder.list (u.getTasks .waitingTasks))
    (cache, ∅)).2.2 cr ((env.taskOrder.mem_list).mpr hmem)
  rcases hnode with hassumed | hnotin
  · exact .inl hassumed
  · exact hspec.resolve_left hnotin

theorem Marked.of_sameTask {cr' : CheckResult} (hsame : SameTask cr cr') (h : Marked cache cr) :
    Marked cache cr' := by
  unfold Marked at h ⊢
  rw [hsame.assumed, hsame.victims]
  exact h

/-- What waits after the tasks have been assumed had all its victims marked. -/
theorem marked_markVictimsAndAssumeTasks
    (h : cr ∈ (markVictimsAndAssumeTasks env u cache).1.getTasks .waitingTasks) :
    Marked cache cr := by
  have hmarked : ∀ cr ∈ (markVictimsOfNewTasks env u cache).1.getTasks .waitingTasks,
      Marked cache cr := fun cr hcr => marked_markVictimsOfNewTasks hcr
  unfold markVictimsAndAssumeTasks at h
  generalize markVictimsOfNewTasks env u cache = marked at hmarked h
  obtain ⟨u', cache'⟩ := marked
  have hassumed : ∀ cr ∈ (assumeNewTasks env u' cache').1.1.getTasks .waitingTasks,
      Marked cache cr :=
    (updates_assumeNewTasks env u' cache').forall_mem (fun _ _ => Marked.of_sameTask) hmarked
  simp only at h
  split_ifs at h
  · exact hmarked cr h
  · split at h
    next s heq =>
      rw [heq] at hassumed
      exact hassumed cr h
    next u'' cache'' err heq =>
      rw [heq] at hassumed
      have hforgot : ∀ cr ∈ (forgetNewAssumedTasks u'' cache'').1.getTasks .waitingTasks,
          Marked cache cr :=
        (updates_forgetNewAssumedTasks u'' cache'').forall_mem (fun _ _ => Marked.of_sameTask)
          hassumed
      -- both moves only take tasks off the waiting list
      have hperm := (perm_getTasks_moveWhere_src
        (by decide : TaskList.waitingTasks ≠ TaskList.failedTasks)).mem_iff.mp h
      apply hforgot
      have hmem := (mem_filter.mp hperm).1
      unfold getTasks at hmem ⊢
      rwa [tasks_moveWhere_of_ne (by decide) (by decide)] at hmem

end

end GodelScheduler.Binder
