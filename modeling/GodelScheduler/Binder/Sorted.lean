import GodelScheduler.Binder.Moves

/-!
# What every stage keeps

`Sorted P` says that no task is in two lists, that the assumed and the new tasks
are of their kind, and that `P` holds of every task. Every move keeps `Sorted P`
for a property `P` that no stage takes from a task (`Kept`), and so does every
stage.
-/

namespace GodelScheduler.Binder

open Library Shelves

/-- A property that a task goes on having, whatever the stages do with it. -/
structure Kept (P : CheckResult → Prop) : Prop where
  returning : ∀ cr cr' stamp, P cr → cr.assumed = true → cr'.assumed = true →
    cr'.runningUnit.victims = [] →
    cr'.info = { cr.info with initialPreemptAttemptTimestamp := stamp } → P cr'
  same : ∀ cr cr', SameTask cr cr' → P cr → P cr'

theorem kept_true : Kept fun _ => True := ⟨fun _ _ _ _ _ _ _ _ => trivial, fun _ _ _ _ => trivial⟩

structure Sorted (P : CheckResult → Prop) (u : BindingUnitInfo) : Prop where
  apart : u.Apart
  all : u.AllTasks P
  assumed : ∀ cr ∈ u.getTasks .assumedTasks, cr.assumed = true
  new : ∀ cr ∈ u.getTasks .newTasks, cr.assumed = false ∧ cr.runningUnit.suggestedNode.isSome

variable {qpi : BindingPodInfo}

section

variable {P : CheckResult → Prop} {u : BindingUnitInfo} {src dst : TaskList} {cr : CheckResult}

namespace Sorted

theorem new_empty (type : ScheduleUnitType) (minMember : ℤ) (allMember : ℕ)
    (everScheduled : Bool) : Sorted P (.new type minMember allMember everScheduled) :=
  ⟨apart_empty, forall_empty, fun _ h => (by cases h), fun _ h => (by cases h)⟩

variable (h : Sorted P u)
include h

/-- Settle a task that is in no list, or in the one it is settled from. -/
theorem settle (hdst : dst.checked) (hcr : P cr)
    (hin : ∀ l, u.tasks.Has l cr.uid → l = BindingUnitInfo.uncheckedList cr.assumed ∧
      (cr.assumed ∨ cr.runningUnit.suggestedNode.isSome)) : Sorted P (u.settle dst cr) := by
  constructor
  · unfold BindingUnitInfo.Apart
    rw [BindingUnitInfo.tasks_settle]
    split_ifs with hplaced
    · exact Shelves.Apart.move h.apart fun l hl => (hin l hl).1
    · exact Shelves.Apart.put h.apart fun l hl => absurd (hin l hl).2 hplaced
  · exact h.all.settle dst hcr
  · intro cr' hcr'
    exact h.assumed cr' (mem_getTasks_settle (hdst.ne_unchecked.1).symm hcr')
  · intro cr' hcr'
    exact h.new cr' (mem_getTasks_settle (hdst.ne_unchecked.2).symm hcr')

theorem settle_of_has (hdst : dst.checked) (hcr : P cr)
    (hplaced : cr.assumed ∨ cr.runningUnit.suggestedNode.isSome)
    (hin : u.tasks.Has (BindingUnitInfo.uncheckedList cr.assumed) cr.uid) :
    Sorted P (u.settle dst cr) :=
  h.settle hdst hcr fun l hl => ⟨h.apart _ l _ hl hin, hplaced⟩

theorem moveWhere (hsrc : src.checked) (hdst : dst.checked) (p : CheckResult → Bool)
    {err : CheckResult → Option String} (herr : ∀ cr, P cr → P { cr with err := err cr }) :
    Sorted P (u.moveWhere src dst p err) := by
  have hkeep : ∀ l, ¬ l.checked → (u.moveWhere src dst p err).getTasks l = u.getTasks l := by
    intro l hl
    have htasks : (u.moveWhere src dst p err).tasks l = u.tasks l :=
      BindingUnitInfo.tasks_moveWhere_of_ne (fun heq => hl (heq ▸ hsrc)) fun heq => hl (heq ▸ hdst)
    exact congrArg KeyedStore.list htasks
  constructor
  · exact BindingUnitInfo.Apart.moveWhere h.apart
  · exact h.all.moveWhere src dst p herr
  · rw [hkeep .assumedTasks id]
    exact h.assumed
  · rw [hkeep .newTasks id]
    exact h.new

theorem addAssumedTask (hqpi : P { assumed := true, runningUnit := { queuedPodInfo := qpi } })
    (hin : ∀ l, u.tasks.Has l qpi.pod.uid → l = .assumedTasks) :
    Sorted P (u.addAssumedTask qpi) := by
  constructor
  · exact Shelves.Apart.put h.apart hin
  · exact Shelves.Forall.put h.all _ hqpi
  · intro cr hcr
    rcases (mem_put _).mp hcr with ⟨-, rfl⟩ | ⟨hold, -⟩
    · rfl
    · exact h.assumed cr hold
  · intro cr hcr
    exact h.new cr ((mem_getTasks_put (by decide)).mp hcr)

theorem addNewTask {rui : RunningUnitInfo} (hrui : P { assumed := false, runningUnit := rui })
    (hin : ∀ l, ¬ u.tasks.Has l rui.queuedPodInfo.pod.uid) : Sorted P (u.addNewTask rui) := by
  unfold BindingUnitInfo.addNewTask
  cases hnode : rui.suggestedNode with
  | none => exact h
  | some node =>
    constructor
    · exact Shelves.Apart.put h.apart fun l hl => absurd hl (hin l)
    · exact Shelves.Forall.put h.all _ hrui
    · intro cr hcr
      exact h.assumed cr ((mem_getTasks_put (by decide)).mp hcr)
    · intro cr hcr
      rcases (mem_put _).mp hcr with ⟨-, rfl⟩ | ⟨hold, -⟩
      · exact ⟨rfl, by simp [hnode]⟩
      · exact h.new cr hold

theorem updateTask {l : TaskList} (hl : l.checked) (hcr : P cr) (hin : u.tasks.Has l cr.uid) :
    Sorted P (updateTask l u cr) := by
  constructor
  · exact Shelves.Apart.put h.apart fun l' hl' => h.apart _ l' l hl' hin
  · exact Shelves.Forall.put h.all _ hcr
  · intro cr' hcr'
    exact h.assumed cr' ((mem_getTasks_put hl.ne_unchecked.1.symm).mp hcr')
  · intro cr' hcr'
    exact h.new cr' ((mem_getTasks_put hl.ne_unchecked.2.symm).mp hcr')

end Sorted

namespace Sorted

theorem of_move {u' : BindingUnitInfo} (hP : Kept P) (h : Sorted P u) (hmove : Move u u') :
    Sorted P u' := by
  cases hmove with
  | @settleAssumed _ cr cr' hdst hin hassumed hvictims hinfo =>
    have hcr : P cr := hP.returning cr' cr cr'.info.initialPreemptAttemptTimestamp (h.all _ cr' hin)
      (h.assumed cr' hin) hassumed hvictims hinfo
    apply h.settle_of_has hdst hcr (.inl hassumed)
    rw [hassumed, CheckResult.uid, hinfo]
    exact has_of_mem_list hin
  | @settleNew _ cr cr' hdst hin hassumed hunit =>
    obtain ⟨hnew, hnode⟩ := h.new cr' hin
    obtain ⟨assumed, rui, err⟩ := cr
    subst hunit hassumed
    have hsame : SameTask cr' { cr' with assumed := false, err := err } :=
      ⟨hnew.symm, rfl, rfl, rfl, rfl, fun _ => rfl⟩
    exact h.settle_of_has hdst (hP.same _ _ hsame (h.all .newTasks cr' hin)) (.inr hnode)
      (has_of_mem_list (v := cr') hin)
  | moveWhere p err hsrc _ hdst _ =>
    exact h.moveWhere hsrc hdst p fun cr hcr =>
      hP.same cr _ ⟨rfl, rfl, rfl, rfl, rfl, fun _ => rfl⟩ hcr
  | @addAssumedTask cr stamp hin =>
    exact h.addAssumedTask (hP.returning cr _ stamp (h.all _ cr hin) (h.assumed cr hin) rfl rfl rfl)
      fun l hl => h.apart _ l _ hl (has_of_mem_list hin)
  | @updateTask l cr cr' hl hin hsame =>
    have huid : cr'.uid = cr.uid := congrArg Pod.uid hsame.pod
    apply h.updateTask hl (hP.same cr cr' hsame (h.all l cr hin))
    rw [huid]
    exact has_of_mem_list hin

theorem of_moves {u' : BindingUnitInfo} (hP : Kept P) (h : Sorted P u) (hmoves : Moves u u') :
    Sorted P u' := by
  induction hmoves with
  | refl => exact h
  | tail _ hmove ih => exact ih.of_move hP hmove

end Sorted

end

section

variable {P : CheckResult → Prop} {env : Env} {cache : BinderCache} {u : BindingUnitInfo}

theorem has_of_has_initializePod {l : TaskList} {uid : String}
    (h : (initializePod env cache u qpi).tasks.Has l uid) :
    uid = qpi.pod.uid ∨ u.tasks.Has l uid := by
  rcases initializePod_cases env cache u qpi with
    heq | heq | ⟨rui, err, hpod, -, heq⟩ | ⟨rui, htask, heq⟩
  · rw [heq] at h
    rcases (has_put _).mp h with ⟨-, huid⟩ | hu
    · exact .inl huid
    · exact .inr hu
  · rw [heq] at h
    exact .inr h
  · rw [heq] at h
    rw [← hpod]
    exact has_of_has_settle h
  · rw [heq] at h
    rw [← htask.pod]
    unfold BindingUnitInfo.addNewTask at h
    split at h
    · exact .inr h
    · rcases (has_put _).mp h with ⟨-, huid⟩ | hu
      · exact .inl huid
      · exact .inr hu

/-- What holds of a unit without the pod that is initialized holds after all of them. -/
theorem initializeUnit_invariant {Q : BindingUnitInfo → Prop} (unit : BindingUnit)
    (hnew : Q (.new unit.unitKey.type unit.minMember unit.pods.len
      (decide (unit.unitKey ∈ cache.scheduledUnits))))
    (hpod : ∀ u, ∀ qpi ∈ unit.pods.list, Q u → (∀ l, ¬ u.tasks.Has l qpi.pod.uid) →
      Q (initializePod env cache u qpi)) : Q (initializeUnit env cache unit) := by
  have hloop : ∀ (pods : List BindingPodInfo) u, (pods.map fun qpi => qpi.pod.uid).Nodup →
      (∀ qpi ∈ pods, qpi ∈ unit.pods.list ∧ ∀ t, ¬ u.tasks.Has t qpi.pod.uid) → Q u →
      Q (pods.foldl (initializePod env cache) u) := by
    intro pods
    induction pods with
    | nil => exact fun _ _ _ hu => hu
    | cons qpi pods ih =>
      intro u hnd hfresh hu
      rw [nodup_map_cons] at hnd
      obtain ⟨hqpi, hnot⟩ := hfresh qpi List.mem_cons_self
      apply ih _ hnd.2 _ (hpod u qpi hqpi hu hnot)
      intro qpi' hqpi'
      obtain ⟨hin, hnot'⟩ := hfresh qpi' (List.mem_cons_of_mem _ hqpi')
      refine ⟨hin, fun t hhas => ?_⟩
      rcases has_of_has_initializePod hhas with huid | hold
      · exact hnd.1 qpi' hqpi' huid
      · exact hnot' t hold
  apply hloop _ _ _ _ hnew
  · exact ((env.podOrder.perm _).map _).nodup_iff.mpr unit.pods.nodup_list_key
  · intro qpi hqpi
    exact ⟨(env.podOrder.mem_list).mp hqpi, fun t h => (by cases h)⟩

/-- The property holds of the pods that were assumed in an earlier round. -/
def BindingUnit.Returning (P : CheckResult → Prop) (unit : BindingUnit) : Prop :=
  ∀ qpi ∈ unit.pods.list, qpi.newlyAssumedButStillInHandling = true →
    P { assumed := true, runningUnit := { queuedPodInfo := qpi } }

namespace Sorted

theorem initializePod (h : Sorted P u) (hP : Kept P)
    (hinit : ∀ u qpi, P { assumed := false, runningUnit := (initializeTask env cache u qpi).1 })
    (hreturning : qpi.newlyAssumedButStillInHandling = true →
      P { assumed := true, runningUnit := { queuedPodInfo := qpi } })
    (hfresh : ∀ l, ¬ u.tasks.Has l qpi.pod.uid) :
    Sorted P (initializePod env cache u qpi) := by
  have hpod := initializeTask_pod env cache u qpi
  have htask := hinit u qpi
  unfold Binder.initializePod
  split_ifs with hflag
  · exact h.addAssumedTask (hreturning hflag) fun l hl => absurd hl (hfresh l)
  · exact ⟨h.apart, h.all, h.assumed, h.new⟩
  · split
    next rui err heq =>
      rw [heq] at hpod htask
      rw [← hpod] at hfresh
      exact h.settle (by trivial) (hP.same ⟨false, rui, none⟩ _
        ⟨rfl, rfl, rfl, rfl, rfl, fun _ => rfl⟩ htask) fun l hl => absurd hl (hfresh l)
    next rui heq =>
      rw [heq] at hpod htask
      rw [← hpod] at hfresh
      exact h.addNewTask htask hfresh

theorem initializeUnit (hP : Kept P)
    (hinit : ∀ u qpi, P { assumed := false, runningUnit := (initializeTask env cache u qpi).1 })
    {unit : BindingUnit} (hreturning : unit.Returning P) :
    Sorted P (initializeUnit env cache unit) :=
  initializeUnit_invariant unit (new_empty ..) fun _ qpi hqpi h hfresh =>
    h.initializePod hP hinit (hreturning qpi hqpi) hfresh

end Sorted

end

section

variable {P : CheckResult → Prop} {env : Env}

/-- The unit and the cache once all stages have been run, whether or not the unit failed. -/
def afterStages (env : Env) (cache : BinderCache) (unit : BindingUnit) :
    BindingUnitInfo × BinderCache :=
  (stages env unit).foldl (fun s stage => stage.2 s)
    (.new unit.unitKey.type unit.minMember unit.pods.len false, cache)

/-- The unit is rejected after a stage, or gets through all of them. -/
theorem runStages_cases (last : BindingUnitInfo → BinderCache → Outcome)
    (stages : List (String × Stage)) (s : BindingUnitInfo × BinderCache) :
    (∃ u cache err,
      runStages last stages s = failAndRejectAllTasks { unitInfo := u, cache := cache } err) ∨
      runStages last stages s = last (stages.foldl (fun s stage => stage.2 s) s).1
        (stages.foldl (fun s stage => stage.2 s) s).2 := by
  induction stages generalizing s with
  | nil => exact .inr rfl
  | cons stage stages ih =>
    unfold runStages
    simp only
    split_ifs
    · exact .inl ⟨_, _, _, rfl⟩
    · exact ih (stage.2 s)

section

variable (hP : Kept P) {cache : BinderCache}
  (hinit : ∀ u qpi, P { assumed := false, runningUnit := (initializeTask env cache u qpi).1 })
  {unit : BindingUnit} (hreturning : unit.Returning P)

include hP hinit hreturning

theorem sorted_beforeAssume :
    Sorted P (checkSameNodeConflictsForUnit env (checkCrossNodeTopologyForUnit env
      (checkCrossNodePreemptionForUnit env (initializeUnit env cache unit)))) :=
  (Sorted.initializeUnit hP hinit hreturning).of_moves hP
    ((moves_checkCrossNodePreemptionForUnit env _).trans
      ((moves_checkCrossNodeTopologyForUnit env _).trans
        (moves_checkSameNodeConflictsForUnit env _)))

theorem sorted_afterStages : Sorted P (afterStages env cache unit).1 :=
  (sorted_beforeAssume hP hinit hreturning).of_moves hP
    (moves_markVictimsAndAssumeTasks env _ cache)

end

end

end GodelScheduler.Binder
