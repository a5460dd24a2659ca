import GodelScheduler.BinderQueue.PriorityQueue

/-!
# Which units are ready

A unit enters the ready queue of the binder when it has enough pods or its
status is scheduled. An update or a delete that leaves a ready unit with too few
pods should move it back to the waiting queue unless its status is scheduled;
`updateUnit` compares the status the wrong way round. So the unit stays ready,
or it is moved although it is scheduled.
`readyUnitsComplete_iff` says which runs never show it.
-/

namespace GodelScheduler.BinderQueue

open Library Queue

namespace PriorityQueue

/-- The units an update or a delete touches. -/
def Op.touched : Op → List UnitKey
  | .update _ oldPod newPod _ =>
    (oldPod.map getUnitIdentifier).toList ++ [getUnitIdentifier newPod]
  | .delete pod => [getUnitIdentifier pod]
  | _ => []

/-- From `q` to `q'`: a unit of the ready queue has enough pods or is scheduled, and a scheduled
unit has not been moved to the waiting queue. -/
def CompleteAt (q q' : PriorityQueue) (key : UnitKey) : Prop :=
  (∀ unit, (q'.queues .readyUnitQ).getByKey key = some unit →
    unit.readyToBePopulated = true ∨ q'.status key = .scheduledStatus) ∧
  (q'.status key = .scheduledStatus → (q.queues .waitingUnitQ).getByKey key = none →
    (q'.queues .waitingUnitQ).getByKey key = none)

/-- An update or a delete leaves the units it touches so. -/
def ReadyUnitsComplete (cfg : BackoffConfig) (q : PriorityQueue) (op : Op) : Prop :=
  ∀ key ∈ op.touched, CompleteAt q (q.step cfg op) key

/-- An update or a delete of a pod in a group of the ready queue leaves the group enough pods; the
last pod of a group may be deleted. -/
def LeavesEnough (q : PriorityQueue) : Op → Prop
  | .update _ (some oldPod) newPod _ =>
    ∀ unit ref minMember pods, q.findPod oldPod = some (.readyUnitQ, unit, ref) →
      unit.pods = .podGroup minMember pods → minMember ≤ GoMap.len (pods.insert newPod.uid ref)
  | .delete pod =>
    ∀ unit minMember pods, q.getUnit (getUnitIdentifier pod) = some (.readyUnitQ, unit) →
      unit.pods = .podGroup minMember pods → pods.len ≠ 1 →
        minMember ≤ GoMap.len (pods.erase pod.uid)
  | _ => True

/-- No unit is handed back, and a status only changes to scheduled. -/
def Op.Plain : Op → Prop
  | .addUnitPreemptor _ _ => False
  | .setUnitSchedulingStatus _ status => status = .scheduledStatus
  | _ => True

/-- Every unit of the ready queue has passed the test, and no unit is in backoff. -/
structure Complete (q : PriorityQueue) : Prop where
  ready : ∀ key unit, (q.queues .readyUnitQ).getByKey key = some unit → q.ready unit = true
  backoff : ∀ key, (q.queues .unitBackoffQ).getByKey key = none

end PriorityQueue

theorem UnitPods.readyToBePopulated_addPod {pods : UnitPods} (infos : Infos) (ref : InfoRef)
    (h : pods.readyToBePopulated = true) : (pods.addPod infos ref).readyToBePopulated = true := by
  cases pods with
  | singlePod _ => rfl
  | podGroup minMember pods =>
    have hle := GoMap.len_le_len_insert pods (infos ref).uid ref
    simp only [addPod, readyToBePopulated, decide_eq_true_eq] at h ⊢
    omega

namespace PriorityQueue

variable {q q' : PriorityQueue} {env : Env} {ref : InfoRef} {unit : UnitInfo}

theorem ready_addPod (infos : Infos) (ref : InfoRef) (h : q.ready unit = true) :
    q.ready (unit.addPod infos ref) = true := by
  unfold ready at h ⊢
  rw [Bool.or_eq_true] at h ⊢
  exact h.imp_left (UnitPods.readyToBePopulated_addPod infos ref)

variable {queue : QueueName} {cfg : BackoffConfig}

namespace Complete

theorem put_ready (h : q.Complete) (hunit : q.ready unit = true) :
    (q.put .readyUnitQ unit).Complete where
  ready key unit' hunit' := by
    rw [getByKey_put] at hunit'
    split_ifs at hunit'
    · cases hunit'
      exact hunit
    · exact h.ready key unit' hunit'
  backoff key := by
    rw [getByKey_put, if_neg (by simp)]
    exact h.backoff key

theorem put_waiting (h : q.Complete) (unit : UnitInfo) : (q.put .waitingUnitQ unit).Complete where
  ready key unit' hunit' := by
    rw [getByKey_put, if_neg (by simp)] at hunit'
    exact h.ready key unit' hunit'
  backoff key := by
    rw [getByKey_put, if_neg (by simp)]
    exact h.backoff key

theorem remove (h : q.Complete) (queue : QueueName) (key : UnitKey) :
    (q.remove queue key).Complete where
  ready key' unit hunit := by
    rw [getByKey_remove] at hunit
    split_ifs at hunit
    exact h.ready key' unit hunit
  backoff key' := by
    rw [getByKey_remove]
    split_ifs
    · rfl
    · exact h.backoff key'

theorem ne_backoff_of_getUnit (h : q.Complete) {key : UnitKey}
    (hfound : q.getUnit key = some (queue, unit)) : queue ≠ .unitBackoffQ := by
  rintro rfl
  have hget := getByKey_of_getUnit hfound
  rw [h.backoff key] at hget
  cases hget

theorem added (h : q.Complete) (hadded : Added env q ref q') : q'.Complete := by
  cases hadded with
  | waits => exact ⟨h.ready, h.backoff⟩
  | created unit hkey hcreated =>
    split_ifs with hready
    · exact h.put_ready hready
    · exact h.put_waiting unit
  | activated unit hfound hready => exact (h.remove _ _).put_ready hready
  | joined queue unit hfound =>
    have hget := getByKey_of_getUnit hfound
    cases queue with
    | waitingUnitQ => exact h.put_waiting _
    | unitBackoffQ => exact absurd rfl (h.ne_backoff_of_getUnit hfound)
    | readyUnitQ => exact h.put_ready (ready_addPod _ _ (h.ready _ unit hget))

/-- The unit goes back where it was found, unless it is in the ready queue and lacks pods. -/
theorem updateUnit (h : q.Complete) (hqueue : queue ≠ .unitBackoffQ)
    (hready : queue = .readyUnitQ → unit.readyToBePopulated = true) :
    (q.updateUnit queue unit).Complete := by
  unfold PriorityQueue.updateUnit
  cases queue with
  | waitingUnitQ => exact h.put_waiting unit
  | unitBackoffQ => exact absurd rfl hqueue
  | readyUnitQ =>
    rw [if_pos rfl, hready rfl]
    exact h.put_ready (by simp [PriorityQueue.ready, hready rfl])

end Complete

theorem waiting_added (hadded : Added env q ref q') {key : UnitKey}
    (hscheduled : q.status key = .scheduledStatus)
    (hwaiting : (q.queues .waitingUnitQ).getByKey key = none) :
    (q'.queues .waitingUnitQ).getByKey key = none := by
  cases hadded with
  | waits => exact hwaiting
  | created unit hkey hcreated =>
    split_ifs with hready
    · rw [getByKey_put, if_neg (by simp)]
      exact hwaiting
    · rw [getByKey_put, if_neg]
      · exact hwaiting
      · rintro ⟨-, rfl⟩
        simp [ready, hscheduled] at hready
  | activated unit hfound hready =>
    rw [getByKey_put, if_neg (by simp), getByKey_remove]
    split_ifs
    · rfl
    · exact hwaiting
  | joined queue unit hfound =>
    rw [getByKey_put, if_neg]
    · exact hwaiting
    · rintro ⟨rfl, rfl⟩
      have hget := getByKey_of_getUnit hfound
      rw [← unitKey_of_getUnit hfound] at hget
      exact Option.some_ne_none _ (hget.symm.trans hwaiting)

theorem waiting_updateUnit {key key' : UnitKey} {unit' : UnitInfo}
    (hfound : q.getUnit key = some (queue, unit)) (hkey : unit'.unitKey = key)
    (hready : queue = .readyUnitQ → unit'.readyToBePopulated = true)
    (hwaiting : (q.queues .waitingUnitQ).getByKey key' = none) :
    ((q.updateUnit queue unit').queues .waitingUnitQ).getByKey key' = none := by
  unfold updateUnit
  cases queue with
  | waitingUnitQ =>
    rw [if_neg (by simp), getByKey_put, if_neg]
    · exact hwaiting
    · rintro ⟨-, rfl⟩
      rw [hkey, getByKey_of_getUnit hfound] at hwaiting
      cases hwaiting
  | unitBackoffQ =>
    rw [if_neg (by simp), getByKey_put, if_neg (by simp)]
    exact hwaiting
  | readyUnitQ =>
    rw [if_pos rfl, hready rfl]
    simp only [Bool.not_true, Bool.false_and, Bool.false_eq_true, if_false]
    rw [getByKey_put, if_neg (by simp)]
    exact hwaiting

theorem status_updateUnit (queue : QueueName) (unit : UnitInfo) :
    (q.updateUnit queue unit).status = q.status := by
  unfold updateUnit
  split_ifs <;> rfl

theorem completeAt_of_complete (h : q'.Complete) {key : UnitKey}
    (hwaiting : q'.status key = .scheduledStatus → (q.queues .waitingUnitQ).getByKey key = none →
      (q'.queues .waitingUnitQ).getByKey key = none) : CompleteAt q q' key := by
  refine ⟨fun unit hunit => ?_, hwaiting⟩
  have hready := h.ready key unit hunit
  rw [ready, Bool.or_eq_true, KeyedStore.key_of_getByKey hunit, beq_iff_eq] at hready
  exact hready

/-- A unit of the ready queue that lacks pods stays there, or leaves it although scheduled. -/
theorem readyToBePopulated_of_completeAt {key : UnitKey} {unit' : UnitInfo}
    (hwaiting : (q'.queues .waitingUnitQ).getByKey key = none) (hkey : unit'.unitKey = key)
    (h : CompleteAt q' (q.updateUnit .readyUnitQ unit') key) : unit'.readyToBePopulated = true := by
  by_contra hnot
  rw [Bool.not_eq_true] at hnot
  by_cases hstatus : q.status key = .scheduledStatus
  · have hmoved := h.2 (by rw [status_updateUnit, hstatus]) hwaiting
    rw [updateUnit, if_pos rfl, hnot, hkey, hstatus] at hmoved
    simp [getByKey_put, hkey] at hmoved
  · have hput : q.updateUnit .readyUnitQ unit' = q.put .readyUnitQ unit' := by
      simp [updateUnit, hkey, hstatus]
    rw [hput] at h
    rcases h.1 unit' (by simp [getByKey_put, hkey]) with hready | hscheduled
    · rw [hnot] at hready
      cases hready
    · exact hstatus hscheduled

theorem Complete.add (h : q.Complete) (env : Env) (pod : Pod) : (q.add env pod).Complete :=
  Complete.added (q := q.newInfo (newQueuedPodInfo pod env.now)) ⟨h.ready, h.backoff⟩
    (added_addPodUsingAnnotations env _ _)

theorem completeAt_add (h : q.Complete) (env : Env) (pod : Pod) (key : UnitKey) :
    CompleteAt q (q.add env pod) key := by
  have hadded := added_addPodUsingAnnotations env (q.newInfo (newQueuedPodInfo pod env.now)) q.next
  refine completeAt_of_complete (h.add env pod) fun hscheduled hwaiting => ?_
  rw [add, hadded.kept.2] at hscheduled
  exact waiting_added hadded hscheduled hwaiting

theorem readyToBePopulated_updated (newPod : Pod) :
    (unit.addPod (q.setPod ref newPod).infos ref).readyToBePopulated = true ↔
      ∀ minMember pods, unit.pods = .podGroup minMember pods →
        minMember ≤ GoMap.len (pods.insert newPod.uid ref) := by
  unfold UnitInfo.readyToBePopulated UnitInfo.addPod
  cases unit.pods with
  | singlePod _ => simp [UnitPods.addPod, UnitPods.readyToBePopulated]
  | podGroup minMember pods =>
    simp [UnitPods.addPod, UnitPods.readyToBePopulated, setPod, QueuedPodInfo.uid]

variable (h : q.Complete)
include h

theorem complete_update {oldPod : Option Pod} {newPod : Pod} {named}
    (henough : q.LeavesEnough (.update env oldPod newPod named)) :
    (q.update env oldPod newPod).Complete := by
  rcases q.update_cases env oldPod newPod with
    ⟨pod, queue, unit, ref, rfl, hfind, heq⟩ | ⟨-, ⟨ref, heq⟩ | heq⟩
  · have hfound := (findPod_eq_some.mp hfind).1
    have hset : (q.setPod ref newPod).Complete := ⟨h.ready, h.backoff⟩
    rw [heq]
    refine hset.updateUnit (h.ne_backoff_of_getUnit hfound) ?_
    rintro rfl
    rw [readyToBePopulated_updated]
    exact fun minMember pods => henough unit ref minMember pods hfind
  · rw [heq]
    exact ⟨h.ready, h.backoff⟩
  · rw [heq]
    exact h.add env newPod

theorem readyUnitsComplete_update {oldPod : Option Pod} {newPod : Pod} {named} :
    ReadyUnitsComplete cfg q (.update env oldPod newPod named) ↔
      q.LeavesEnough (.update env oldPod newPod named) := by
  constructor
  · intro hlaw
    cases oldPod with
    | none => trivial
    | some pod =>
      intro unit ref minMember pods hfind hpods
      have hfound := (findPod_eq_some.mp hfind).1
      have hat := hlaw (getUnitIdentifier pod) (by simp [Op.touched])
      have heq : q.step cfg (.update env (some pod) newPod named) =
          (q.setPod ref newPod).updateUnit .readyUnitQ
            (unit.addPod (q.setPod ref newPod).infos ref) := by
        simp only [step, update, hfind]
      rw [heq] at hat
      have hkey := (unit.unitKey_addPod (q.setPod ref newPod).infos ref).trans
        (unitKey_of_getUnit hfound)
      have hready := readyToBePopulated_of_completeAt (waiting_of_getUnit hfound (by simp)) hkey hat
      exact (readyToBePopulated_updated newPod).mp hready minMember pods hpods
  · intro henough key _
    have hcomplete := complete_update h henough
    rcases q.update_cases env oldPod newPod with
      ⟨pod, queue, unit, ref, rfl, hfind, heq⟩ | ⟨-, ⟨ref, heq⟩ | heq⟩
    · have hfound := (findPod_eq_some.mp hfind).1
      refine completeAt_of_complete hcomplete fun _ hwaiting => ?_
      have hkey := (unit.unitKey_addPod (q.setPod ref newPod).infos ref).trans
        (unitKey_of_getUnit hfound)
      simp only [heq]
      refine waiting_updateUnit hfound hkey ?_ hwaiting
      rintro rfl
      rw [readyToBePopulated_updated]
      exact fun minMember pods => henough unit ref minMember pods hfind
    · refine completeAt_of_complete hcomplete fun _ hwaiting => ?_
      simp only [heq]
      exact hwaiting
    · simp only [step, heq]
      exact completeAt_add h env newPod key

theorem complete_delete {pod : Pod} (henough : q.LeavesEnough (.delete pod)) :
    (q.delete pod).Complete := by
  unfold delete
  cases hfound : q.getUnit (getUnitIdentifier pod) with
  | none => exact ⟨h.ready, h.backoff⟩
  | some found =>
    obtain ⟨queue, unit⟩ := found
    dsimp only
    cases hpods : unit.pods with
    | singlePod ref =>
      dsimp only
      split_ifs
      · exact h.remove _ _
      · exact h
    | podGroup minMember pods =>
      dsimp only
      split_ifs with hlen hmem
      · exact h.remove _ _
      · exact h
      · refine h.updateUnit (h.ne_backoff_of_getUnit hfound) ?_
        rintro rfl
        exact decide_eq_true (henough unit minMember pods hfound hpods hlen)

theorem readyUnitsComplete_delete {pod : Pod} :
    ReadyUnitsComplete cfg q (.delete pod) ↔ q.LeavesEnough (.delete pod) := by
  constructor
  · intro hlaw unit minMember pods hfound hpods hlen
    have hat := hlaw (getUnitIdentifier pod) (by simp [Op.touched])
    have heq : q.step cfg (.delete pod) = q.updateUnit .readyUnitQ
        (unit.withPods minMember (pods.erase pod.uid)) := by
      simp only [step, delete, hfound, hpods, hlen, if_false]
    rw [heq] at hat
    have hkey := (unit.unitKey_withPods minMember (pods.erase pod.uid)).trans
      (unitKey_of_getUnit hfound)
    have hready := readyToBePopulated_of_completeAt (waiting_of_getUnit hfound (by simp)) hkey hat
    exact of_decide_eq_true hready
  · intro henough key _
    refine completeAt_of_complete (complete_delete h henough) fun _ hwaiting => ?_
    simp only [delete]
    cases hfound : q.getUnit (getUnitIdentifier pod) with
    | none => exact hwaiting
    | some found =>
      obtain ⟨queue, unit⟩ := found
      have hremove : ((q.remove queue unit.unitKey).queues .waitingUnitQ).getByKey key = none := by
        rw [getByKey_remove]
        split_ifs
        · rfl
        · exact hwaiting
      dsimp only
      cases hpods : unit.pods with
      | singlePod ref =>
        dsimp only
        split_ifs
        · exact hremove
        · exact hwaiting
      | podGroup minMember pods =>
        dsimp only
        split_ifs with hlen hmem
        · exact hremove
        · exact hwaiting
        · have hkey := (unit.unitKey_withPods minMember (pods.erase pod.uid)).trans
            (unitKey_of_getUnit hfound)
          refine waiting_updateUnit hfound hkey ?_ hwaiting
          rintro rfl
          exact decide_eq_true (henough unit minMember pods hfound hpods hlen)

theorem complete_checkWaitingPod (env : Env) : (q.checkWaitingPod env).Complete := by
  have hstart : ({ q with waitingPodsList := ∅ } : PriorityQueue).Complete := ⟨h.ready, h.backoff⟩
  exact run_invariant
    (fun q ref h => h.added (added_addPodUsingAnnotations env q ref)) hstart _

theorem moveToReadyQueue_eq (cfg : BackoffConfig) (env : Env) : q.moveToReadyQueue cfg env = q := by
  have hnil : (q.queues .unitBackoffQ).list = [] := by
    apply List.eq_nil_iff_forall_not_mem.mpr
    intro unit hunit
    rw [KeyedStore.mem_list_iff, h.backoff] at hunit
    cases hunit
  unfold moveToReadyQueue
  rw [hnil]
  rfl

theorem complete_step {op : Op} (hop : op.Plain) (henough : q.LeavesEnough op) :
    (q.step cfg op).Complete := by
  cases op with
  | add env pod => exact h.add env pod
  | update env oldPod newPod named => exact complete_update h henough
  | delete pod => exact complete_delete h henough
  | pop key =>
    simp only [step, pop]
    cases (q.queues .readyUnitQ).getByKey key with
    | none => exact h
    | some unit => exact h.remove _ _
  | addUnitPreemptor env unit => cases hop
  | activeWaitingUnit key =>
    simp only [step, activeWaitingUnit]
    split
    · split_ifs with hready
      · exact (h.remove _ _).put_ready hready
      · exact h
    · exact h
  | moveToReadyQueue env =>
    simp only [step]
    rw [moveToReadyQueue_eq h]
    exact h
  | checkWaitingPod env => exact complete_checkWaitingPod h env
  | setUnitSchedulingStatus key status =>
    obtain rfl : status = .scheduledStatus := hop
    refine ⟨fun key' unit hunit => ?_, h.backoff⟩
    have hready := h.ready key' unit hunit
    simp only [step, ready, Bool.or_eq_true, beq_iff_eq, Function.update_apply] at hready ⊢
    split_ifs
    · exact .inr rfl
    · exact hready

omit h

theorem complete_new (status : UnitKey → SchedulingStatus) : (new status).Complete where
  ready key unit hunit := by simp [new] at hunit
  backoff key := KeyedStore.getByKey_empty key

/-- In a run without a unit handed back, every update and delete leaves the ready units it touches
complete, and the scheduled ones out of the waiting queue, exactly if each of these calls leaves a
group of the ready queue enough pods. -/
theorem readyUnitsComplete_iff (cfg : BackoffConfig) (status : UnitKey → SchedulingStatus)
    (ops : List Op) (hops : ∀ op ∈ ops, op.Plain) :
    Along (step cfg) (ReadyUnitsComplete cfg) (new status) ops ↔
      Along (step cfg) LeavesEnough (new status) ops := by
  have hplain : Along (step cfg) (fun _ op => op.Plain) (new status) ops := along_of_forall hops
  refine along_iff_along ?_ ?_ (complete_new status) hplain
  · intro q op h _
    cases op with
    | update env oldPod newPod named => exact readyUnitsComplete_update h
    | delete pod => exact readyUnitsComplete_delete h
    | _ => simp [ReadyUnitsComplete, Op.touched, LeavesEnough]
  · intro q op h hop henough
    exact complete_step h hop henough

section

def member (name : String) : Pod :=
  { uid := name, ns := "default", name := name, podGroupName := some "group" }

def groupEnv (minMember : ℤ) : Env where
  now := 0
  listers := .ofPodGroups [{ ns := "default", name := "group", minMember := minMember }]
  order := .forward

def pending (_ : UnitKey) : SchedulingStatus := .pendingStatus

/-- A group of two that loses a pod stays ready; a scheduled group leaves the ready queue when its
pod is updated. -/
theorem updateUnit_keeps_incomplete_and_moves_scheduled :
    ¬ Along (step ⟨1, 10⟩) (ReadyUnitsComplete ⟨1, 10⟩) (new pending)
      [.add (groupEnv 2) (member "a"), .add (groupEnv 2) (member "b"), .delete (member "b")] ∧
    ¬ Along (step ⟨1, 10⟩) (ReadyUnitsComplete ⟨1, 10⟩) (new pending)
      [.setUnitSchedulingStatus (.podGroupUnit "default" "group") .scheduledStatus,
        .add (groupEnv 2) (member "a"),
        .update (groupEnv 2) (some (member "a")) (member "a") (by simp)] := by
  constructor
  · rintro ⟨-, -, h, -⟩
    rcases (h (.podGroupUnit "default" "group") (by decide)).1
      ⟨.podGroupUnit "default" "group", .podGroup 2 (AList.singleton "a" 0), 0, 0⟩ (by decide) with
      hready | hscheduled
    · exact absurd hready (by decide)
    · exact absurd hscheduled (by decide)
  · rintro ⟨-, -, h, -⟩
    have hmoved := (h (.podGroupUnit "default" "group") (by decide)).2 (by decide) (by decide)
    exact absurd hmoved (by decide)

/-- A group of one may lose its second pod. -/
theorem readyUnitsComplete_group_of_one :
    let ops : List Op :=
      [.add (groupEnv 1) (member "a"), .add (groupEnv 1) (member "b"), .delete (member "b")]
    (∀ op ∈ ops, op.Plain) ∧ Along (step ⟨1, 10⟩) LeavesEnough (new pending) ops ∧
      Along (step ⟨1, 10⟩) (ReadyUnitsComplete ⟨1, 10⟩) (new pending) ops := by
  intro ops
  have hplain : ∀ op ∈ ops, op.Plain := by simp [ops, Op.Plain]
  have henough : Along (step ⟨1, 10⟩) LeavesEnough (new pending) ops := by
    refine ⟨trivial, trivial, fun unit minMember pods hfound hpods _ => ?_, trivial⟩
    have hget : (run (step ⟨1, 10⟩) (new pending) (ops.take 2)).getUnit
        (.podGroupUnit "default" "group") = some (.readyUnitQ, ⟨.podGroupUnit "default" "group",
          .podGroup 1 ((AList.singleton "a" 0).insert "b" 1), 0, 0⟩) := by
      decide
    obtain ⟨-, rfl⟩ := Prod.mk.inj (Option.some.inj (hfound.symm.trans hget))
    cases hpods
    decide
  exact ⟨hplain, henough, (readyUnitsComplete_iff ⟨1, 10⟩ pending ops hplain).mpr henough⟩

end

end PriorityQueue

end GodelScheduler.BinderQueue
