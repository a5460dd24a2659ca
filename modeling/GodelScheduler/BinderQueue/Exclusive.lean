import GodelScheduler.BinderQueue.PriorityQueue

/-!
# A unit in one queue of the binder

Every call that stores a unit first looks for the unit of its key, in the waiting,
the backoff and the ready queue, and stores it where it found it or takes it out
from there. So no two of the queues ever have units of one key, also if a unit
that was served is handed back after new pods have made another one.
-/

namespace GodelScheduler.BinderQueue.PriorityQueue

open Library Queue

/-- No unit key is in two of the queues. -/
def Exclusive (q : PriorityQueue) : Prop := Shelves.Apart q.queues

variable {q : PriorityQueue} {queue : QueueName} {unit unit' : UnitInfo} {key : UnitKey}

theorem not_has_of_getUnit_eq_none (h : q.getUnit key = none) (queue : QueueName) :
    ¬ Shelves.Has q.queues queue key := by
  have hall := List.findSome?_eq_none_iff.mp h queue (by cases queue <;> simp)
  simp [Shelves.Has, Option.map_eq_none_iff.mp hall]

theorem has_of_getUnit (h : q.getUnit key = some (queue, unit)) :
    Shelves.Has q.queues queue key := by
  simp [Shelves.Has, getByKey_of_getUnit h]

namespace Exclusive

variable (h : q.Exclusive)
include h

theorem remove (queue : QueueName) (key : UnitKey) : (q.remove queue key).Exclusive :=
  h.drop queue key

theorem put_new (hnew : q.getUnit unit.unitKey = none) (queue : QueueName) :
    (q.put queue unit).Exclusive :=
  h.put fun queue' hin => absurd hin (not_has_of_getUnit_eq_none hnew queue')

theorem put_found (hfound : q.getUnit key = some (queue, unit)) (hkey : unit'.unitKey = key) :
    (q.put queue unit').Exclusive := by
  subst hkey
  exact h.put fun queue' hin => h _ queue' queue hin (has_of_getUnit hfound)

theorem move_found (hfound : q.getUnit key = some (queue, unit)) (hkey : unit'.unitKey = key)
    (dst : QueueName) : ((q.remove queue key).put dst unit').Exclusive := by
  subst hkey
  exact h.drop_put fun queue' hin => .inl (h _ queue' queue hin (has_of_getUnit hfound))

theorem updateUnit (hfound : q.getUnit key = some (queue, unit)) (hkey : unit'.unitKey = key) :
    (q.updateUnit queue unit').Exclusive := by
  unfold PriorityQueue.updateUnit
  split_ifs with hready
  · subst hready
    rw [hkey]
    exact h.move_found hfound hkey _
  · subst hready
    exact h.put_found hfound hkey
  · exact h.put_found hfound hkey

variable (env : Env)

theorem addPodUsingAnnotations (ref : InfoRef) : (q.addPodUsingAnnotations env ref).Exclusive := by
  unfold PriorityQueue.addPodUsingAnnotations
  dsimp only
  cases hfound : q.getUnit (getUnitIdentifier (q.infos ref).pod) with
  | none =>
    cases createScheduleUnit env.listers q.infos ref with
    | error err => exact h
    | ok pods =>
      dsimp only
      split_ifs
      · exact h.put_new hfound _
      · exact h.put_new hfound _
  | some found =>
    obtain ⟨queue, unit⟩ := found
    have hkey := (unit.unitKey_addPod q.infos ref).trans (unitKey_of_getUnit hfound)
    cases queue with
    | waitingUnitQ =>
      dsimp only
      split_ifs
      · exact h.move_found hfound hkey _
      · exact h.put_found hfound hkey
    | readyUnitQ => exact h.put_found hfound hkey
    | unitBackoffQ => exact h.put_found hfound hkey

theorem add (pod : Pod) : (q.add env pod).Exclusive :=
  addPodUsingAnnotations (q := q.newInfo (newQueuedPodInfo pod env.now)) h env q.next

theorem update (oldPod : Option Pod) (newPod : Pod) : (q.update env oldPod newPod).Exclusive := by
  rcases q.update_cases env oldPod newPod with
    ⟨pod, queue, unit, ref, -, hfind, heq⟩ | ⟨-, ⟨ref, heq⟩ | heq⟩
  · rw [heq]
    have hfound := (findPod_eq_some.mp hfind).1
    exact updateUnit h hfound
      ((unit.unitKey_addPod ..).trans (unitKey_of_getUnit hfound))
  · rw [heq]
    exact h
  · rw [heq]
    exact h.add env newPod

theorem delete (pod : Pod) : (q.delete pod).Exclusive := by
  unfold PriorityQueue.delete
  cases hfound : q.getUnit (getUnitIdentifier pod) with
  | none => exact h
  | some found =>
    obtain ⟨queue, unit⟩ := found
    cases hpods : unit.pods with
    | singlePod ref =>
      simp only [hpods]
      split_ifs
      · exact h.remove _ _
      · exact h
    | podGroup minMember pods =>
      simp only [hpods]
      split_ifs
      · exact h.remove _ _
      · exact h
      · exact h.updateUnit hfound ((unit.unitKey_withPods ..).trans (unitKey_of_getUnit hfound))

theorem addUnitPreemptor (unit : UnitInfo) : (q.addUnitPreemptor env unit).Exclusive := by
  unfold PriorityQueue.addUnitPreemptor
  extract_lets refs q' unit'
  have h' : q'.Exclusive := h
  cases hfound : q'.getUnit unit'.unitKey with
  | none => exact h'.put_new hfound _
  | some found =>
    obtain ⟨queue, preUnit⟩ := found
    dsimp only
    rw [unitKey_of_getUnit hfound]
    exact h'.move_found hfound (unitKey_mergePods ..) _

theorem moveToReadyQueue (cfg : BackoffConfig) (env : Env) :
    (q.moveToReadyQueue cfg env).Exclusive := by
  unfold PriorityQueue.moveToReadyQueue
  extract_lets byBackoffTime
  have hunits : ∀ unit ∈ byBackoffTime.takeWhile
      (fun unit => decide (cfg.getUnitBackoffTime unit ≤ env.now)),
      ∀ queue, Shelves.Has q.queues queue unit.unitKey →
        queue = .unitBackoffQ ∨ queue = .readyUnitQ := by
    intro unit hunit queue hin
    have hmem := (List.mem_insertionSort _).mp (List.takeWhile_subset _ hunit)
    exact .inl (h _ queue _ hin (Shelves.has_of_mem_list hmem))
  generalize byBackoffTime.takeWhile _ = units at hunits
  induction units generalizing q with
  | nil => exact h
  | cons unit units ih =>
    have hmoved : ((q.remove .unitBackoffQ unit.unitKey).put .readyUnitQ unit).Exclusive :=
      h.drop_put (hunits unit (List.mem_cons_self ..))
    refine ih hmoved fun unit' hunit' queue hin => ?_
    rcases (Shelves.has_put _).mp hin with ⟨hqueue, -⟩ | hin
    · exact .inr hqueue
    · exact hunits unit' (List.mem_cons_of_mem _ hunit') queue ((Shelves.has_drop _).mp hin).2

end Exclusive

/-- After every run of the queue a unit key is in at most one of the waiting, the backoff and the
ready queue. -/
theorem exclusive_run (cfg : BackoffConfig) (status : UnitKey → SchedulingStatus)
    (ops : List Op) : (run (step cfg) (new status) ops).Exclusive := by
  apply run_invariant
  · intro q op h
    cases op with
    | add env pod => exact h.add env pod
    | update env oldPod newPod named => exact h.update env oldPod newPod
    | delete pod => exact h.delete pod
    | pop key =>
      simp only [step, pop]
      cases (q.queues .readyUnitQ).getByKey key with
      | none => exact h
      | some unit => exact h.remove _ _
    | addUnitPreemptor env unit => exact h.addUnitPreemptor env unit
    | activeWaitingUnit key =>
      simp only [step, activeWaitingUnit]
      split
      next unit hfound =>
        split_ifs
        · exact h.move_found hfound (unitKey_of_getUnit hfound) _
        · exact h
      next => exact h
    | moveToReadyQueue env => exact h.moveToReadyQueue cfg env
    | checkWaitingPod env =>
      exact run_invariant (P := Exclusive) (s := { q with waitingPodsList := ∅ })
        (fun q ref h => h.addPodUsingAnnotations env ref) h _
    | setUnitSchedulingStatus key status => exact h
  · exact Shelves.apart_empty

end GodelScheduler.BinderQueue.PriorityQueue
