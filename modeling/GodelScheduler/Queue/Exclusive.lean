import GodelScheduler.Queue.Refinement

/-!
# A unit key in one container

Every call but one looks for the unit of a key where it may be and takes it out
before it puts it back. `addUnschedulableIfNotPresent` looks into the sub-queues
only: when the pod group of a served unit is deleted, a pod of the group that
arrives meanwhile waits for a unit, and the unit handed back is stored beside it.
`livesInOne_iff_handBackClear` says that nothing else can happen.
-/

namespace GodelScheduler.Queue

open Library

namespace PriorityQueue

/-- The number of containers that have the key, among the ready, the backoff and the
unschedulable queue and the waiting pods list. -/
def occurrences (p : PriorityQueue) (k : UnitKey) : ℕ :=
  [((p.queues .readyQ).getByKey k).isSome, ((p.queues .backoffQ).getByKey k).isSome,
    ((p.queues .unschedulableQ).getByKey k).isSome,
    (p.waitingPodsList.getByKey k).isSome].count true

def LivesInOne (p : PriorityQueue) : Prop := ∀ k, p.occurrences k ≤ 1

variable {p : PriorityQueue} {k : UnitKey} {v : PodView}

theorem HoldsAt.occurrences_le (h : p.HoldsAt k v) : p.occurrences k ≤ 1 := by
  obtain ⟨s, hs, -, -⟩ := h
  have hunits : ∀ queue, (p.queues queue).getByKey k = s.contents.units queue :=
    fun queue => congrFun (congrArg Contents.units hs) queue
  have hwaiting : p.waitingPodsList.getByKey k = s.contents.waiting :=
    congrArg Contents.waiting hs
  unfold occurrences
  rw [hunits, hunits, hunits, hwaiting]
  cases s with
  | empty => simp [Slot.contents]
  | unit queue u => cases queue <;> simp [Slot.contents]
  | waiting w => simp [Slot.contents]

theorem Represents.livesInOne {v : UnitKey → PodView} (h : p.Represents v) : p.LivesInOne :=
  fun k => (h k).occurrences_le

theorem represents_new : new.Represents fun _ => .none := by
  intro k
  refine ⟨.empty, ?_, trivial, rfl⟩
  apply contents_eq_empty
  · intro queue
    simp [contents, new]
  · simp [new]

theorem two_le_occurrences_put {queue : QueueName} {u : QueuedUnitInfo} (hq : queue ≠ .waitingQ)
    (hu : u.unitKey = k) (hw : (p.waitingPodsList.getByKey k).isSome) :
    2 ≤ (p.put queue u).occurrences k := by
  subst hu
  have hput : ((p.put queue u).queues queue).getByKey u.unitKey = some u := by simp [put]
  have hw' : ((p.put queue u).waitingPodsList.getByKey u.unitKey).isSome = true := hw
  unfold occurrences
  cases queue with
  | waitingQ => exact absurd rfl hq
  | readyQ | backoffQ | unschedulableQ =>
    simp only [hput, hw', Option.isSome_some, List.count_cons, List.count_nil, beq_self_eq_true,
      if_true]
    omega

/-- A unit handed back is in the backoff or in the unschedulable queue, and the waiting pods are
left alone. -/
theorem two_le_occurrences_addUnschedulable (p : PriorityQueue) (env : Env) {u : QueuedUnitInfo}
    (cycle : ℤ) (hnum : u.scheduleUnit.numPods ≠ 0)
    (hw : (p.waitingPodsList.getByKey u.unitKey).isSome) :
    2 ≤ (p.addUnschedulableIfNotPresent env u cycle).occurrences u.unitKey := by
  have hfound : (p.findAndRemoveUnitFromQueue u.unitKey).2.waitingPodsList =
      p.waitingPodsList := by
    unfold findAndRemoveUnitFromQueue
    split <;> rfl
  rw [← hfound] at hw
  simp only [addUnschedulableIfNotPresent, if_neg hnum]
  rcases hf : p.findAndRemoveUnitFromQueue u.unitKey with ⟨_ | ⟨queue, inQueue⟩, p'⟩ <;>
    rw [hf] at hw <;> simp only <;> split_ifs
  · exact two_le_occurrences_put (by decide) rfl hw
  · exact two_le_occurrences_put (by decide) rfl hw
  · exact two_le_occurrences_put (by decide) rfl hw
  · exact two_le_occurrences_put (by decide) rfl hw

theorem livesInOne_iff_handBackClear (b : BackoffHandler) (ops : List Op) :
    Always (step b) LivesInOne new ops ↔ Along (step b) HandBackClear new ops := by
  apply always_iff_along (I := fun p => ∃ v, p.Represents v)
  · rintro p ⟨v, hp⟩
    exact hp.livesInOne
  · rintro p op ⟨v, hp⟩ - hclear
    exact ⟨_, represents_step b hp op hclear⟩
  · rintro p op - - hone
    cases op with
    | addUnschedulableIfNotPresent env u cycle =>
      by_contra hnot
      obtain ⟨hnum, hw⟩ := not_or.mp hnot
      have htwo := two_le_occurrences_addUnschedulable p env cycle hnum
        (Option.isSome_iff_ne_none.mpr hw)
      have hle : (p.addUnschedulableIfNotPresent env u cycle).occurrences u.unitKey ≤ 1 :=
        hone u.unitKey
      omega
    | _ => trivial
  · exact ⟨_, represents_new⟩
  · exact along_true _ _

def envAt (now : ℤ) (pgs : List PodGroup) : Env where
  now := now
  listers := .ofPodGroups pgs
  getUnitSchedulingStatus _ := .pendingStatus
  podOrder := .forward
  unitOrder := .forward

def group : PodGroup := { ns := "default", name := "g", minMember := 1 }

def groupKey : UnitKey := .podGroupUnit "default" "g"

def groupPod (uid : String) : Pod :=
  { uid := uid, ns := "default", name := uid, podGroupName := some "g" }

def tenSeconds : BackoffHandler := ⟨10 * 1000000000, 10 * 1000000000⟩

/-- The unit of the group is served, its pod group is deleted, another pod of the group arrives,
and the unit is handed back. -/
theorem handBack_beside_waiting_pod :
    ∃ u, ((run (step tenSeconds) new [.add (envAt 0 [group]) (groupPod "a")]).pop groupKey).map
        Prod.fst = some u ∧
      (run (step tenSeconds) new
        [.add (envAt 0 [group]) (groupPod "a"), .pop groupKey, .add (envAt 1 []) (groupPod "b"),
          .addUnschedulableIfNotPresent (envAt 2 []) u 1]).occurrences groupKey = 2 :=
  ⟨_, rfl, by decide⟩

end PriorityQueue

end GodelScheduler.Queue
