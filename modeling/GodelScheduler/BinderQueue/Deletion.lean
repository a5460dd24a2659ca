import GodelScheduler.BinderQueue.PriorityQueue

/-!
# Deleting a pod from the binder queue

A delete looks for the unit of the pod. If there is one, the waiting pods list
is left alone; but a pod can wait in the list while another pod of its group has
a unit, because the pod group appeared in between. Such a pod survives its
delete and comes back with the next `checkWaitingPod`. It also survives in a
unit of another key, after a change of its group, and in an entry it shares with
its former UID. `gone_delete_iff` says from which states the pod goes for good.
-/

namespace GodelScheduler.BinderQueue

open Library Queue UnitPods GoMap

/-- The unit holds a pod with the UID, or has an entry for the UID. -/
def UnitPods.Holds (infos : Infos) (uid : String) : UnitPods → Prop
  | podGroup _ pods =>
    ∃ uid' ref, pods.lookup uid' = some ref ∧ (uid' = uid ∨ (infos ref).uid = uid)
  | singlePod ref => (infos ref).uid = uid

namespace PriorityQueue

/-- Nothing of the pod is left in the queue. -/
structure Gone (uid : String) (q : PriorityQueue) : Prop where
  units : ∀ queue key unit, (q.queues queue).getByKey key = some unit →
    ¬ unit.pods.Holds q.infos uid
  waiting : ∀ uid' ref, q.waitingPodsList.lookup uid' = some ref →
    uid' ≠ uid ∧ (q.infos ref).uid ≠ uid

/-- The call does not bring a pod with the UID. -/
def NotAbout (uid : String) (q : PriorityQueue) : Op → Prop
  | .add _ pod => pod.uid ≠ uid
  | .update _ _ newPod _ => newPod.uid ≠ uid
  | .addUnitPreemptor _ unit => ¬ unit.pods.Holds q.infos uid
  | _ => True

/-- The pod is at most in the unit that its key finds, there only under its own UID, and in the
waiting pods list only without that unit, under its own UID too. -/
structure OnlyUnderItsKey (q : PriorityQueue) (pod : Pod) : Prop where
  others : ∀ queue key unit, (q.queues queue).getByKey key = some unit →
    q.getUnit (getUnitIdentifier pod) ≠ some (queue, unit) → ¬ unit.pods.Holds q.infos pod.uid
  found : ∀ queue unit minMember pods,
    q.getUnit (getUnitIdentifier pod) = some (queue, unit) →
      unit.pods = .podGroup minMember pods → ∀ uid ref, pods.lookup uid = some ref →
        uid ≠ pod.uid → (q.infos ref).uid ≠ pod.uid
  waiting : ∀ uid ref, q.waitingPodsList.lookup uid = some ref →
    uid = pod.uid ∧ q.getUnit (getUnitIdentifier pod) = none ∨
      uid ≠ pod.uid ∧ (q.infos ref).uid ≠ pod.uid

end PriorityQueue

namespace UnitPods

variable {infos infos' : Infos} {uid : String} {pods : UnitPods} {ref : InfoRef}

/-- Infos of other pods do not make a unit hold the pod. -/
theorem Holds.of_infos (hinfos : ∀ ref, (infos' ref).uid = uid → (infos ref).uid = uid)
    (h : pods.Holds infos' uid) : pods.Holds infos uid := by
  cases pods with
  | singlePod ref => exact hinfos ref h
  | podGroup minMember pods =>
    obtain ⟨uid', ref, hlookup, huid⟩ := h
    exact ⟨uid', ref, hlookup, huid.imp_right (hinfos ref)⟩

theorem not_holds_addPod (h : ¬ pods.Holds infos uid) (href : (infos ref).uid ≠ uid) :
    ¬ (pods.addPod infos ref).Holds infos uid := by
  cases pods with
  | singlePod _ => exact href
  | podGroup minMember pods =>
    rintro ⟨uid', ref', hlookup, huid⟩
    rw [lookup_insert'] at hlookup
    split_ifs at hlookup with heq
    · cases hlookup
      subst heq
      exact huid.elim href href
    · exact h ⟨uid', ref', hlookup, huid⟩

theorem not_holds_getPods (h : ¬ pods.Holds infos uid) {o : RangeOrder String}
    (href : ref ∈ pods.getPods o) : (infos ref).uid ≠ uid := by
  cases pods with
  | singlePod ref' =>
    rw [getPods, List.mem_singleton] at href
    subst href
    exact h
  | podGroup minMember pods =>
    rw [getPods, List.mem_filterMap] at href
    obtain ⟨uid', -, hlookup⟩ := href
    exact fun huid => h ⟨uid', ref, hlookup, .inr huid⟩

end UnitPods

variable {infos : Infos}

theorem not_holds_createScheduleUnit {listers : Listers} {ref : InfoRef} {pods : UnitPods}
    {uid : String} (h : createScheduleUnit listers infos ref = .ok pods)
    (href : (infos ref).uid ≠ uid) : ¬ pods.Holds infos uid := by
  have hempty (minMember : ℤ) : ¬ (UnitPods.podGroup minMember ∅).Holds infos uid := by
    rintro ⟨uid', ref', hlookup, -⟩
    simp at hlookup
  unfold createScheduleUnit at h
  dsimp only at h
  split_ifs at h
  · split at h
    · cases h
    · split_ifs at h
      · cases h
        exact not_holds_addPod (hempty _) href
      · split at h <;> cases h
        exact not_holds_addPod (hempty _) href
  · cases h
    exact href

namespace PriorityQueue

variable {q q' : PriorityQueue} {uid : String} {env : Env} {ref : InfoRef} {unit : UnitInfo}

variable {pod : Pod} {queue : QueueName}

namespace Gone

variable (h : q.Gone uid)
include h

theorem with_infos (next : InfoRef)
    (hinfos : ∀ ref, (infos ref).uid = uid → (q.infos ref).uid = uid) :
    ({ q with infos := infos, next := next } : PriorityQueue).Gone uid where
  units queue key unit hunit hholds := h.units queue key unit hunit (hholds.of_infos hinfos)
  waiting uid' ref hlookup :=
    have hwaits := h.waiting uid' ref hlookup
    ⟨hwaits.1, fun huid => hwaits.2 (hinfos ref huid)⟩

theorem put (queue : QueueName) (hunit : ¬ unit.pods.Holds q.infos uid) :
    (q.put queue unit).Gone uid where
  units := Shelves.forall_iff.mp ((Shelves.forall_iff.mpr h.units).put queue hunit)
  waiting := h.waiting

theorem remove (queue : QueueName) (key : UnitKey) : (q.remove queue key).Gone uid where
  units := Shelves.forall_iff.mp ((Shelves.forall_iff.mpr h.units).drop queue key)
  waiting := h.waiting

theorem with_info {info : QueuedPodInfo} (hinfo : info.uid ≠ uid) (ref next : InfoRef) :
    ({ q with infos := Function.update q.infos ref info, next := next } : PriorityQueue).Gone
      uid := by
  refine h.with_infos _ fun ref' huid => ?_
  rw [Function.update_apply] at huid
  split_ifs at huid with heq
  · exact absurd huid hinfo
  · exact huid

theorem setPod (ref : InfoRef) (hpod : pod.uid ≠ uid) : (q.setPod ref pod).Gone uid :=
  have hinfo : ({ q.infos ref with pod := pod } : QueuedPodInfo).uid ≠ uid := hpod
  h.with_info hinfo ref q.next

theorem found {key : UnitKey} (hfound : q.getUnit key = some (queue, unit)) :
    ¬ unit.pods.Holds q.infos uid :=
  h.units queue key unit (getByKey_of_getUnit hfound)

theorem added (href : (q.infos ref).uid ≠ uid) (hadded : Added env q ref q') : q'.Gone uid := by
  cases hadded with
  | waits =>
    refine ⟨h.units, fun uid' ref' hlookup => ?_⟩
    rw [addToPodWaitList, lookup_insert'] at hlookup
    split_ifs at hlookup with heq
    · cases hlookup
      subst heq
      exact ⟨href, href⟩
    · exact h.waiting uid' ref' hlookup
  | created unit hkey hcreated =>
    have hunit := not_holds_createScheduleUnit hcreated href
    split_ifs
    · exact h.put _ hunit
    · exact h.put _ hunit
  | activated unit hfound hready =>
    exact (h.remove _ _).put _ (not_holds_addPod (h.found hfound) href)
  | joined queue unit hfound =>
    exact h.put _ (not_holds_addPod (h.found hfound) href)

theorem updateUnit (queue : QueueName) (hunit : ¬ unit.pods.Holds q.infos uid) :
    (q.updateUnit queue unit).Gone uid := by
  unfold PriorityQueue.updateUnit
  split_ifs
  · exact (h.remove _ _).put _ hunit
  · exact h.put _ hunit
  · exact h.put _ hunit

theorem add (env : Env) (hpod : pod.uid ≠ uid) : (q.add env pod).Gone uid := by
  have hnew : (q.newInfo (newQueuedPodInfo pod env.now)).Gone uid := h.with_info hpod _ _
  refine hnew.added ?_ (added_addPodUsingAnnotations env _ _)
  rw [infos_newInfo_next]
  exact hpod

theorem update (env : Env) {oldPod : Option Pod} {newPod : Pod} (hpod : newPod.uid ≠ uid) :
    (q.update env oldPod newPod).Gone uid := by
  rcases q.update_cases env oldPod newPod with
    ⟨pod, queue, unit, ref, rfl, hfind, heq⟩ | ⟨-, ⟨ref, heq⟩ | heq⟩
  · have hset := h.setPod ref hpod
    have hunit : ¬ unit.pods.Holds (q.setPod ref newPod).infos uid :=
      hset.found (findPod_eq_some.mp hfind).1
    rw [heq]
    refine hset.updateUnit queue (not_holds_addPod hunit ?_)
    rw [QueuedPodInfo.uid, pod_setPod]
    exact hpod
  · rw [heq]
    exact h.setPod ref hpod
  · rw [heq]
    exact h.add env hpod

theorem delete (pod : Pod) : (q.delete pod).Gone uid := by
  unfold PriorityQueue.delete
  cases hfound : q.getUnit (getUnitIdentifier pod) with
  | none =>
    refine ⟨h.units, fun uid' ref hlookup => ?_⟩
    rw [lookup_erase'] at hlookup
    split_ifs at hlookup
    exact h.waiting uid' ref hlookup
  | some found =>
    obtain ⟨queue, unit⟩ := found
    have hunit := h.found hfound
    dsimp only
    cases hpods : unit.pods with
    | singlePod ref =>
      dsimp only
      split_ifs
      · exact h.remove _ _
      · exact h
    | podGroup minMember pods =>
      dsimp only
      split_ifs
      · exact h.remove _ _
      · exact h
      · apply h.updateUnit
        rintro ⟨uid', ref, hlookup, huid⟩
        rw [lookup_erase'] at hlookup
        split_ifs at hlookup
        rw [hpods] at hunit
        exact hunit ⟨uid', ref, hlookup, huid⟩

theorem moveToReadyQueue (cfg : BackoffConfig) (env : Env) :
    (q.moveToReadyQueue cfg env).Gone uid := by
  refine (List.foldlRecOn (motive := fun q' : PriorityQueue => q'.infos = q.infos ∧ q'.Gone uid)
    _ _ ⟨rfl, h⟩ ?_).2
  intro q' hq' unit hunit
  have hmem := List.takeWhile_subset _ hunit
  rw [List.mem_insertionSort, KeyedStore.mem_list_iff] at hmem
  refine ⟨hq'.1, (hq'.2.remove _ _).put _ ?_⟩
  change ¬ unit.pods.Holds q'.infos uid
  rw [hq'.1]
  exact h.units _ _ unit hmem

omit h

theorem checkWaitingPod (h : q.Gone uid) (env : Env) : (q.checkWaitingPod env).Gone uid := by
  refine (List.foldlRecOn (motive := fun q' : PriorityQueue => q'.infos = q.infos ∧ q'.Gone uid)
    (b := { q with waitingPodsList := ∅ }) _ _ ⟨rfl, h.units, fun uid' ref hlookup => ?_⟩ ?_).2
  swap
  · intro q' hq' ref href
    obtain ⟨uid', -, hlookup⟩ := List.mem_filterMap.mp href
    have hstep := added_addPodUsingAnnotations env q' ref
    refine ⟨hstep.kept.1.trans hq'.1, hq'.2.added ?_ hstep⟩
    rw [hq'.1]
    exact (h.waiting uid' ref hlookup).2
  · simp at hlookup

theorem mergePods {refs : List InfoRef} (hrefs : ∀ ref ∈ refs, (infos ref).uid ≠ uid)
    {unit : UnitInfo} (hunit : ¬ unit.pods.Holds infos uid) :
    ¬ (refs.foldl (mergePod infos) unit).pods.Holds infos uid := by
  refine List.foldlRecOn (motive := fun u : UnitInfo => ¬ u.pods.Holds infos uid) refs _ hunit ?_
  intro unit hunit ref href
  unfold mergePod
  split_ifs
  · exact not_holds_addPod hunit (hrefs ref href)
  · exact hunit

theorem addUnitPreemptor (h : q.Gone uid) (env : Env) (hunit : ¬ unit.pods.Holds q.infos uid) :
    (q.addUnitPreemptor env unit).Gone uid := by
  have huid (refs : List InfoRef) (ref : InfoRef) :
      (if ref ∈ refs then { q.infos ref with timestamp := env.now } else q.infos ref).uid =
        (q.infos ref).uid := by
    split_ifs <;> rfl
  have hstamped := h.with_infos q.next
    fun ref href => (huid (unit.pods.getPods env.order) ref).symm.trans href
  have hunit' := fun hholds => hunit (UnitPods.Holds.of_infos
    (fun ref href => (huid (unit.pods.getPods env.order) ref).symm.trans href) hholds)
  unfold PriorityQueue.addUnitPreemptor
  dsimp only
  split
  next queue preUnit hfound =>
    have hpre := hstamped.found hfound
    refine (hstamped.remove _ _).put _ (mergePods (fun ref href => ?_) hunit')
    exact not_holds_getPods hpre href
  next => exact hstamped.put _ hunit'

end Gone

theorem gone_step {cfg : BackoffConfig} {op : Op} (h : q.Gone uid) (hop : q.NotAbout uid op) :
    (q.step cfg op).Gone uid := by
  cases op with
  | add env pod => exact h.add env hop
  | update env oldPod newPod named => exact h.update env hop
  | delete pod => exact h.delete pod
  | pop key =>
    simp only [step, pop]
    cases (q.queues .readyUnitQ).getByKey key with
    | none => exact h
    | some unit => exact h.remove _ _
  | addUnitPreemptor env unit => exact h.addUnitPreemptor env hop
  | activeWaitingUnit key =>
    simp only [step, activeWaitingUnit]
    split
    next unit hfound =>
      split_ifs
      · exact (h.remove _ _).put _ (h.found hfound)
      · exact h
    next => exact h
  | moveToReadyQueue env => exact h.moveToReadyQueue cfg env
  | checkWaitingPod env => exact h.checkWaitingPod env
  | setUnitSchedulingStatus key status => exact ⟨h.units, h.waiting⟩

/-- What a delete leaves of the unit it finds. -/
def remaining (infos : Infos) (uid : String) (unit : UnitInfo) : Option UnitInfo :=
  match unit.pods with
  | .singlePod ref => if (infos ref).uid = uid then none else some unit
  | .podGroup minMember pods =>
    if pods.len = 1 then if (pods.lookup uid).isSome then none else some unit
    else some (unit.withPods minMember (pods.erase uid))

/-- What is left holds the pod exactly if an entry for another UID does. -/
theorem not_holds_remaining_iff :
    (∀ left, remaining infos uid unit = some left → ¬ left.pods.Holds infos uid) ↔
      ∀ minMember pods, unit.pods = .podGroup minMember pods →
        ∀ uid' ref, pods.lookup uid' = some ref → uid' ≠ uid → (infos ref).uid ≠ uid := by
  unfold remaining
  cases hpods : unit.pods with
  | singlePod ref =>
    simp only [reduceCtorEq, false_implies, implies_true, iff_true]
    intro left hleft
    split_ifs at hleft with huid
    cases hleft
    rw [hpods]
    exact huid
  | podGroup minMember pods =>
    simp only [podGroup.injEq, and_imp, forall_eq', forall_apply_eq_imp_iff]
    split_ifs with hlen hmem
    · -- The only entry is the one of the UID.
      simp only [false_implies, implies_true, true_iff]
      intro uid' ref hlookup hne
      obtain ⟨ref', href'⟩ := Option.isSome_iff_exists.mp hmem
      exact absurd (eq_of_len_eq_one hlen hlookup href') hne
    · simp only [Option.some.injEq, forall_eq']
      rw [hpods]
      constructor
      · intro h uid' ref hlookup _ huid
        exact h ⟨uid', ref, hlookup, .inr huid⟩
      · rintro h ⟨uid', ref, hlookup, huid⟩
        have hne : uid' ≠ uid := by
          rintro rfl
          simp [hlookup] at hmem
        exact huid.elim hne (h uid' ref hlookup hne)
    · simp only [Option.some.injEq, forall_eq']
      constructor
      · intro h uid' ref hlookup hne huid
        refine h ⟨uid', ref, ?_, .inr huid⟩
        rw [lookup_erase', if_neg hne]
        exact hlookup
      · rintro h ⟨uid', ref, hlookup, huid⟩
        rw [lookup_erase'] at hlookup
        split_ifs at hlookup with hne
        exact huid.elim hne (h uid' ref hlookup hne)

section

variable {pod : Pod} {queue queue' : QueueName} {key : UnitKey} {unit' : UnitInfo}

/-- The unit is dropped, left as it is, or stored again without the pod. -/
theorem delete_cases (hfound : q.getUnit (getUnitIdentifier pod) = some (queue, unit)) :
    remaining q.infos pod.uid unit = none ∧ q.delete pod = q.remove queue unit.unitKey ∨
    ∃ left, remaining q.infos pod.uid unit = some left ∧ left.unitKey = unit.unitKey ∧
      (left = unit ∧ q.delete pod = q ∨ q.delete pod = q.updateUnit queue left) := by
  unfold delete remaining
  rw [hfound]
  dsimp only
  cases unit.pods with
  | singlePod ref =>
    dsimp only
    split_ifs
    · exact .inl ⟨rfl, rfl⟩
    · exact .inr ⟨unit, rfl, rfl, .inl ⟨rfl, rfl⟩⟩
  | podGroup minMember pods =>
    dsimp only
    split_ifs
    · exact .inl ⟨rfl, rfl⟩
    · exact .inr ⟨unit, rfl, rfl, .inl ⟨rfl, rfl⟩⟩
    · exact .inr ⟨_, rfl, rfl, .inr rfl⟩

/-- The unit is in one queue afterwards: where it was, or in the waiting queue, where its key was
free. -/
theorem getByKey_updateUnit (hfound : q.getUnit key = some (queue, unit)) {left : UnitInfo}
    (hkey : left.unitKey = unit.unitKey) :
    ∃ dst, (dst = queue ∨ (q.queues dst).getByKey key = none) ∧
      ((q.updateUnit queue left).queues dst).getByKey key = some left ∧
      ∀ queue' key', (queue', key') ≠ (dst, key) →
        ((q.updateUnit queue left).queues queue').getByKey key' =
          if (queue', key') = (queue, key) then none else (q.queues queue').getByKey key' := by
  have hunit : left.unitKey = key := hkey.trans (unitKey_of_getUnit hfound)
  have hput : ((q.put queue left).queues queue).getByKey key = some left ∧
      ∀ queue' key', (queue', key') ≠ (queue, key) →
        ((q.put queue left).queues queue').getByKey key' =
          if (queue', key') = (queue, key) then none else (q.queues queue').getByKey key' := by
    refine ⟨by simp [getByKey_put, hunit], fun queue' key' hne => ?_⟩
    rw [getByKey_put, hunit, if_neg fun heq => hne (Prod.ext heq.1 heq.2), if_neg hne]
  unfold updateUnit
  split_ifs with hqueue hmoves
  · subst hqueue
    refine ⟨.waitingUnitQ, .inr (waiting_of_getUnit hfound (by simp)),
      by simp [getByKey_put, hunit], fun queue' key' hne => ?_⟩
    rw [getByKey_put, hunit, if_neg fun heq => hne (Prod.ext heq.1 heq.2), getByKey_remove]
    simp only [Prod.mk.injEq]
  · subst hqueue
    exact ⟨.readyUnitQ, .inl rfl, hput⟩
  · exact ⟨queue, .inl rfl, hput⟩

/-- A delete keeps the other units and what remains of the one it finds, and nothing else. -/
theorem units_delete (hfound : q.getUnit (getUnitIdentifier pod) = some (queue, unit)) :
    (∀ queue' key' unit', (q.queues queue').getByKey key' = some unit' →
      (queue', unit') ≠ (queue, unit) →
        ((q.delete pod).queues queue').getByKey key' = some unit') ∧
    (∀ left, remaining q.infos pod.uid unit = some left →
      ∃ dst key, ((q.delete pod).queues dst).getByKey key = some left) ∧
    (∀ queue' key' unit', ((q.delete pod).queues queue').getByKey key' = some unit' →
      (q.queues queue').getByKey key' = some unit' ∧ (queue', unit') ≠ (queue, unit) ∨
        remaining q.infos pod.uid unit = some unit') := by
  have hunit := getByKey_of_getUnit hfound
  have hunitKey := unitKey_of_getUnit hfound
  have hother {queue' key' unit'} (hget : (q.queues queue').getByKey key' = some unit') :
      (queue', key') ≠ (queue, getUnitIdentifier pod) ↔ (queue', unit') ≠ (queue, unit) := by
    rw [not_iff_not, Prod.mk.injEq, Prod.mk.injEq]
    constructor
    · rintro ⟨rfl, rfl⟩
      exact ⟨rfl, Option.some.inj (hget.symm.trans hunit)⟩
    · rintro ⟨rfl, rfl⟩
      exact ⟨rfl, (KeyedStore.key_of_getByKey hget).symm.trans hunitKey⟩
  rcases delete_cases hfound with ⟨hnone, heq⟩ | ⟨left, hleft, hkey, ⟨rfl, heq⟩ | heq⟩
  · rw [hnone, heq, hunitKey]
    refine ⟨fun queue' key' unit' hget hne => ?_, by simp, fun queue' key' unit' hget => ?_⟩
    · rw [getByKey_remove, if_neg fun h => (hother hget).mpr hne (Prod.ext h.1 h.2)]
      exact hget
    · rw [getByKey_remove] at hget
      split_ifs at hget with h
      exact .inl ⟨hget, (hother hget).mp fun heq => h (Prod.mk.inj heq)⟩
  · rw [hleft, heq]
    refine ⟨fun _ _ _ hget _ => hget, fun left hleft => ?_, fun queue' key' unit' hget => ?_⟩
    · cases hleft
      exact ⟨queue, _, hunit⟩
    · by_cases hsame : (queue', unit') = (queue, left)
      · cases hsame
        exact .inr rfl
      · exact .inl ⟨hget, hsame⟩
  · rw [hleft, heq]
    obtain ⟨dst, hfree, hdst, hrest⟩ := getByKey_updateUnit hfound hkey
    refine ⟨fun queue' key' unit' hget hne => ?_, fun left hleft => ?_,
      fun queue' key' unit' hget => ?_⟩
    · have hne' := (hother hget).mpr hne
      rw [hrest queue' key', if_neg hne']
      · exact hget
      · intro hsame
        obtain ⟨rfl, rfl⟩ := Prod.mk.inj hsame
        rcases hfree with rfl | hfree
        · exact hne' rfl
        · rw [hfree] at hget
          cases hget
    · cases hleft
      exact ⟨dst, _, hdst⟩
    · by_cases hsame : (queue', key') = (dst, getUnitIdentifier pod)
      · obtain ⟨rfl, rfl⟩ := Prod.mk.inj hsame
        exact .inr (hdst.symm.trans hget)
      · rw [hrest queue' key' hsame] at hget
        split_ifs at hget with hne
        exact .inl ⟨hget, (hother hget).mp hne⟩

end

theorem gone_delete_of_getUnit_eq_none (hfound : q.getUnit (getUnitIdentifier pod) = none) :
    (q.delete pod).Gone pod.uid ↔ q.OnlyUnderItsKey pod := by
  have heq : q.delete pod = { q with waitingPodsList := q.waitingPodsList.erase pod.uid } := by
    rw [delete, hfound]
  rw [heq]
  constructor
  · intro h
    refine ⟨fun queue key unit hunit _ => h.units queue key unit hunit, ?_, ?_⟩
    · intro queue unit minMember pods hsome
      rw [hfound] at hsome
      cases hsome
    · intro uid ref hlookup
      by_cases huid : uid = pod.uid
      · exact .inl ⟨huid, hfound⟩
      · refine .inr (h.waiting uid ref ?_)
        rw [lookup_erase', if_neg huid]
        exact hlookup
  · intro h
    refine ⟨fun queue key unit hunit => h.others queue key unit hunit ?_, ?_⟩
    · rw [hfound]
      exact (Option.some_ne_none _).symm
    · intro uid ref hlookup
      rw [lookup_erase'] at hlookup
      split_ifs at hlookup with huid
      exact (h.waiting uid ref hlookup).resolve_left fun hsame => huid hsame.1

theorem waitingPodsList_delete (hfound : q.getUnit (getUnitIdentifier pod) = some (queue, unit)) :
    (q.delete pod).waitingPodsList = q.waitingPodsList ∧ (q.delete pod).infos = q.infos := by
  rcases delete_cases hfound with ⟨-, heq⟩ | ⟨left, -, -, ⟨-, heq⟩ | heq⟩
  · rw [heq]
    exact ⟨rfl, rfl⟩
  · rw [heq]
    exact ⟨rfl, rfl⟩
  · rw [heq, updateUnit]
    split_ifs <;> exact ⟨rfl, rfl⟩

theorem gone_delete_of_getUnit_eq_some
    (hfound : q.getUnit (getUnitIdentifier pod) = some (queue, unit)) :
    (q.delete pod).Gone pod.uid ↔ q.OnlyUnderItsKey pod := by
  obtain ⟨hstays, hleft, hcases⟩ := units_delete hfound
  obtain ⟨hlist, hinfos⟩ := waitingPodsList_delete hfound
  constructor
  · intro h
    refine ⟨fun queue' key unit' hunit' hne => ?_, ?_, ?_⟩
    · rw [← hinfos]
      refine h.units queue' key unit' (hstays queue' key unit' hunit' fun hsame => hne ?_)
      rw [hfound, hsame]
    · intro queue' unit' minMember pods hsome hpods
      rw [hfound] at hsome
      cases hsome
      refine not_holds_remaining_iff.mp (fun left hsome => ?_) minMember pods hpods
      obtain ⟨dst, key, hget⟩ := hleft left hsome
      rw [← hinfos]
      exact h.units dst key left hget
    · intro uid ref hlookup
      rw [← hinfos]
      rw [← hlist] at hlookup
      exact .inr (h.waiting uid ref hlookup)
  · intro h
    refine ⟨fun queue' key unit' hunit' => ?_, fun uid ref hlookup => ?_⟩
    · rw [hinfos]
      rcases hcases queue' key unit' hunit' with ⟨hget, hne⟩ | hsome
      · refine h.others queue' key unit' hget fun hsame => hne ?_
        rw [hfound] at hsame
        exact (Option.some.inj hsame).symm
      · exact not_holds_remaining_iff.mpr (fun minMember pods => h.found queue unit minMember pods
          hfound) unit' hsome
    · rw [hlist] at hlookup
      rw [hinfos]
      refine (h.waiting uid ref hlookup).resolve_left fun hnone => ?_
      rw [hfound] at hnone
      cases hnone.2

/-- After the delete nothing is left of the pod, then or later, until a call brings it again,
exactly if it was only where the delete looks for it. -/
theorem gone_delete_iff (cfg : BackoffConfig) (q : PriorityQueue) (pod : Pod) :
    (∀ ops, Along (step cfg) (NotAbout pod.uid) (q.delete pod) ops →
      Always (step cfg) (Gone pod.uid) (q.delete pod) ops) ↔ q.OnlyUnderItsKey pod := by
  have hdelete : (q.delete pod).Gone pod.uid ↔ q.OnlyUnderItsKey pod := by
    cases hfound : q.getUnit (getUnitIdentifier pod) with
    | none => exact gone_delete_of_getUnit_eq_none hfound
    | some found => exact gone_delete_of_getUnit_eq_some hfound
  rw [← hdelete]
  constructor
  · intro h
    exact h [] trivial
  · intro h ops hops
    exact always_of_step (fun q op hq hop => gone_step hq hop) h hops

section

def groupPod (uid : String) : Pod :=
  { uid := uid, ns := "default", name := uid, podGroupName := some "group" }

def podGroupEnv (known : Bool) : Env where
  now := 0
  listers := .ofPodGroups
    (if known then [{ ns := "default", name := "group", minMember := 1 }] else [])
  order := .forward

/-- A pod that came before its pod group survives its delete, since a later pod of the group has
the unit by then, and enters this unit afterwards. -/
theorem waiting_pod_survives_delete :
    let q := run (step ⟨1, 10⟩) (new fun _ => .pendingStatus)
      [.add (podGroupEnv false) (groupPod "early"), .add (podGroupEnv true) (groupPod "late")]
    ¬ (q.delete (groupPod "early")).Gone "early" ∧
      ¬ (run (step ⟨1, 10⟩) (q.delete (groupPod "early"))
        [.checkWaitingPod (podGroupEnv true)]).Gone "early" := by
  constructor
  · intro h
    exact (h.waiting "early" 0 (by decide)).1 rfl
  · intro h
    exact h.units .readyUnitQ (.podGroupUnit "default" "group")
      ⟨.podGroupUnit "default" "group", .podGroup 1 ((AList.singleton "late" 1).insert "early" 0),
        0, 0⟩ (by decide) ⟨"early", 0, by decide, .inl rfl⟩

end

end PriorityQueue

end GodelScheduler.BinderQueue
