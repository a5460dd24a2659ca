import GodelScheduler.Queue.Exclusive
import GodelScheduler.Library.Placement

/-!
# The pending pods

`pendingPods` lists the pods of all containers. In a queue with one slot per key
it is the list of the pods of the slots: `mem_pendingPods_iff` and
`count_pendingPods_eq_one_iff` read membership and multiplicity off the slots.
Moving units keeps the pods of every key, and a unit is served with all of its pods.
-/

namespace GodelScheduler.Queue

open Library KeyedStore List

namespace PriorityQueue

/-- The containers: `none` is the waiting pods list. -/
def containers : List (Option QueueName) :=
  [none, some .waitingQ, some .readyQ, some .backoffQ, some .unschedulableQ]

/-- The keys of a container with the pods stored under them. -/
def stored (p : PriorityQueue) : Option QueueName → List (UnitKey × List Pod)
  | none => p.waitingPodsList.list.map fun w => (w.unitKey, w.pods.list.map QueuedPodInfo.pod)
  | some queue => (p.queues queue).list.map fun u =>
    (u.unitKey, u.scheduleUnit.getPods.map QueuedPodInfo.pod)

/-- The pods under a key in all containers. -/
def podsUnder (p : PriorityQueue) (k : UnitKey) : List Pod :=
  ((containers.flatMap p.stored).filter fun e => e.1 = k).flatMap Prod.snd

theorem pendingPods_eq (p : PriorityQueue) :
    p.pendingPods = (containers.flatMap p.stored).flatMap Prod.snd := by
  simp [pendingPods, containers, stored, flatMap_map]

variable {p : PriorityQueue} {k : UnitKey} {v : UnitKey → PodView}

variable {c : Option QueueName} {e : UnitKey × List Pod}

theorem Represents.slot_of_stored (hp : p.Represents v) (he : e ∈ p.stored c) :
    (∃ queue u, c = some queue ∧ p.contents e.1 = (Slot.unit queue u).contents ∧
        e.2 = u.scheduleUnit.getPods.map QueuedPodInfo.pod ∧ unitView u = v e.1) ∨
      (∃ w, c = none ∧ p.contents e.1 = (Slot.waiting w).contents ∧
        e.2 = w.pods.list.map QueuedPodInfo.pod ∧ w.view = v e.1) := by
  cases c with
  | none =>
    obtain ⟨w, hw, rfl⟩ := mem_map.mp he
    obtain ⟨hs, -, hview⟩ := (hp w.unitKey).slot_of_waiting (mem_list_iff.mp hw)
    exact Or.inr ⟨w, rfl, hs, rfl, hview⟩
  | some queue =>
    obtain ⟨u, hu, rfl⟩ := mem_map.mp he
    obtain ⟨hs, hview⟩ := (hp u.unitKey).slot_of_unit (mem_list_iff.mp hu)
    exact Or.inl ⟨queue, u, rfl, hs, rfl, hview⟩

theorem podView_eq_some_iff {find : String → Option QueuedPodInfo} {l : List QueuedPodInfo}
    (hfind : ∀ info, info ∈ l ↔ find info.uid = some info)
    (huid : ∀ uid info, find uid = some info → info.uid = uid) (uid : String) (pod : Pod) :
    podView find uid = some pod ↔ pod ∈ l.map QueuedPodInfo.pod ∧ pod.uid = uid := by
  constructor
  · intro h
    obtain ⟨info, hinfo, rfl⟩ := Option.map_eq_some_iff.mp h
    have hinfoUid := huid uid info hinfo
    refine ⟨mem_map_of_mem ?_, hinfoUid⟩
    rw [hfind, hinfoUid]
    exact hinfo
  · rintro ⟨hmem, rfl⟩
    obtain ⟨info, hinfo, rfl⟩ := mem_map.mp hmem
    exact Option.map_eq_some_iff.mpr ⟨info, (hfind info).mp hinfo, rfl⟩

theorem unitView_eq_some_iff (u : QueuedUnitInfo) (uid : String) (pod : Pod) :
    unitView u uid = some pod ↔
      pod ∈ u.scheduleUnit.getPods.map QueuedPodInfo.pod ∧ pod.uid = uid :=
  podView_eq_some_iff (fun _ => ScheduleUnit.mem_getPods_iff)
    (fun _ _ => ScheduleUnit.getPod_eq_some_uid) uid pod

theorem waitingView_eq_some_iff (w : WaitingPods) (uid : String) (pod : Pod) :
    w.view uid = some pod ↔ pod ∈ w.pods.list.map QueuedPodInfo.pod ∧ pod.uid = uid :=
  podView_eq_some_iff (fun _ => mem_list_iff)
    (fun _ _ => key_of_getByKey) uid pod

section

variable (hp : p.Represents v)

include hp

theorem Represents.mem_stored_iff (he : e ∈ p.stored c) (uid : String) (pod : Pod) :
    v e.1 uid = some pod ↔ pod ∈ e.2 ∧ pod.uid = uid := by
  rcases hp.slot_of_stored he with ⟨queue, u, -, -, hpods, hview⟩ | ⟨w, -, -, hpods, hview⟩
  · rw [← hview, hpods]
    exact unitView_eq_some_iff u uid pod
  · rw [← hview, hpods]
    exact waitingView_eq_some_iff w uid pod

theorem Represents.exists_stored {uid : String} {pod : Pod}
    (h : v k uid = some pod) : ∃ c ∈ containers, ∃ e ∈ p.stored c, e.1 = k := by
  rcases (hp k).cases with ⟨queue, u, hs, hu, -⟩ | hnone
  · refine ⟨some queue, by cases queue <;> simp [containers], _,
      mem_map_of_mem (mem_list_of_getByKey (getByKey_of_slot hs)), hu⟩
  · have hview := hnone.view
    unfold WaitingPodsList.viewAt at hview
    cases hw : p.waitingPodsList.getByKey k with
    | none =>
      rw [hw] at hview
      rw [← hview] at h
      cases h
    | some w =>
      have hkey : w.unitKey = k := key_of_getByKey hw
      exact ⟨none, by simp [containers], _,
        mem_map_of_mem (mem_list_of_getByKey hw), hkey⟩

theorem Represents.mem_podsUnder_iff (pod : Pod) :
    pod ∈ p.podsUnder k ↔ v k pod.uid = some pod := by
  unfold podsUnder
  constructor
  · intro h
    obtain ⟨e, he, hpod⟩ := mem_flatMap.mp h
    rw [mem_filter, decide_eq_true_eq] at he
    obtain ⟨hmem, rfl⟩ := he
    obtain ⟨c, -, hc⟩ := mem_flatMap.mp hmem
    exact (hp.mem_stored_iff hc _ _).mpr ⟨hpod, rfl⟩
  · intro h
    obtain ⟨c, hc, e, he, rfl⟩ := hp.exists_stored h
    apply mem_flatMap.mpr
    refine ⟨e, ?_, ((hp.mem_stored_iff he _ _).mp h).1⟩
    rw [mem_filter, decide_eq_true_eq]
    exact ⟨mem_flatMap.mpr ⟨c, hc, he⟩, rfl⟩

theorem Represents.mem_pendingPods_iff (pod : Pod) :
    pod ∈ p.pendingPods ↔ ∃ k, v k pod.uid = some pod := by
  rw [pendingPods_eq]
  constructor
  · intro h
    obtain ⟨e, he, hpod⟩ := mem_flatMap.mp h
    obtain ⟨c, -, hc⟩ := mem_flatMap.mp he
    exact ⟨e.1, (hp.mem_stored_iff hc _ _).mpr ⟨hpod, rfl⟩⟩
  · rintro ⟨k, h⟩
    obtain ⟨c, hc, e, he, rfl⟩ := hp.exists_stored h
    exact mem_flatMap.mpr
      ⟨e, mem_flatMap.mpr ⟨c, hc, he⟩, ((hp.mem_stored_iff he _ _).mp h).1⟩

theorem Represents.container_unique {c c' : Option QueueName}
    {e e' : UnitKey × List Pod} (he : e ∈ p.stored c) (he' : e' ∈ p.stored c')
    (hkey : e.1 = e'.1) : c = c' := by
  rcases hp.slot_of_stored he with ⟨queue, u, rfl, hs, -⟩ | ⟨w, rfl, hs, -⟩ <;>
    rcases hp.slot_of_stored he' with ⟨queue', u', rfl, hs', -⟩ | ⟨w', rfl, hs', -⟩ <;>
    rw [hkey, hs'] at hs
  · have hunit := congrFun (congrArg Contents.units hs) queue
    simp only [Slot.contents, Function.update_self, Function.update_apply] at hunit
    split_ifs at hunit with hq
    rw [hq]
  · exact absurd (congrArg Contents.waiting hs) (by simp [Slot.contents])
  · exact absurd (congrArg Contents.waiting hs) (by simp [Slot.contents])

end

theorem nodup_stored_keys (p : PriorityQueue) (c : Option QueueName) :
    ((p.stored c).map Prod.fst).Nodup := by
  cases c with
  | none =>
    simp only [stored, map_map]
    exact p.waitingPodsList.nodup_list_key
  | some queue =>
    simp only [stored, map_map]
    exact (p.queues queue).nodup_list_key

section

variable (hp : p.Represents v)

include hp

theorem Represents.nodup_keys : ((containers.flatMap p.stored).map Prod.fst).Nodup := by
  rw [map_flatMap, nodup_flatMap]
  refine ⟨fun c _ => p.nodup_stored_keys c, ?_⟩
  have hcontainers : containers.Nodup := by decide
  apply hcontainers.imp
  intro c c' hne k hk hk'
  obtain ⟨e, he, rfl⟩ := mem_map.mp hk
  obtain ⟨e', he', hkey⟩ := mem_map.mp hk'
  exact hne (hp.container_unique he he' hkey.symm)

theorem Represents.nodup_stored_uids (he : e ∈ p.stored c) : (e.2.map Pod.uid).Nodup := by
  rcases hp.slot_of_stored he with ⟨queue, u, -, -, hpods, -⟩ | ⟨w, -, -, hpods, -⟩
  · rw [hpods, map_map]
    exact u.scheduleUnit.nodup_getPods_uid
  · rw [hpods, map_map]
    exact w.pods.nodup_list_key

theorem Represents.count_pendingPods_eq_one_iff (uid : String) :
    (p.pendingPods.map Pod.uid).count uid = 1 ↔ ∃! k, (v k uid).isSome := by
  rw [pendingPods_eq, map_flatMap, count_flatMap_eq_one_iff hp.nodup_keys]
  · apply existsUnique_congr
    intro k
    constructor
    · rintro ⟨e, he, rfl, huid⟩
      obtain ⟨c, -, hc⟩ := mem_flatMap.mp he
      obtain ⟨pod, hpod, rfl⟩ := mem_map.mp huid
      rw [(hp.mem_stored_iff hc _ _).mpr ⟨hpod, rfl⟩]
      rfl
    · intro hsome
      obtain ⟨pod, hpod⟩ := Option.isSome_iff_exists.mp hsome
      obtain ⟨c, hc, e, he, rfl⟩ := hp.exists_stored hpod
      obtain ⟨hmem, rfl⟩ := (hp.mem_stored_iff he _ _).mp hpod
      exact ⟨e, mem_flatMap.mpr ⟨c, hc, he⟩, rfl, mem_map_of_mem hmem⟩
  · intro e he
    obtain ⟨c, -, hc⟩ := mem_flatMap.mp he
    exact hp.nodup_stored_uids hc

theorem Represents.view_eq_none_iff (uid : String) :
    v k uid = none ↔ ∀ pod ∈ p.podsUnder k, pod.uid ≠ uid := by
  constructor
  · rintro h pod hpod rfl
    rw [(hp.mem_podsUnder_iff pod).mp hpod] at h
    cases h
  · intro h
    apply Option.eq_none_iff_forall_ne_some.mpr
    intro pod hpod
    obtain ⟨c, -, e, he, rfl⟩ := hp.exists_stored hpod
    obtain ⟨-, rfl⟩ := (hp.mem_stored_iff he _ _).mp hpod
    exact h pod ((hp.mem_podsUnder_iff pod).mpr hpod) rfl

end

section

variable (b : BackoffHandler)

theorem exists_represents {ops : List Op} (hclear : Along (step b) HandBackClear new ops) :
    ∃ v, (run (step b) new ops).Represents v :=
  (always_of_step (P := fun p => ∃ v, p.Represents v)
    (fun _ op ⟨_, hp⟩ hop => ⟨_, represents_step b hp op hop⟩) ⟨_, represents_new⟩ hclear).last

/-- A call that only moves units from one container to another. -/
def Op.Moves : Op → Bool
  | .add .. | .update .. | .delete .. | .pop _ | .addUnschedulableIfNotPresent .. => false
  | _ => true

/-- Moving units between the containers keeps the pods of every unit. -/
theorem pods_kept_by_moves (ops : List Op) (hclear : Along (step b) HandBackClear new ops)
    (op : Op) (hop : op.Moves = true) (pod : Pod) :
    pod ∈ ((run (step b) new ops).step b op).podsUnder k ↔
      pod ∈ (run (step b) new ops).podsUnder k := by
  obtain ⟨v, hp⟩ := exists_represents b hclear
  have hafter : ((run (step b) new ops).step b op).Represents v := by
    cases op with
    | add | update | delete | pop | addUnschedulableIfNotPresent => cases hop
    | _ => exact represents_step b hp _ trivial
  rw [hafter.mem_podsUnder_iff, hp.mem_podsUnder_iff]

/-- The flush moves a waiting pod into a unit once its pod group is there. -/
theorem pods_kept_by_flush :
    let p := run (step tenSeconds) new [.add (envAt 0 []) (groupPod "a")]
    let p' := p.step tenSeconds (.flushWaitingPodsList (envAt 1 [group]))
    (p.queues .readyQ).getByKey groupKey = none ∧
      ((p'.queues .readyQ).getByKey groupKey).isSome ∧ groupPod "a" ∈ p'.podsUnder groupKey :=
  ⟨rfl, rfl, (pods_kept_by_moves tenSeconds [.add (envAt 0 []) (groupPod "a")] ⟨trivial, trivial⟩
    (.flushWaitingPodsList (envAt 1 [group])) rfl _).mpr (by decide)⟩

/-- A unit is served with all the pods under its key, and the other units stay as they are. -/
theorem pop_serves_all (ops : List Op) (hclear : Along (step b) HandBackClear new ops)
    {u : QueuedUnitInfo} {p' : PriorityQueue}
    (hpop : (run (step b) new ops).pop k = some (u, p')) (pod : Pod) :
    (pod ∈ u.scheduleUnit.getPods.map QueuedPodInfo.pod ↔
        pod ∈ (run (step b) new ops).podsUnder k) ∧
      ∀ k', pod ∈ p'.podsUnder k' ↔ k' ≠ k ∧ pod ∈ (run (step b) new ops).podsUnder k' := by
  obtain ⟨v, hp⟩ := exists_represents b hclear
  obtain ⟨-, hview, hsettles⟩ := settles_pop (hp k) hpop
  rw [hp.mem_podsUnder_iff, ← hview, unitView_eq_some_iff]
  refine ⟨(and_iff_left rfl).symm, fun k' => ?_⟩
  rw [(hp.settle hsettles).mem_podsUnder_iff, hp.mem_podsUnder_iff, Function.update_apply]
  split_ifs with hk
  · exact iff_of_false (fun h => by cases h) fun h => h.1 hk
  · exact (and_iff_right hk).symm

/-- Both pods of the group are served, and a pod of another group goes on waiting. -/
theorem pop_serves_group :
    let waiting : Pod := { groupPod "c" with podGroupName := some "h" }
    ∃ u p', (run (step tenSeconds) new [.add (envAt 0 [group]) (groupPod "a"),
        .add (envAt 1 [group]) waiting, .add (envAt 2 [group]) (groupPod "b")]).pop groupKey =
          some (u, p') ∧
      (∀ pod ∈ [groupPod "a", groupPod "b"],
        pod ∈ u.scheduleUnit.getPods.map QueuedPodInfo.pod) ∧
      waiting ∈ p'.podsUnder (.podGroupUnit "default" "h") := by
  intro waiting
  have hserves := fun pod => pop_serves_all tenSeconds (k := groupKey)
    [.add (envAt 0 [group]) (groupPod "a"), .add (envAt 1 [group]) waiting,
      .add (envAt 2 [group]) (groupPod "b")] ⟨trivial, trivial, trivial, trivial⟩ rfl pod
  exact ⟨_, _, rfl, fun pod hpod => (hserves pod).1.mpr (by revert pod; decide),
    ((hserves waiting).2 _).mpr ⟨by decide, by decide⟩⟩

end

end PriorityQueue

end GodelScheduler.Queue
