import GodelScheduler.Queue.Slots

/-!
# The queue as a map from unit keys to pods

The effect of each call on the pods under the key it touches. A pod that is
delivered replaces the pod with its UID, and in a single pod unit any pod. The
exception is `absorb`: when a delivery creates the unit of a group whose pods are
waiting, the waiting pods are added last and win. A unit handed back wins over
the pods of its group that arrived meanwhile.

`represents_step` says that every call keeps one slot per key and changes the
pods by `PodsStep`, provided that no unit is handed back while pods of its key
wait for a unit.
-/

namespace GodelScheduler.Queue

open Library ScheduleUnit WaitingPodsList KeyedStore Function List

variable (v : PodView) (k : UnitKey)

namespace PodView

def deliver (pod : Pod) : PodView :=
  if k.type = .podGroupUnitType then v.set pod else none.set pod

def absorb (pod : Pod) : PodView := if (v pod.uid).isSome then v else v.set pod

def retract (uid : String) : PodView :=
  if k.type = .podGroupUnitType then v.erase uid else none

def handBack (unit : PodView) : PodView :=
  if k.type = .podGroupUnitType then fun uid => (unit uid).or (v uid) else unit

variable (pod : Pod)

@[simp] theorem deliver_none : none.deliver k pod = none.set pod := by
  unfold deliver
  split_ifs <;> rfl

@[simp] theorem absorb_none : absorb none pod = none.set pod := rfl

theorem absorb_apply (uid : String) : v.absorb pod uid = (v uid).or (none.set pod uid) := by
  unfold absorb set
  by_cases huid : uid = pod.uid
  · subst huid
    cases hv : v pod.uid <;> simp [hv]
  · split_ifs <;> simp [huid, none]

variable (uid : String)

@[simp] theorem erase_none : none.erase uid = none := by
  unfold erase
  exact update_eq_self_iff.mpr rfl

@[simp] theorem retract_none : none.retract k uid = none := by
  unfold retract
  split_ifs
  · exact erase_none uid
  · rfl

@[simp] theorem handBack_none (unit : PodView) : none.handBack k unit = unit := by
  unfold handBack
  split_ifs
  · funext uid
    exact Option.or_none
  · rfl

theorem deliver_retract : (v.retract k uid).deliver k pod = (v.erase uid).deliver k pod := by
  unfold deliver retract
  split_ifs <;> rfl

theorem erase_of_eq_none {v : PodView} {uid : String} (h : v uid = Option.none) : v.erase uid = v :=
  update_eq_self_iff.mpr h.symm

end PodView

section

variable (u : QueuedUnitInfo)

theorem unitView_addPod (info : QueuedPodInfo) :
    unitView (u.addPod info) = (unitView u).deliver u.unitKey info.pod := by
  funext uid
  change ((u.scheduleUnit.addPod info).getPod uid).map QueuedPodInfo.pod = _
  rw [getPod_addPod, u.typed]
  unfold PodView.deliver PodView.set
  by_cases huid : uid = info.pod.uid
  · rw [if_pos huid, huid]
    split_ifs <;> simp
  · rw [if_neg huid]
    split_ifs <;> simp [huid, unitView, podView, PodView.none]

theorem unitView_deletePod (uid : String) :
    unitView (u.deletePod uid) = (unitView u).retract u.unitKey uid := by
  funext uid'
  change ((u.scheduleUnit.deletePod uid).getPod uid').map QueuedPodInfo.pod = _
  rw [getPod_deletePod, u.typed]
  unfold PodView.retract PodView.erase
  by_cases huid : uid' = uid
  · rw [if_pos huid, huid]
    split_ifs <;> simp [PodView.none]
  · rw [if_neg huid]
    split_ifs <;> simp [huid, unitView, podView, PodView.none]

theorem lookupList_getPods {unit : ScheduleUnit} {pods : List QueuedPodInfo}
    (h : pods.Perm unit.getPods) (uid : String) :
    KeyedStore.lookupList QueuedPodInfo.uid uid pods = unit.getPod uid :=
  lookupList_eq ((h.map _).nodup_iff.mpr unit.nodup_getPods_uid)
    (fun _ => h.mem_iff.trans mem_getPods_iff)
    (fun _ _ => getPod_eq_some_uid) uid

theorem unitView_addPodsIfNotPresent (inQueue : QueuedUnitInfo) {pods : List QueuedPodInfo}
    (h : pods.Perm inQueue.scheduleUnit.getPods) :
    unitView (u.addPodsIfNotPresent pods) = (unitView inQueue).handBack u.unitKey (unitView u) := by
  funext uid
  have hget := getPod_addPodsIfNotPresent u.scheduleUnit pods uid
  rw [u.typed, lookupList_getPods h] at hget
  unfold unitView podView QueuedUnitInfo.addPodsIfNotPresent PodView.handBack
  rw [hget]
  split_ifs <;> simp [Option.map_or]

theorem unitView_of_numPods_eq_zero (h : u.scheduleUnit.numPods = 0) : unitView u = .none := by
  funext uid
  simp [unitView, podView, getPod_of_numPods_eq_zero h, PodView.none]

end

variable {w : WaitingPods}

section

variable {env : Env} {pod : Pod} {u : QueuedUnitInfo}

theorem podView_created {created : ScheduleUnit} (now : ℤ)
    (hcreate : createScheduleUnit env.listers pod = .ok created) :
    podView (created.addPod (newQueuedPodInfo pod now)).getPod = PodView.none.set pod := by
  funext uid
  rw [podView, getPod_addPod, getPod_createScheduleUnit hcreate, ite_self]
  by_cases huid : uid = pod.uid
  · simp [huid, newQueuedPodInfo, QueuedPodInfo.uid, PodView.set]
  · simp [huid, newQueuedPodInfo, QueuedPodInfo.uid, PodView.set, PodView.none]

/-- A unit is created exactly if the listers know its group, and always for a pod without one. The
waiting pods are added last. -/
theorem newUnitInfo_spec (env : Env) (waiting : Option WaitingPods)
    (hk : waiting.isSome → (getUnitIdentifier pod).type = .podGroupUnitType) :
    if (createScheduleUnit env.listers pod).isOk then
      ∃ u, PriorityQueue.newUnitInfo env pod waiting = .ok u ∧ u.unitKey = getUnitIdentifier pod ∧
        unitView u = ((waiting.map WaitingPods.view).getD .none).absorb pod
    else ∃ err, PriorityQueue.newUnitInfo env pod waiting = .error err := by
  generalize hnew : PriorityQueue.newUnitInfo env pod waiting = r
  unfold PriorityQueue.newUnitInfo at hnew
  split at hnew
  next err h =>
    rw [h]
    exact ⟨_, hnew.symm⟩
  next created hcreate =>
    rw [hcreate]
    cases waiting with
    | none => exact ⟨_, hnew.symm, rfl, podView_created env.now hcreate⟩
    | some w =>
      have hperm := env.podOrder.perm w.pods.list
      have htype : (created.addPod (newQueuedPodInfo pod env.now)).type = .podGroupUnitType := by
        rw [type_addPod, type_createScheduleUnit hcreate, hk rfl]
      obtain ⟨u', hadded, hget⟩ := getPod_addPods
        ((hperm.map _).nodup_iff.mpr w.pods.nodup_list_key) htype
      simp only at hnew
      split at hnew
      next err hadd =>
        rw [hadded] at hadd
        cases hadd
      next merged hadd =>
        cases hadded.symm.trans hadd
        refine ⟨_, hnew.symm, rfl, ?_⟩
        funext uid
        rw [PodView.absorb_apply, ← podView_created env.now hcreate]
        change (u'.getPod uid).map _ = ((w.pods.getByKey uid).map _).or _
        rw [hget, lookupList_of_perm hperm, Option.map_or]
        rfl

theorem type_of_createScheduleUnit_not_isOk
    (h : (createScheduleUnit env.listers pod).isOk = false) :
    (getUnitIdentifier pod).type = .podGroupUnitType := by
  cases htype : (getUnitIdentifier pod).type with
  | podGroupUnitType => rfl
  | singlePodUnitType =>
    rw [exists_createScheduleUnit_of_singlePod env.listers htype] at h
    cases h

end

namespace PriorityQueue

variable {p p' : PriorityQueue} {env : Env} {pod : Pod} {k : UnitKey} {v : PodView}

theorem viewAt_eq (p : PriorityQueue) (k : UnitKey) :
    p.waitingPodsList.viewAt k = ((p.contents k).waiting.map WaitingPods.view).getD .none := rfl

/-- A delivery creates the unit of a group whose pods are waiting. -/
def picksUp (p : PriorityQueue) (env : Env) (pod : Pod) : Bool :=
  (createScheduleUnit env.listers pod).isOk &&
    (p.waitingPodsList.getByKey (getUnitIdentifier pod)).isSome

/-- No sub-queue has the key; the pods under it, if any, are waiting. -/
structure Unitless (p : PriorityQueue) (k : UnitKey) (v : PodView) : Prop where
  units : ∀ queue, (p.contents k).units queue = none
  view : p.waitingPodsList.viewAt k = v
  grouped : (p.waitingPodsList.getByKey k).isSome → k.type = .podGroupUnitType

theorem unitless_of_waiting (hs : p.contents k = (Slot.waiting w).contents)
    (hgroup : k.type = .podGroupUnitType) : p.Unitless k w.view := by
  refine ⟨fun queue => ?_, ?_, fun _ => hgroup⟩
  · rw [hs]
    rfl
  · rw [viewAt_eq, hs]
    rfl

/-- Either a sub-queue has the unit, and nothing waits for it, or no sub-queue has it. -/
theorem HoldsAt.cases (h : p.HoldsAt k v) :
    (∃ queue u, p.contents k = (Slot.unit queue u).contents ∧ u.unitKey = k ∧ unitView u = v) ∨
      p.Unitless k v := by
  obtain ⟨s, hs, hg, rfl⟩ := h
  cases s with
  | unit queue u => exact .inl ⟨queue, u, hs, unitKey_of_slot hs, rfl⟩
  | empty =>
    right
    have hw : p.waitingPodsList.getByKey k = none := congrArg Contents.waiting hs
    refine ⟨fun queue => ?_, ?_, ?_⟩
    · rw [hs]
      rfl
    · rw [viewAt_eq, hs]
      rfl
    · simp [hw]
  | waiting w => exact .inr (unitless_of_waiting hs hg)

variable {queue : QueueName} {u : QueuedUnitInfo}

theorem waiting_of_unit (h : p.contents k = (Slot.unit queue u).contents) :
    p.waitingPodsList.getByKey k = none :=
  congrArg Contents.waiting h

theorem Unitless.contents_deleteWaiting (h : p.Unitless k v) :
    { p with waitingPodsList := p.waitingPodsList.deleteByKey k }.contents k =
      Slot.empty.contents :=
  contents_eq_empty h.units (getByKey_deleteByKey_self _ _)

/-- The unit created by a delivery, and the queue it is put into. -/
theorem Unitless.createUnitInfo (env : Env) (h : p.Unitless (getUnitIdentifier pod) v) :
    if (createScheduleUnit env.listers pod).isOk then
      ∃ u, p.createUnitInfo env pod = .ok (u, { p with
          waitingPodsList := p.waitingPodsList.deleteByKey (getUnitIdentifier pod) }) ∧
        u.unitKey = getUnitIdentifier pod ∧ unitView u = v.absorb pod
    else ∃ err, p.createUnitInfo env pod = .error err := by
  have hspec := newUnitInfo_spec env _ h.grouped
  rw [← h.view]
  simp only [PriorityQueue.createUnitInfo]
  split_ifs at hspec ⊢
  · obtain ⟨u, hu, hkey, hview⟩ := hspec
    exact ⟨u, by rw [hu]; rfl, hkey, hview⟩
  · obtain ⟨err, herr⟩ := hspec
    exact ⟨err, by rw [herr]; rfl⟩

theorem Unitless.settles_created (h : p.Unitless k v) (hu : u.unitKey = k) (queue : QueueName) :
    Settles p ({ p with waitingPodsList := p.waitingPodsList.deleteByKey k }.put queue u) k
      (unitView u) := by
  subst hu
  constructor
  · intro k' hk
    rw [contents_put_of_ne _ _ hk]
    exact contents_setWaiting_of_eq (getByKey_deleteByKey_of_ne _ hk)
  · exact holdsAt_put h.contents_deleteWaiting

theorem Unitless.settles {l : WaitingPodsList}
    (hframe : ∀ k', k' ≠ k → l.getByKey k' = p.waitingPodsList.getByKey k')
    (h : { p with waitingPodsList := l }.Unitless k v) :
    Settles p { p with waitingPodsList := l } k v := by
  refine ⟨fun k' hk => contents_setWaiting_of_eq (hframe k' hk), ?_⟩
  rw [← h.view]
  unfold viewAt
  have hgrouped := h.grouped
  cases hw : l.getByKey k with
  | none => exact ⟨.empty, contents_eq_empty h.units hw, trivial, rfl⟩
  | some w =>
    rw [hw] at hgrouped
    exact ⟨.waiting w, contents_eq_waiting h.units hw, hgrouped rfl, rfl⟩

theorem Unitless.view_eq_none (h : p.Unitless k v)
    (hw : (p.waitingPodsList.getByKey k).isSome = false) : v = PodView.none := by
  rw [← h.view, WaitingPodsList.viewAt]
  cases hget : p.waitingPodsList.getByKey k with
  | none => rfl
  | some w =>
    rw [hget] at hw
    cases hw

theorem Unitless.deletePod (h : p.Unitless (getUnitIdentifier pod) v) :
    { p with waitingPodsList := p.waitingPodsList.deletePod pod }.Unitless (getUnitIdentifier pod)
      (v.retract (getUnitIdentifier pod) pod.uid) := by
  have hview := viewAt_deletePod p.waitingPodsList pod
  rw [h.view] at hview
  cases hw : p.waitingPodsList.getByKey (getUnitIdentifier pod) with
  | none =>
    have hv := h.view_eq_none (by rw [hw]; rfl)
    have hdel := getByKey_deletePod_eq_none _ hw
    refine ⟨h.units, ?_, by simp [hdel]⟩
    rw [hview, hv, PodView.retract_none, PodView.erase_none]
  | some w =>
    have hgroup := h.grouped (by rw [hw]; rfl)
    refine ⟨h.units, ?_, fun _ => hgroup⟩
    rw [hview, PodView.retract, if_pos hgroup]

theorem picksUp_of_unit (h : p.contents (getUnitIdentifier pod) = (Slot.unit queue u).contents) :
    p.picksUp env pod = false := by
  simp [picksUp, waiting_of_unit h]

/-- A delivery for which no sub-queue has a unit. `v'` is what is left of the pods before the pod is
added. -/
theorem Unitless.settles_delivery {p' : PriorityQueue} {v' : PodView} {l : WaitingPodsList}
    (h : p.Unitless (getUnitIdentifier pod) v)
    (hl : WaitingPodsList.Stores p.waitingPodsList l pod (v'.set pod)) (hv : v = .none → v' = .none)
    (hp' : p' = match p.createUnitInfo env pod with
      | .error _ => { p with waitingPodsList := l }
      | .ok (u, p) => p.put (readyOrWaiting env u) u) :
    Settles p p' (getUnitIdentifier pod) (if p.picksUp env pod then v.absorb pod
      else v'.deliver (getUnitIdentifier pod) pod) := by
  have hcreated := h.createUnitInfo env
  unfold picksUp
  cases hok : (createScheduleUnit env.listers pod).isOk with
  | true =>
    rw [if_pos hok] at hcreated
    obtain ⟨u, hcreate, hu, hview⟩ := hcreated
    have hgoal : (if (true && (p.waitingPodsList.getByKey (getUnitIdentifier pod)).isSome) = true
        then v.absorb pod else v'.deliver (getUnitIdentifier pod) pod) = unitView u := by
      rw [Bool.true_and, hview]
      split_ifs with hw
      · rfl
      · have hnone := h.view_eq_none (by simpa using hw)
        rw [hv hnone, hnone]
        simp
    rw [hgoal, hp', hcreate]
    exact h.settles_created hu _
  | false =>
    rw [hok, if_neg Bool.false_ne_true] at hcreated
    obtain ⟨err, hcreate⟩ := hcreated
    have hgroup := type_of_createScheduleUnit_not_isOk hok
    rw [hp', hcreate, Bool.false_and, if_neg Bool.false_ne_true, PodView.deliver, if_pos hgroup]
    exact Unitless.settles (fun _ hk => hl.getByKey_of_ne hk)
      ⟨h.units, hl.viewAt_eq, fun _ => hgroup⟩

theorem settles_add (h : p.HoldsAt (getUnitIdentifier pod) v) :
    Settles p (p.add env pod) (getUnitIdentifier pod)
      (if p.picksUp env pod then v.absorb pod else v.deliver (getUnitIdentifier pod) pod) := by
  rcases h.cases with ⟨queue, u, hs, hu, rfl⟩ | hnone
  · have hview := unitView_addPod u (newQueuedPodInfo pod env.now)
    rw [hu] at hview
    simp only [add, addPodToUnitInfo, findAndRemove_of_unit hs, picksUp_of_unit hs]
    rw [if_neg Bool.false_ne_true]
    change Settles p _ _ ((unitView u).deliver _ (newQueuedPodInfo pod env.now).pod)
    rw [← hview]
    split_ifs
    · exact settles_replace _ hu hs
    · exact settles_replace _ hu hs
  · have hstores := stores_addPod p.waitingPodsList env.now pod
    rw [hnone.view] at hstores
    apply hnone.settles_delivery hstores id
    simp only [add, addPodToUnitInfo, findAndRemove_of_contents hnone.units]
    cases p.createUnitInfo env pod <;> rfl

theorem exists_updatePodInUnitInfo (env : Env) (oldPod : Pod) {newPod : Pod}
    (h : p.contents (getUnitIdentifier newPod) = (Slot.unit queue u).contents) :
    ∃ u', p.updatePodInUnitInfo env oldPod newPod =
        .ok (some queue, u', p.remove queue (getUnitIdentifier newPod)) ∧
      u'.unitKey = getUnitIdentifier newPod ∧
      unitView u' = ((unitView u).erase oldPod.uid).deliver (getUnitIdentifier newPod) newPod := by
  have hu := unitKey_of_slot h
  simp only [updatePodInUnitInfo, findAndRemove_of_unit h]
  cases hold : u.scheduleUnit.getPod oldPod.uid with
  | some oldPodInfo =>
    refine ⟨_, rfl, hu, ?_⟩
    rw [unitView_addPod, unitView_deletePod, getPod_eq_some_uid hold, ← hu]
    exact PodView.deliver_retract _ _ _ _
  | none =>
    refine ⟨_, rfl, hu, ?_⟩
    have hview : unitView u oldPod.uid = none := by simp [unitView, podView, hold]
    rw [unitView_addPod, PodView.erase_of_eq_none hview, hu]
    rfl

theorem settles_update (b : BackoffHandler) {oldPod newPod : Pod}
    (h : p.HoldsAt (getUnitIdentifier newPod) v) :
    Settles p (p.update b env oldPod newPod) (getUnitIdentifier newPod)
      (if p.picksUp env newPod then v.absorb newPod
        else (v.erase oldPod.uid).deliver (getUnitIdentifier newPod) newPod) := by
  rcases h.cases with ⟨queue, u, hs, hu, rfl⟩ | hnone
  · obtain ⟨u', hupdate, hu', hview⟩ := exists_updatePodInUnitInfo env oldPod hs
    simp only [update, hupdate, picksUp_of_unit hs]
    rw [if_neg Bool.false_ne_true, ← hview]
    split_ifs
    · exact settles_replace _ hu' hs
    · exact settles_replace _ hu' hs
    · exact settles_replace _ hu' hs
  · have hstores := stores_updatePod p.waitingPodsList env.now oldPod newPod
    rw [hnone.view] at hstores
    apply hnone.settles_delivery hstores (fun hv => hv ▸ PodView.erase_none _)
    simp only [update, updatePodInUnitInfo, findAndRemove_of_contents hnone.units]
    cases p.createUnitInfo env newPod <;> rfl

theorem settles_delete (h : p.HoldsAt (getUnitIdentifier pod) v) :
    Settles p (p.delete env pod) (getUnitIdentifier pod)
      (v.retract (getUnitIdentifier pod) pod.uid) := by
  rcases h.cases with ⟨queue, u, hs, hu, rfl⟩ | hnone
  · have hview := unitView_deletePod u pod.uid
    rw [hu] at hview
    have hw := waiting_of_unit hs
    -- Nothing waits under the key, so the second deletion changes nothing.
    have hsame : ∀ k, { p.remove queue (getUnitIdentifier pod) with
        waitingPodsList := p.waitingPodsList.deletePod pod }.contents k =
        (p.remove queue (getUnitIdentifier pod)).contents k := by
      intro k
      apply contents_setWaiting_of_eq
      change _ = p.waitingPodsList.getByKey k
      by_cases hk : k = getUnitIdentifier pod
      · rw [hk, getByKey_deletePod_eq_none _ hw, hw]
      · exact getByKey_deletePod_of_ne _ hk
    have hput : ∀ queue', Settles p
        ({ p.remove queue (getUnitIdentifier pod) with
          waitingPodsList := p.waitingPodsList.deletePod pod }.put queue' (u.deletePod pod.uid))
        (getUnitIdentifier pod) (unitView (u.deletePod pod.uid)) := by
      intro queue'
      have hempty := (hsame _).trans (contents_remove_of_unit hs)
      have hset := settles_put queue' (u := u.deletePod pod.uid) hu hempty
      constructor
      · intro k hk
        rw [hset.frame k hk, hsame, contents_remove_of_ne p _ hk]
      · exact hset.holds
    simp only [delete, findAndRemove_of_unit hs]
    rw [← hview]
    split_ifs with hzero hmove
    · constructor
      · intro k hk
        exact (hsame k).trans (contents_remove_of_ne p _ hk)
      · refine ⟨.empty, (hsame _).trans (contents_remove_of_unit hs), trivial, ?_⟩
        rw [unitView_of_numPods_eq_zero _ hzero]
        rfl
    · exact hput _
    · exact hput _
  · simp only [delete, findAndRemove_of_contents hnone.units]
    exact hnone.deletePod.settles fun _ hk => getByKey_deletePod_of_ne _ hk

/-- A unit handed back is merged with the one in a sub-queue. Pods that wait under the key would
stay there, which is excluded here. -/
theorem settles_addUnschedulable (cycle : ℤ) (h : p.HoldsAt u.unitKey v)
    (hnum : u.scheduleUnit.numPods ≠ 0) (hw : p.waitingPodsList.getByKey u.unitKey = none) :
    Settles p (p.addUnschedulableIfNotPresent env u cycle) u.unitKey
      (v.handBack u.unitKey (unitView u)) := by
  rcases h.cases with ⟨queue, inQueue, hs, hu, rfl⟩ | hnone
  · have hview := unitView_addPodsIfNotPresent u inQueue
      (env.podOrder.perm inQueue.scheduleUnit.getPods)
    simp only [addUnschedulableIfNotPresent, if_neg hnum, findAndRemove_of_unit hs]
    rw [← hview]
    split_ifs
    · exact settles_replace .backoffQ rfl hs
    · exact settles_replace .unschedulableQ rfl hs
  · have hempty : p.contents u.unitKey = Slot.empty.contents :=
      contents_eq_empty hnone.units hw
    rw [hnone.view_eq_none (by rw [hw]; rfl), PodView.handBack_none]
    simp only [addUnschedulableIfNotPresent, if_neg hnum, findAndRemove_of_contents hnone.units]
    split_ifs
    · exact settles_put .backoffQ rfl hempty
    · exact settles_put .unschedulableQ rfl hempty

theorem HoldsAt.slot_of_unit (h : p.HoldsAt k v) (hget : (p.queues queue).getByKey k = some u) :
    p.contents k = (Slot.unit queue u).contents ∧ unitView u = v := by
  have hunits : (p.contents k).units queue = some u := hget
  rcases h.cases with ⟨queue', u', hs, -, rfl⟩ | hnone
  · rw [hs] at hunits
    simp only [Slot.contents, update_apply] at hunits
    split_ifs at hunits with hqueue
    cases hunits
    exact ⟨hqueue ▸ hs, rfl⟩
  · rw [hnone.units] at hunits
    cases hunits

theorem settles_pop (h : p.HoldsAt k v) (hpop : p.pop k = some (u, p')) :
    u.unitKey = k ∧ unitView u = v ∧ Settles p p' k .none := by
  obtain ⟨u', hget, hpair⟩ := Option.map_eq_some_iff.mp hpop
  cases hpair
  obtain ⟨hs, hview⟩ := h.slot_of_unit hget
  have hkey : u'.unitKey = k := key_of_getByKey hget
  refine ⟨hkey, hview, ?_, ?_⟩
  · intro k' hk
    exact contents_remove_of_ne p .readyQ hk
  · exact ⟨.empty, contents_remove_of_unit hs, trivial, rfl⟩

section

theorem represents_foldl {f : PriorityQueue → QueuedUnitInfo → PriorityQueue}
    {R : Contents → QueuedUnitInfo → Prop}
    (hf : ∀ (p : PriorityQueue) u v, p.HoldsAt u.unitKey v → R (p.contents u.unitKey) u →
      Settles p (f p u) u.unitKey v)
    {l : List QueuedUnitInfo} (hl : (l.map QueuedUnitInfo.unitKey).Nodup)
    {p : PriorityQueue} (hR : ∀ u ∈ l, R (p.contents u.unitKey) u) {v : UnitKey → PodView}
    (hp : p.Represents v) : (l.foldl f p).Represents v := by
  induction l generalizing p with
  | nil => exact hp
  | cons u l ih =>
    rw [nodup_map_cons] at hl
    have hset := hf p u (v u.unitKey) (hp u.unitKey) (hR u mem_cons_self)
    have hnext := hp.settle hset
    rw [update_eq_self] at hnext
    apply ih hl.2 _ hnext
    intro u' hu'
    have hne : u'.unitKey ≠ u.unitKey := hl.1 _ hu'
    rw [hset.frame _ hne]
    exact hR u' (mem_cons_of_mem _ hu')

theorem settles_move {queue queue' : QueueName} (hne : queue' ≠ queue) (h : p.HoldsAt u.unitKey v)
    (hs : p.contents u.unitKey = (Slot.unit queue u).contents) :
    Settles p ((p.put queue' u).remove queue u.unitKey) u.unitKey v := by
  obtain ⟨-, rfl⟩ := h.slot_of_unit (getByKey_of_slot hs)
  constructor
  · intro k hk
    rw [contents_remove_of_ne _ _ hk, contents_put_of_ne _ _ hk]
  · refine ⟨.unit queue' u, ?_, trivial, rfl⟩
    rw [contents_remove_self, contents_put_self, hs]
    simp only [Slot.contents]
    have hnone : Function.update (fun _ => (none : Option QueuedUnitInfo)) queue none =
        fun _ => none := update_eq_self_iff.mpr rfl
    rw [update_comm hne, update_idem, hnone]

theorem nodup_select (p : PriorityQueue) (env : Env) (queue : QueueName)
    (test : QueuedUnitInfo → Bool) :
    ((p.select env queue test).map QueuedUnitInfo.unitKey).Nodup := by
  have hperm := (env.unitOrder.perm ((p.queues queue).list.filter test)).map QueuedUnitInfo.unitKey
  rw [select, hperm.nodup_iff]
  exact ((p.queues queue).nodup_list_key).sublist (filter_sublist.map _)

theorem mem_of_mem_select {test : QueuedUnitInfo → Bool} (hu : u ∈ p.select env queue test) :
    u ∈ (p.queues queue).list :=
  mem_of_mem_filter ((env.unitOrder.mem_list).mp hu)

theorem foldl_addPod_podGroup (unit : PodGroupUnit) (pods : List QueuedPodInfo) :
    pods.foldl ScheduleUnit.addPod (.podGroup unit) = .podGroup (unit.addPods pods) := by
  induction pods generalizing unit with
  | nil => rfl
  | cons info pods ih => exact ih (unit.addPod info)

/-- The unit made of waiting pods has their key and all of them. -/
theorem transferToPodGroupUnit_eq_some (hgroup : w.unitKey.type = .podGroupUnitType)
    (h : w.transferToPodGroupUnit env = some u) : u.unitKey = w.unitKey ∧ unitView u = w.view := by
  have hperm := env.podOrder.perm w.pods.list
  unfold WaitingPods.transferToPodGroupUnit at h
  split at h
  next => cases h
  next randomPodInfo rest hlist =>
    rw [hlist] at hperm
    have hbelongs := w.belongs randomPodInfo (hperm.subset mem_cons_self)
    split at h
    next => cases h
    next created hcreate =>
      rcases createScheduleUnit_cases hcreate with ⟨pg, rfl, hkey⟩ | ⟨rfl, hkey⟩
      · have hunit := foldl_addPod_podGroup (.new pg) (randomPodInfo :: rest)
        simp only at h
        split at h
        next key hgetKey =>
          cases h
          rw [hunit] at hgetKey
          cases hgetKey
          refine ⟨hkey.symm.trans hbelongs, ?_⟩
          funext uid
          simp only [unitView, podView, QueuedUnitInfo.new]
          rw [hunit]
          have hnd : ((randomPodInfo :: rest).map QueuedPodInfo.uid).Nodup :=
            (hperm.map _).nodup_iff.mpr w.pods.nodup_list_key
          have hget := getByKey_foldl_add hnd (.empty QueuedPodInfo.uid) uid
          rw [lookupList_of_perm hperm, getByKey_empty, Option.or_none] at hget
          exact congrArg (Option.map QueuedPodInfo.pod) hget
        next => cases h
      · rw [hbelongs] at hkey
        rw [hkey] at hgroup
        cases hgroup

theorem HoldsAt.slot_of_waiting (h : p.HoldsAt k v) (hw : p.waitingPodsList.getByKey k = some w) :
    p.contents k = (Slot.waiting w).contents ∧ k.type = .podGroupUnitType ∧ w.view = v := by
  have hwaiting : (p.contents k).waiting = some w := hw
  obtain ⟨s, hs, hg, rfl⟩ := h
  rw [hs] at hwaiting
  cases s with
  | empty => cases hwaiting
  | unit queue u => cases hwaiting
  | waiting w' =>
    cases hwaiting
    exact ⟨hs, hg, rfl⟩

variable {v : UnitKey → PodView} (hp : p.Represents v)

include hp

theorem Represents.slot_of_mem (hu : u ∈ (p.queues queue).list) :
    p.contents u.unitKey = (Slot.unit queue u).contents :=
  ((hp u.unitKey).slot_of_unit (mem_list_iff.mp hu)).1

theorem represents_moveUnits (b : BackoffHandler) (test : QueuedUnitInfo → Bool) :
    (p.moveUnitsToReadyOrBackoffQueue b env (p.select env .unschedulableQ test)).Represents v := by
  apply represents_foldl (R := fun c u => c = (Slot.unit .unschedulableQ u).contents) _
    (nodup_select p env _ test) _ hp
  · intro p u v h hs
    apply settles_move _ h hs
    split_ifs <;> decide
  · intro u hu
    exact hp.slot_of_mem (mem_of_mem_select hu)

theorem represents_toReady {l : List QueuedUnitInfo}
    (hl : (l.map QueuedUnitInfo.unitKey).Nodup) (hmem : ∀ u ∈ l, u ∈ (p.queues queue).list) :
    (l.foldl (fun p u => (p.remove queue u.unitKey).put .readyQ u) p).Represents v := by
  apply represents_foldl (R := fun c u => c = (Slot.unit queue u).contents) _ hl _ hp
  · intro p u v h hs
    obtain ⟨-, rfl⟩ := h.slot_of_unit (getByKey_of_slot hs)
    exact settles_replace .readyQ rfl hs
  · intro u hu
    exact hp.slot_of_mem (hmem u hu)

theorem represents_flushScheduledUnitsInWaitingQ :
    (p.flushScheduledUnitsInWaitingQ env).Represents v :=
  represents_toReady hp (nodup_select p env _ _) fun _ => mem_of_mem_select

theorem represents_flushBackoffQCompleted (b : BackoffHandler) :
    (p.flushBackoffQCompleted b env).Represents v := by
  set sorted := (p.queues .backoffQ).list.insertionSort
    fun u v => b.getBackoffTime u ≤ b.getBackoffTime v
  have hperm : sorted.Perm (p.queues .backoffQ).list := perm_insertionSort _ _
  have hnd : (sorted.map QueuedUnitInfo.unitKey).Nodup :=
    (hperm.map _).nodup_iff.mpr (p.queues .backoffQ).nodup_list_key
  apply represents_toReady hp
  · exact hnd.sublist ((takeWhile_sublist _).map _)
  · intro u hu
    exact hperm.subset ((takeWhile_sublist _).subset hu)

theorem represents_activePodGroupUnit (unitKey : UnitKey) :
    (p.activePodGroupUnit env unitKey).Represents v := by
  unfold activePodGroupUnit
  split
  next => exact hp
  next u hu =>
    obtain ⟨w, hw, htransfer⟩ := Option.bind_eq_some_iff.mp hu
    obtain ⟨hs, hgroup, hview⟩ := (hp unitKey).slot_of_waiting hw
    have hwkey : w.unitKey = unitKey := key_of_getByKey hw
    obtain ⟨hkey, huview⟩ := transferToPodGroupUnit_eq_some (hwkey ▸ hgroup) htransfer
    -- The unit is put first and the waiting pods deleted afterwards.
    have hset := (unitless_of_waiting hs hgroup).settles_created (hkey.trans hwkey)
      (readyOrWaiting env u)
    have hnext := hp.settle hset
    rw [huview, hview, update_eq_self] at hnext
    exact hnext

theorem represents_flushWaitingPodsList : (p.flushWaitingPodsList env).Represents v := by
  have htransfer : ∀ w ∈ p.waitingPodsList.list, ∀ u, w.transferToPodGroupUnit env = some u →
      p.contents w.unitKey = (Slot.waiting w).contents ∧ u.unitKey = w.unitKey ∧
        unitView u = w.view := by
    intro w hw u hu
    obtain ⟨hs, hgroup, -⟩ := (hp w.unitKey).slot_of_waiting (mem_list_iff.mp hw)
    exact ⟨hs, transferToPodGroupUnit_eq_some hgroup hu⟩
  apply represents_foldl (R := fun c u => ∃ w : WaitingPods, c = (Slot.waiting w).contents ∧
    unitView u = w.view) _ _ _ hp
  · intro p u v h hR
    obtain ⟨w, hs, hview⟩ := hR
    obtain ⟨-, hgroup, rfl⟩ := h.slot_of_waiting (congrArg Contents.waiting hs)
    rw [← hview]
    exact (unitless_of_waiting hs hgroup).settles_created rfl _
  · rw [((env.unitOrder.perm _).map _).nodup_iff, map_filterMap]
    have hkeys : ∀ w ∈ p.waitingPodsList.list, ∀ k,
        (w.transferToPodGroupUnit env).map QueuedUnitInfo.unitKey = some k → k = w.unitKey := by
      intro w hw k hk
      obtain ⟨u, hu, rfl⟩ := Option.map_eq_some_iff.mp hk
      exact (htransfer w hw u hu).2.1
    exact nodup_filterMap_of_key hkeys p.waitingPodsList.nodup_list_key
  · intro u hu
    rw [env.unitOrder.mem_list] at hu
    obtain ⟨w, hw, htrans⟩ := mem_filterMap.mp hu
    obtain ⟨hs, hkey, hview⟩ := htransfer w hw u htrans
    exact ⟨w, hkey ▸ hs, hview⟩

end

/-- The pods under each key after a call, given those before it. -/
def podsStep (p : PriorityQueue) (v : UnitKey → PodView) : Op → UnitKey → PodView
  | .add env pod =>
    let k := getUnitIdentifier pod
    Function.update v k (if p.picksUp env pod then (v k).absorb pod else (v k).deliver k pod)
  | .update env oldPod newPod =>
    let k := getUnitIdentifier newPod
    Function.update v k (if p.picksUp env newPod then (v k).absorb newPod
      else ((v k).erase oldPod.uid).deliver k newPod)
  | .delete _ pod =>
    let k := getUnitIdentifier pod
    Function.update v k ((v k).retract k pod.uid)
  | .pop k => if (p.pop k).isSome then Function.update v k .none else v
  | .addUnschedulableIfNotPresent _ u _ =>
    if u.scheduleUnit.numPods = 0 then v
    else Function.update v u.unitKey ((v u.unitKey).handBack u.unitKey (unitView u))
  | _ => v

/-- No unit is handed back while pods of its key wait for a unit. -/
def HandBackClear (p : PriorityQueue) : Op → Prop
  | .addUnschedulableIfNotPresent _ u _ =>
    u.scheduleUnit.numPods = 0 ∨ p.waitingPodsList.getByKey u.unitKey = none
  | _ => True

theorem represents_step (b : BackoffHandler) {v : UnitKey → PodView} (hp : p.Represents v)
    (op : Op) (hclear : p.HandBackClear op) : (p.step b op).Represents (p.podsStep v op) := by
  cases op with
  | add env pod => exact hp.settle (settles_add (hp _))
  | update env oldPod newPod => exact hp.settle (settles_update b (hp _))
  | delete env pod => exact hp.settle (settles_delete (hp _))
  | pop key =>
    simp only [step, podsStep]
    cases hpop : p.pop key with
    | none => exact hp
    | some r =>
      obtain ⟨-, -, hset⟩ := settles_pop (hp key) hpop
      exact hp.settle hset
  | addUnschedulableIfNotPresent env u cycle =>
    simp only [step, podsStep]
    split_ifs with hnum
    · rw [addUnschedulableIfNotPresent, if_pos hnum]
      exact hp
    · exact hp.settle (settles_addUnschedulable cycle (hp _) hnum (hclear.resolve_left hnum))
  | activePodGroupUnit env unitKey => exact represents_activePodGroupUnit hp unitKey
  | moveAllToActiveOrBackoffQueue env => exact represents_moveUnits hp b _
  | assignedPod env matchesTerm => exact represents_moveUnits hp b _
  | flushBackoffQCompleted env => exact represents_flushBackoffQCompleted hp b
  | flushUnschedulableQLeftover env => exact represents_moveUnits hp b _
  | flushScheduledUnitsInWaitingQ env => exact represents_flushScheduledUnitsInWaitingQ hp
  | flushWaitingPodsList env => exact represents_flushWaitingPodsList hp

end PriorityQueue

end GodelScheduler.Queue
