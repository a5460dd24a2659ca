import GodelScheduler.Queue.PriorityQueue

/-!
# One slot per unit key

What the queue stores for a unit key is read from all five containers at once.
A `Slot` is the case in which at most one container has the key. `HoldsAt p k v`
says that `p` has a slot for `k` with the pods `v`, found by UID, and
`Represents p v` says it for every key: the queue is then a map from unit keys to
pods. For each call there are two lemmas: it leaves the other keys alone, and it
turns a slot with given pods into a slot with given pods.
-/

namespace GodelScheduler.Queue

open Library KeyedStore WaitingPods Function

abbrev PodView := String → Option Pod

namespace PodView

def none : PodView := fun _ => Option.none

def set (v : PodView) (pod : Pod) : PodView := Function.update v pod.uid (some pod)

def erase (v : PodView) (uid : String) : PodView := Function.update v uid Option.none

end PodView

def podView (find : String → Option QueuedPodInfo) : PodView :=
  fun uid => (find uid).map QueuedPodInfo.pod

def unitView (u : QueuedUnitInfo) : PodView := podView u.scheduleUnit.getPod

def WaitingPods.view (w : WaitingPods) : PodView := podView w.pods.getByKey

/-- What the containers store under one key. -/
@[ext] structure Contents where
  units : QueueName → Option QueuedUnitInfo
  waiting : Option WaitingPods

def PriorityQueue.contents (p : PriorityQueue) (k : UnitKey) : Contents where
  units queue := (p.queues queue).getByKey k
  waiting := p.waitingPodsList.getByKey k

inductive Slot
  | empty
  | unit (queue : QueueName) (unitInfo : QueuedUnitInfo)
  | waiting (w : WaitingPods)

namespace Slot

def contents : Slot → Contents
  | empty => ⟨fun _ => none, none⟩
  | unit queue u => ⟨Function.update (fun _ => none) queue (some u), none⟩
  | waiting w => ⟨fun _ => none, some w⟩

def view : Slot → PodView
  | empty => .none
  | unit _ u => unitView u
  | waiting w => w.view

/-- Only pods of a group wait for their unit. -/
def Grouped (k : UnitKey) : Slot → Prop
  | waiting _ => k.type = .podGroupUnitType
  | _ => True

end Slot

namespace PriorityQueue

variable {p p' : PriorityQueue} {k k' : UnitKey} {queue : QueueName} {u : QueuedUnitInfo}

section

variable (p : PriorityQueue) (queue : QueueName)

theorem contents_setQueue (q : SubQueue) (k : UnitKey) :
    { p with queues := Function.update p.queues queue q }.contents k =
      ⟨Function.update (p.contents k).units queue (q.getByKey k), (p.contents k).waiting⟩ := by
  ext1
  · funext queue'
    by_cases hqueue : queue' = queue
    · subst hqueue
      simp [contents]
    · simp [contents, hqueue]
  · rfl

theorem contents_put_of_ne (h : k ≠ u.unitKey) : (p.put queue u).contents k = p.contents k := by
  rw [put, contents_setQueue, getByKey_add_of_ne _ h]
  exact Contents.ext (update_eq_self ..) rfl

theorem contents_remove_of_ne (h : k ≠ k') : (p.remove queue k').contents k = p.contents k := by
  rw [remove, contents_setQueue, getByKey_deleteByKey_of_ne _ h]
  exact Contents.ext (update_eq_self ..) rfl

theorem contents_put_self (u : QueuedUnitInfo) : (p.put queue u).contents u.unitKey =
      ⟨Function.update (p.contents u.unitKey).units queue (some u),
        (p.contents u.unitKey).waiting⟩ := by
  rw [put, contents_setQueue, getByKey_add_self]

theorem contents_remove_self (k : UnitKey) : (p.remove queue k).contents k =
      ⟨Function.update (p.contents k).units queue none, (p.contents k).waiting⟩ := by
  rw [remove, contents_setQueue, getByKey_deleteByKey_self]

end

theorem getByKey_of_slot (h : p.contents k = (Slot.unit queue u).contents) :
    (p.queues queue).getByKey k = some u := by
  change (p.contents k).units queue = some u
  rw [h]
  simp [Slot.contents]

theorem unitKey_of_slot (h : p.contents k = (Slot.unit queue u).contents) : u.unitKey = k :=
  key_of_getByKey (getByKey_of_slot h)

theorem contents_put_of_empty (h : p.contents u.unitKey = Slot.empty.contents) :
    (p.put queue u).contents u.unitKey = (Slot.unit queue u).contents := by
  rw [contents_put_self, h]
  rfl

theorem contents_remove_of_unit (h : p.contents k = (Slot.unit queue u).contents) :
    (p.remove queue k).contents k = Slot.empty.contents := by
  rw [contents_remove_self, h]
  simp only [Slot.contents, update_idem]
  rw [update_eq_self_iff.mpr rfl]

theorem find_of_contents (h : ∀ queue, (p.contents k).units queue = none) : p.find k = none := by
  have hget : ∀ queue, (p.queues queue).getByKey k = none := h
  simp [find, hget]

theorem find_of_unit (h : p.contents k = (Slot.unit queue u).contents) :
    p.find k = some (queue, u) := by
  have hget : ∀ q, (p.queues q).getByKey k = if q = queue then some u else none := by
    intro q
    have hq := congrFun (congrArg Contents.units h) q
    simpa [Slot.contents, contents, update_apply] using hq
  cases queue <;> simp [find, hget]

theorem findAndRemove_of_unit (h : p.contents k = (Slot.unit queue u).contents) :
    p.findAndRemoveUnitFromQueue k = (some (queue, u), p.remove queue k) := by
  simp [findAndRemoveUnitFromQueue, find_of_unit h]

theorem findAndRemove_of_contents (h : ∀ queue, (p.contents k).units queue = none) :
    p.findAndRemoveUnitFromQueue k = (none, p) := by
  simp [findAndRemoveUnitFromQueue, find_of_contents h]

theorem contents_setWaiting (p : PriorityQueue) (l : WaitingPodsList) (k : UnitKey) :
    { p with waitingPodsList := l }.contents k = ⟨(p.contents k).units, l.getByKey k⟩ := rfl

theorem contents_setWaiting_of_eq {l : WaitingPodsList}
    (h : l.getByKey k = p.waitingPodsList.getByKey k) :
    { p with waitingPodsList := l }.contents k = p.contents k := by
  rw [contents_setWaiting, h]
  rfl

theorem contents_eq_empty (hunits : ∀ queue, (p.contents k).units queue = none)
    (hw : p.waitingPodsList.getByKey k = none) : p.contents k = Slot.empty.contents := by
  ext1
  · funext queue
    exact hunits queue
  · exact hw

theorem contents_eq_waiting {w : WaitingPods} (hunits : ∀ queue, (p.contents k).units queue = none)
    (hw : p.waitingPodsList.getByKey k = some w) : p.contents k = (Slot.waiting w).contents := by
  ext1
  · funext queue
    exact hunits queue
  · exact hw

/-- The queue has one slot for the key, with the pods `v`. -/
def HoldsAt (p : PriorityQueue) (k : UnitKey) (v : PodView) : Prop :=
  ∃ s : Slot, p.contents k = s.contents ∧ s.Grouped k ∧ s.view = v

theorem HoldsAt.congr {v : PodView} (h : p.HoldsAt k v) (hp : p'.contents k = p.contents k) :
    p'.HoldsAt k v := by
  obtain ⟨s, hs, hg, hv⟩ := h
  exact ⟨s, hp.trans hs, hg, hv⟩

theorem holdsAt_put (h : p.contents u.unitKey = Slot.empty.contents) :
    (p.put queue u).HoldsAt u.unitKey (unitView u) :=
  ⟨.unit queue u, contents_put_of_empty h, trivial, rfl⟩

def Represents (p : PriorityQueue) (v : UnitKey → PodView) : Prop := ∀ k, p.HoldsAt k (v k)

/-- `p'` differs from `p` at the key only, where it has a slot with the pods `v`. -/
structure Settles (p p' : PriorityQueue) (k : UnitKey) (v : PodView) : Prop where
  frame : ∀ k', k' ≠ k → p'.contents k' = p.contents k'
  holds : p'.HoldsAt k v

theorem Represents.settle {v : UnitKey → PodView} {v' : PodView} (h : p.Represents v)
    (hs : Settles p p' k v') : p'.Represents (Function.update v k v') := by
  intro k'
  by_cases hk : k' = k
  · subst hk
    rw [update_self]
    exact hs.holds
  · rw [update_of_ne hk]
    exact (h k').congr (hs.frame k' hk)

theorem settles_put (queue : QueueName) (hu : u.unitKey = k)
    (h : p.contents k = Slot.empty.contents) : Settles p (p.put queue u) k (unitView u) := by
  subst hu
  exact ⟨fun _ hk => contents_put_of_ne p queue hk, holdsAt_put h⟩

theorem settles_replace {old : QueuedUnitInfo} (queue' : QueueName) (hu : u.unitKey = k)
    (h : p.contents k = (Slot.unit queue old).contents) :
    Settles p ((p.remove queue k).put queue' u) k (unitView u) := by
  subst hu
  constructor
  · intro k' hk
    rw [contents_put_of_ne _ _ hk, contents_remove_of_ne p _ hk]
  · exact holdsAt_put (contents_remove_of_unit h)

end PriorityQueue

section

namespace WaitingPods

theorem view_new (k : UnitKey) : (new k).view = .none := by
  funext uid
  simp [view, podView, new, PodView.none]

theorem view_set (w : WaitingPods) (info : QueuedPodInfo)
    (h : getUnitIdentifier info.pod = w.unitKey) : (w.set info h).view = w.view.set info.pod := by
  funext uid
  by_cases huid : uid = info.pod.uid
  · subst huid
    have hget : (w.pods.add info).getByKey info.pod.uid = some info :=
      getByKey_add_self w.pods info
    simp [view, podView, set, PodView.set, hget]
  · have hget : (w.pods.add info).getByKey uid = w.pods.getByKey uid :=
      getByKey_add_of_ne w.pods huid
    simp [view, podView, set, PodView.set, hget, huid]

theorem view_delete (w : WaitingPods) (uid : String) : (w.delete uid).view = w.view.erase uid := by
  funext uid'
  by_cases huid : uid' = uid
  · subst huid
    simp [view, podView, delete, PodView.erase]
  · have hget := getByKey_deleteByKey_of_ne w.pods huid
    simp [view, podView, delete, PodView.erase, hget, huid]

end WaitingPods

namespace WaitingPodsList

variable (l : WaitingPodsList)

def viewAt (k : UnitKey) : PodView := ((l.getByKey k).map WaitingPods.view).getD .none

theorem removeExisted_view (pod : Pod) :
    (removeExistedOrCreateWaitingPods l pod).1.1.view = viewAt l (getUnitIdentifier pod) := by
  unfold removeExistedOrCreateWaitingPods viewAt
  split
  next w h => simp [h]
  next h => simp [h, view_new]

theorem getByKey_removeExisted (pod : Pod) (k : UnitKey) :
    (removeExistedOrCreateWaitingPods l pod).2.getByKey k =
      if k = getUnitIdentifier pod then none else l.getByKey k := by
  unfold removeExistedOrCreateWaitingPods
  split
  next w h => exact getByKey_deleteByKey _ _ _
  next h =>
    split_ifs with hk
    · rw [hk, h]
    · rfl

/-- `l'` stores an entry with the pods `v` for the unit of the pod and is `l` elsewhere. -/
def Stores (l' : WaitingPodsList) (pod : Pod) (v : PodView) : Prop :=
  ∃ w : WaitingPods, w.unitKey = getUnitIdentifier pod ∧ w.view = v ∧
    l' = (removeExistedOrCreateWaitingPods l pod).2.add w

variable {l} {l' : WaitingPodsList} {pod : Pod} {v : PodView}

theorem Stores.getByKey_of_ne (h : Stores l l' pod v) {k : UnitKey}
    (hk : k ≠ getUnitIdentifier pod) : l'.getByKey k = l.getByKey k := by
  obtain ⟨w, hw, -, rfl⟩ := h
  rw [getByKey_add_of_ne _ (by rwa [hw]), getByKey_removeExisted, if_neg hk]

theorem Stores.viewAt_eq (h : Stores l l' pod v) : viewAt l' (getUnitIdentifier pod) = v := by
  obtain ⟨w, hw, hv, rfl⟩ := h
  rw [viewAt, getByKey_add, if_pos hw.symm]
  exact hv

theorem stores_addPod (l : WaitingPodsList) (now : ℤ) (pod : Pod) :
    Stores l (addPod l now pod) pod ((viewAt l (getUnitIdentifier pod)).set pod) := by
  refine ⟨_, ?_, ?_, rfl⟩
  · exact (removeExistedOrCreateWaitingPods l pod).1.2
  · rw [← removeExisted_view]
    exact view_set _ _ _

theorem stores_updatePod (l : WaitingPodsList) (now : ℤ) (oldPod newPod : Pod) :
    Stores l (updatePod l now oldPod newPod) newPod
      (((viewAt l (getUnitIdentifier newPod)).erase oldPod.uid).set newPod) := by
  have hkey := (removeExistedOrCreateWaitingPods l newPod).1.2
  rw [← removeExisted_view]
  unfold updatePod
  simp only
  split
  next oldPodInfo hold =>
    refine ⟨_, ?_, ?_, rfl⟩
    · exact hkey
    · apply (view_set _ _ _).trans
      rw [view_delete, key_of_getByKey hold]
      rfl
  next hold =>
    have hview : (removeExistedOrCreateWaitingPods l newPod).1.1.view oldPod.uid = none := by
      simp [WaitingPods.view, podView, hold]
    refine ⟨_, ?_, ?_, rfl⟩
    · exact hkey
    · apply (view_set _ _ _).trans
      rw [PodView.erase, update_eq_self_iff.mpr hview.symm]
      rfl

variable (l)

theorem getByKey_deletePod_of_ne {k : UnitKey} (h : k ≠ getUnitIdentifier pod) :
    (deletePod l pod).getByKey k = l.getByKey k := by
  have hkey := (removeExistedOrCreateWaitingPods l pod).1.2
  unfold deletePod
  simp only
  split_ifs
  · rw [getByKey_add_of_ne _ (by rwa [WaitingPods.delete, hkey]),
      getByKey_removeExisted, if_neg h]
  · rw [getByKey_removeExisted, if_neg h]

/-- Deleting the last waiting pod of a unit deletes the entry. -/
theorem viewAt_deletePod (pod : Pod) :
    viewAt (deletePod l pod) (getUnitIdentifier pod) =
      (viewAt l (getUnitIdentifier pod)).erase pod.uid := by
  have hkey := (removeExistedOrCreateWaitingPods l pod).1.2
  rw [← removeExisted_view l, ← view_delete]
  unfold deletePod
  simp only
  split_ifs with hlen
  · have hkey' : ((removeExistedOrCreateWaitingPods l pod).1.1.delete pod.uid).unitKey =
        getUnitIdentifier pod := hkey
    unfold viewAt
    rw [getByKey_add, if_pos hkey'.symm]
    rfl
  · unfold viewAt
    rw [getByKey_removeExisted, if_pos rfl]
    funext uid
    rw [WaitingPods.view, podView, getByKey_of_len_eq_zero (by omega)]
    rfl

theorem getByKey_deletePod_eq_none (h : l.getByKey (getUnitIdentifier pod) = none) :
    (deletePod l pod).getByKey (getUnitIdentifier pod) = none := by
  have hview : viewAt l (getUnitIdentifier pod) = .none := by simp [viewAt, h]
  have hlen : ¬ ((removeExistedOrCreateWaitingPods l pod).1.1.delete pod.uid).pods.len > 0 := by
    simp only [gt_iff_lt, not_lt, Nat.le_zero]
    apply len_eq_zero_of_getByKey
    intro uid
    have hnone := congrFun (removeExisted_view l pod) uid
    rw [hview] at hnone
    have hget := Option.map_eq_none_iff.mp hnone
    unfold delete
    rw [getByKey_deleteByKey]
    split_ifs
    · rfl
    · exact hget
  unfold deletePod
  simp only
  rw [if_neg hlen, getByKey_removeExisted, if_pos rfl]

end WaitingPodsList

end

end GodelScheduler.Queue
