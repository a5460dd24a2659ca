import GodelScheduler.BinderCache.Departure

/-!
# The clean-up loops of the binder cache

The cache ends the process if a clean-up loop finds a marked or an assumed pod
without a pod state. Assumed pods always have one. A marked pod has one as long
as it is not replaced by a pod of another UID, which drops its state and leaves
its marker.
-/

namespace GodelScheduler.BinderCache.Stores

open Library GenerationStore SchedulerCache

def finishBinding (c : Stores) (pod : Pod) (deadline : ℤ) : Stores :=
  match pod.getPodKey with
  | .error _ => c
  | .ok key =>
    match c.podStore.getPodState key with
    | (some podState, true) =>
      { c with podStore.podStates :=
          c.podStore.podStates.insert key { podState with deadline := some deadline } }
    | _ => c

/-- The process ends if a marked pod has no state. -/
def cleanupPodDeletionMarker (c : Stores) (order : RangeOrder String) (now : ℤ) : Option Stores :=
  (order.list c.markers.keys).foldlM (fun c key =>
    match c.markers.lookup key, (c.podStore.getPodState key).1 with
    | none, _ => some c
    | some _, none => none
    | some info, some _ =>
      if info.markerExpirationTime < now then some { c with markers := c.markers.erase key }
      else some c) c

/-- The process ends if an assumed pod has no state. -/
def cleanupExpiredAssumedPods (c : Stores) (order : RangeOrder String) (now : ℤ) : Option Stores :=
  (order.list c.podStore.assumedPods.keys).foldlM (fun c key =>
    if key ∈ c.podStore.assumedPods then
      (c.podStore.podStates.lookup key).map fun podState =>
        if podState.deadline.any (· < now) then (c.deleteFromStores podState.pod).1 else c
    else some c) c

inductive Op
  | call (op : CacheOp)
  | finishBinding (pod : Pod) (deadline : ℤ)
  | cleanupPodDeletionMarker (order : RangeOrder String) (now : ℤ)
  | cleanupExpiredAssumedPods (order : RangeOrder String) (now : ℤ)

def stepOp (c : Stores) : Op → Option Stores
  | .call op => c.step op
  | .finishBinding pod deadline => some (c.finishBinding pod deadline)
  | .cleanupPodDeletionMarker order now => c.cleanupPodDeletionMarker order now
  | .cleanupExpiredAssumedPods order now => c.cleanupExpiredAssumedPods order now

/-- Every assumed and every marked pod has a state, so that no clean-up ends the process. -/
structure Contained (c : Stores) : Prop where
  assumed : ∀ uid ∈ c.podStore.assumedPods, uid ∈ c.podStore.podStates
  marked : ∀ uid ∈ c.markers, uid ∈ c.podStore.podStates
  markerCleanup : ∀ order now, (c.cleanupPodDeletionMarker order now).isSome
  assumedCleanup : ∀ order now, (c.cleanupExpiredAssumedPods order now).isSome

/-- No marked pod is replaced by a pod of another UID. -/
def KeepsMarkedOp (c : Stores) : Op → Prop
  | .call op => c.KeepsMarked op
  | _ => True

variable {c c' : Stores} {pod : Pod} {uid : String}

theorem Covered.finishBinding (h : c.Covered uid) (deadline : ℤ) :
    (c.finishBinding pod deadline).Covered uid := by
  obtain ⟨hstate, hassumed, hmarked⟩ := h
  unfold Stores.finishBinding Pod.getPodKey PodStore.getPodState
  by_cases hempty : pod.uid = ""
  · simp only [if_pos hempty]
    exact ⟨hstate, hassumed, hmarked⟩
  simp only [if_neg hempty]
  constructor <;> grind [GoMap.lookup_insert', AList.mem_insert]

variable (h : ∀ uid, c.Covered uid)
include h

theorem covered_cleanupPodDeletionMarker (order : RangeOrder String) (now : ℤ) :
    ∃ c', c.cleanupPodDeletionMarker order now = some c' ∧ ∀ uid, c'.Covered uid := by
  refine exists_foldlM_of_step (P := fun _ (c : Stores) => ∀ uid, c.Covered uid) _ h
    fun _ key _ c _ h => ?_
  cases hmarker : c.markers.lookup key with
  | none => exact ⟨c, rfl, h⟩
  | some info =>
    have hmarked : key ∈ c.markers := GoMap.mem_iff_lookup.mpr ⟨info, hmarker⟩
    obtain ⟨podState, hstate⟩ := GoMap.mem_iff_lookup.mp ((h key).marked hmarked).1
    simp only [getPodState_fst_eq, hstate]
    split_ifs
    · exact ⟨_, rfl, fun uid => (h uid).erase key⟩
    · exact ⟨c, rfl, h⟩

theorem covered_cleanupExpiredAssumedPods (order : RangeOrder String) (now : ℤ) :
    ∃ c', c.cleanupExpiredAssumedPods order now = some c' ∧ ∀ uid, c'.Covered uid := by
  refine exists_foldlM_of_step (P := fun _ (c : Stores) => ∀ uid, c.Covered uid) _ h
    fun _ key _ c _ h => ?_
  split_ifs with hassumed
  · obtain ⟨podState, hstate⟩ := GoMap.mem_iff_lookup.mp ((h key).assumed hassumed)
    rw [hstate]
    refine ⟨_, rfl, ?_⟩
    dsimp only
    split_ifs
    · exact fun uid => (h uid).deleteFromStores
    · exact h
  · exact ⟨c, rfl, h⟩

theorem contained_of_covered : c.Contained where
  assumed uid := (h uid).assumed
  marked uid hin := ((h uid).marked hin).1
  markerCleanup order now := by
    obtain ⟨c', hc', -⟩ := covered_cleanupPodDeletionMarker h order now
    rw [hc']
    rfl
  assumedCleanup order now := by
    obtain ⟨c', hc', -⟩ := covered_cleanupExpiredAssumedPods h order now
    rw [hc']
    rfl

theorem covered_stepOp {op : Op} (hop : c.KeepsMarkedOp op) (hstep : c.stepOp op = some c') :
    ∀ uid, c'.Covered uid := by
  cases op with
  | call op => exact fun uid => covered_step h hop hstep
  | finishBinding pod deadline =>
    cases hstep
    exact fun uid => (h uid).finishBinding deadline
  | cleanupPodDeletionMarker order now =>
    obtain ⟨c'', hc'', h''⟩ := covered_cleanupPodDeletionMarker h order now
    exact Option.some_inj.mp (hc''.symm.trans hstep) ▸ h''
  | cleanupExpiredAssumedPods order now =>
    obtain ⟨c'', hc'', h''⟩ := covered_cleanupExpiredAssumedPods h order now
    exact Option.some_inj.mp (hc''.symm.trans hstep) ▸ h''

/-- A marked pod that is replaced by a pod of another UID leaves its marker without a state. -/
theorem marker_stays {oldPod newPod : Pod} (hne : newPod.uid ≠ oldPod.uid)
    (hmarked : oldPod.uid ∈ c.markers) :
    oldPod.uid ∈ (c.updatePod oldPod newPod).1.markers ∧
      oldPod.uid ∉ (c.updatePod oldPod newPod).1.podStore.podStates := by
  obtain ⟨hin, hnot⟩ := (h oldPod.uid).marked hmarked
  obtain ⟨podState, hstate⟩ := GoMap.mem_iff_lookup.mp hin
  obtain ⟨huid, hempty, hbound⟩ := (h oldPod.uid).state podState hstate
  have hpod : podState.pod.boundPod = true := hbound.resolve_left hnot
  simp only [updatePod, Markers.updatePod, PodStore.updatePod, PodStore.getPodState, Pod.getPodKey,
    if_neg hempty, hstate, hnot, PodStore.deletePod, PodStore.podOp, huid, hpod, hin,
    PodStore.addPod, range]
  grind [AList.mem_erase, AList.mem_insert]

omit h

theorem covered_empty (uid : String) : Covered {} uid where
  state podState h := by cases h
  assumed h := absurd h (AList.notMem_empty _)
  marked h := absurd h (AList.notMem_empty _)

/-- In every run of the cache, every assumed and every marked pod has a state exactly if no marked
pod is replaced by a pod of another UID. -/
theorem contained_iff (ops : List Op) :
    AlwaysM stepOp Contained {} ops ↔ AlongM stepOp KeepsMarkedOp {} ops := by
  refine alwaysM_iff_alongM
    (fun c h => contained_of_covered h) (fun c op c' h _ hop hstep => covered_stepOp h hop hstep)
    ?_ covered_empty (alongM_of_forall (fun _ _ => trivial) _)
  intro c op h _ hkeep
  cases op with
  | call op =>
    cases op with
    | updatePod oldPod newPod =>
      by_contra hnot
      obtain ⟨hne, hmarked⟩ := not_or.mp hnot
      obtain ⟨hin, hout⟩ := marker_stays h hne (not_not.mp hmarked)
      exact hout ((hkeep _ rfl).marked _ hin)
    | _ => trivial
  | _ => trivial

open DepartureExample in
/-- The marked pod is replaced by a pod of the same name, and the next clean-up of the markers ends
the process. -/
theorem cleanup_ends_process :
    ∃ c, [.call (.addPod (bound "u")), .call (.markPodToDelete (bound "u") (pending "p") 600),
        .call (.updatePod (bound "u") (pending "v"))].foldlM stepOp {} = some c ∧
      "u" ∈ c.markers ∧ "u" ∉ c.podStore.podStates ∧
      c.cleanupPodDeletionMarker .forward 1 = none := by
  exact ⟨_, rfl, by decide, by decide, by decide⟩

end GodelScheduler.BinderCache.Stores
