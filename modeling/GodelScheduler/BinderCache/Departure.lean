import GodelScheduler.BinderCache.Stores

/-!
# A deleted pod leaves the binder cache

A delete event works on the cached pod and not on its own object, so it finds the
pod wherever the stores keep it, if the stores agree: every cached pod is bound and
on the node it names, and only cached pods are on a node, assumed or marked. The
calls keep this as long as the pods that come in are bound and their UIDs are new,
and as long as a marked pod is not replaced by a pod of another UID: an update
drops the marker of the new pod's UID only, so that the marker of the old one stays.
-/

namespace GodelScheduler.BinderCache

open Library GenerationStore SchedulerCache PodStore GoMap AList Option

/-- Nothing of the UID is in the cache. -/
structure Stores.Absent (c : Stores) (uid : String) : Prop where
  nodes : ∀ node, ∀ pod ∈ c.nodeStore.podsOn node, pod.uid ≠ uid
  states : uid ∉ c.podStore.podStates
  assumed : uid ∉ c.podStore.assumedPods
  markers : uid ∉ c.markers

/-- A pod comes in bound and under a UID that is not cached, and an update that changes the UID
is not about a marked pod. -/
def Stores.Orderly (c : Stores) : CacheOp → Prop
  | .addPod pod => pod.boundPod = true → pod.uid ≠ "" ∧ pod.uid ∉ c.podStore.podStates
  | .updatePod oldPod newPod =>
    (newPod.boundPod = true → newPod.uid ≠ "" ∧
      (newPod.uid = oldPod.uid ∨ newPod.uid ∉ c.podStore.podStates)) ∧
    (newPod.uid = oldPod.uid ∨ oldPod.uid ∉ c.markers)
  | .assumePod pod _ _ => pod.boundPod = true
  | .forgetPod _ | .markPodToDelete _ _ _ | .removeDeletePodMarker _ _
  | .removeDeletePodMarkerByKey _ _ | .deletePod _ => True

instance (c : Stores) : ∀ op, Decidable (c.Orderly op)
  | .addPod _ => inferInstanceAs (Decidable (_ → _))
  | .updatePod _ _ => inferInstanceAs (Decidable (_ ∧ _))
  | .assumePod _ _ _ => inferInstanceAs (Decidable (_ = _))
  | .forgetPod _ => inferInstanceAs (Decidable True)
  | .markPodToDelete _ _ _ => inferInstanceAs (Decidable True)
  | .removeDeletePodMarker _ _ => inferInstanceAs (Decidable True)
  | .removeDeletePodMarkerByKey _ _ => inferInstanceAs (Decidable True)
  | .deletePod _ => inferInstanceAs (Decidable True)

/-- The node infos and the pod states agree, and every cached pod is bound. -/
structure Consistent (n : NodeStore) (s : PodStore) : Prop where
  agreed : CommonStores.Agreed {} ⟨n, s⟩
  bound : ∀ uid pod, s.cachedPod uid = some pod → pod.boundPod = true
  assumed : ∀ uid ∈ s.assumedPods, uid ∈ s.podStates

/-- The stores agree, and only pods that are not assumed are marked. -/
structure Stores.Agreed (c : Stores) : Prop where
  consistent : Consistent c.nodeStore c.podStore
  marked : ∀ uid ∈ c.markers, uid ∈ c.podStore.podStates ∧ uid ∉ c.podStore.assumedPods

namespace Stores

/-- An update that changes the UID is not about a marked pod. -/
def KeepsMarked (c : Stores) : CacheOp → Prop
  | .updatePod oldPod newPod => newPod.uid = oldPod.uid ∨ oldPod.uid ∉ c.markers
  | _ => True

/-- What the cache has under a UID fits together: a pod that is not assumed is bound, and only such
a pod is marked. -/
structure Covered (c : Stores) (uid : String) : Prop where
  state : ∀ podState, c.podStore.podStates.lookup uid = some podState →
    podState.pod.uid = uid ∧ uid ≠ "" ∧
      (uid ∈ c.podStore.assumedPods ∨ podState.pod.boundPod = true)
  assumed : uid ∈ c.podStore.assumedPods → uid ∈ c.podStore.podStates
  marked : uid ∈ c.markers → uid ∈ c.podStore.podStates ∧ uid ∉ c.podStore.assumedPods

theorem getPodState_fst_eq (s : PodStore) (uid : String) :
    (s.getPodState uid).1 = s.podStates.lookup uid := by
  unfold getPodState
  cases s.podStates.lookup uid <;> rfl

section

variable {c c' : Stores} {pod : Pod} {uid : String}

theorem markPodToDelete_cases {preemptor : Pod} {expiration : ℤ}
    {result : Stores × Except String Unit}
    (hcall : c.markPodToDelete pod preemptor expiration = some result) :
    result.1 = c ∨ pod.uid ∈ c.podStore.podStates ∧ pod.uid ∉ c.podStore.assumedPods ∧
      ∃ info, result.1 = { c with markers := c.markers.insert pod.uid info } := by
  unfold markPodToDelete Pod.getPodKey getPodState at hcall
  by_cases huid : pod.uid = ""
  · rw [if_pos huid] at hcall
    cases hcall
    exact .inl rfl
  by_cases hpre : preemptor.uid = ""
  · rw [if_neg huid, if_pos hpre] at hcall
    cases hcall
    exact .inl rfl
  simp only [if_neg huid, if_neg hpre] at hcall
  cases hstate : c.podStore.podStates.lookup pod.uid with
  | none =>
    simp only [hstate, some_inj] at hcall
    exact .inl (hcall ▸ rfl)
  | some podState =>
    by_cases hassumed : pod.uid ∈ c.podStore.assumedPods
    · simp only [hstate, hassumed, decide_true, some_inj] at hcall
      exact .inl (hcall ▸ rfl)
    · simp only [hstate, hassumed, decide_false] at hcall
      split_ifs at hcall
      rw [some_inj] at hcall
      subst hcall
      exact .inr ⟨mem_iff_lookup.mpr ⟨podState, hstate⟩, hassumed, _, rfl⟩

theorem forgetPod_cases {result : Result} (hcall : c.forgetPod pod = some result) :
    result.1 = c ∨ ∃ podState, c.podStore.podStates.lookup pod.uid = some podState ∧
      pod.uid ∈ c.podStore.assumedPods ∧
      podState.pod.getNodeNameFromPod = pod.getNodeNameFromPod ∧
      result.1 = ⟨c.markers, (NodeStore.forgetPod c.nodeStore pod).1,
        ⟨c.podStore.assumedPods.erase pod.uid, c.podStore.podStates.erase pod.uid⟩⟩ := by
  unfold forgetPod Pod.getPodKey at hcall
  by_cases huid : pod.uid = ""
  · rw [if_pos huid] at hcall
    cases hcall
    exact .inl rfl
  simp only [if_neg huid, PodStore.getPodState] at hcall
  cases hstate : c.podStore.podStates.lookup pod.uid with
  | none =>
    simp only [hstate, Bool.not_false, if_true, some_inj] at hcall
    exact .inl (hcall ▸ rfl)
  | some podState =>
    by_cases hassumed : pod.uid ∈ c.podStore.assumedPods
    · simp only [hstate, hassumed, decide_true, Bool.not_true, Bool.false_eq_true, if_false,
        PodStore.forgetPod, Pod.getPodKey, if_neg huid, if_true] at hcall
      split_ifs at hcall with hsame
      · cases hcall
      · rw [map_some, some_inj] at hcall
        subst hcall
        exact .inr ⟨podState, rfl, hassumed, not_not.mp hsame, rfl⟩
    · simp only [hstate, hassumed, decide_false, Bool.not_false, if_true, some_inj] at hcall
      exact .inl (hcall ▸ rfl)

namespace Covered

theorem addPod (h : c.Covered uid) : (c.addPod pod).1.Covered uid := by
  obtain ⟨hstate, hassumed, hmarked⟩ := h
  unfold Stores.addPod range PodStore.addPod PodStore.podOp Pod.getPodKey
  constructor <;> grind [lookup_insert', mem_insert]

theorem deleteFromStores (h : c.Covered uid) : (c.deleteFromStores pod).1.Covered uid := by
  obtain ⟨hstate, hassumed, hmarked⟩ := h
  unfold Stores.deleteFromStores range Markers.deletePod PodStore.deletePod PodStore.podOp
    Pod.getPodKey
  constructor <;> grind [lookup_erase', mem_erase]

theorem assumePod (h : c.Covered uid) {topo : Option MicroTopology} {deadline : ℤ} :
    (c.assumePod pod topo deadline).1.Covered uid := by
  have huid : (withMicroTopology pod topo).uid = pod.uid := by cases topo <;> rfl
  obtain ⟨hstate, hassumed, hmarked⟩ := h
  unfold Stores.assumePod range PodStore.assumePod Pod.getPodKey
  constructor <;> grind [lookup_insert', mem_insert]

theorem erase (h : c.Covered uid) (key : String) :
    Covered { c with markers := c.markers.erase key } uid :=
  ⟨h.state, h.assumed, fun hin => h.marked (mem_erase.mp hin).2⟩

theorem removeDeletePodMarkerByKey (h : c.Covered uid) (podKey preemptorKey : String) :
    (c.removeDeletePodMarkerByKey podKey preemptorKey).1.Covered uid := by
  unfold Stores.removeDeletePodMarkerByKey
  split
  · exact h
  · split_ifs
    · exact h
    · exact h.erase podKey

end Covered

variable (h : ∀ uid, c.Covered uid)
include h

theorem covered_rangeUpdatePod {oldPod newPod : Pod}
    (hmark : newPod.uid = oldPod.uid ∨ oldPod.uid ∉ c.markers) (n : NodeStore) :
    Covered ⟨(c.markers.updatePod (c.podStore.getPodState oldPod.uid).1 oldPod newPod).1, n,
      (PodStore.updatePod c.podStore oldPod newPod).1⟩ uid := by
  obtain ⟨hstate, hassumed, hmarked⟩ := h uid
  unfold Markers.updatePod PodStore.updatePod Pod.getPodKey
  by_cases hempty : oldPod.uid = ""
  · simp only [if_pos hempty]
    exact ⟨hstate, hassumed, hmarked⟩
  simp only [if_neg hempty, getPodState_fst_eq]
  cases hlookup : c.podStore.podStates.lookup oldPod.uid with
  | none =>
    have hadd : (c.addPod newPod).1.Covered uid := (h uid).addPod
    exact ⟨hadd.state, hadd.assumed, hadd.marked⟩
  | some podState =>
    obtain ⟨huid, -, hbound⟩ := (h oldPod.uid).state podState hlookup
    unfold PodStore.deletePod PodStore.addPod PodStore.podOp Pod.getPodKey
    simp only [huid, if_neg hempty, mem_iff_lookup.mpr ⟨podState, hlookup⟩]
    cases hpod : podState.pod.boundPod with
    | false =>
      simp only [Bool.not_false, if_true]
      constructor <;> grind [lookup_insert', mem_insert, mem_erase]
    | true =>
      simp only [Bool.not_true, Bool.false_eq_true, if_false, if_true]
      by_cases hnew : newPod.uid = "" <;> simp only [hnew, if_true, if_false] <;> split_ifs <;>
        constructor <;> grind [lookup_insert', mem_insert, lookup_erase', mem_erase]

theorem covered_step {op : CacheOp} (hop : c.KeepsMarked op) (hstep : c.step op = some c') :
    c'.Covered uid := by
  cases op with
  | addPod pod =>
    cases hstep
    exact (h uid).addPod
  | updatePod oldPod newPod =>
    cases hstep
    have hupdate := @covered_rangeUpdatePod _ uid h _ _ hop
    unfold updatePod
    split_ifs
    · split
      · exact h uid
      · split_ifs
        · exact h uid
        · exact hupdate _
    · exact hupdate _
  | assumePod pod topo deadline =>
    cases hstep
    exact (h uid).assumePod
  | forgetPod pod =>
    obtain ⟨result, hcall, rfl⟩ := map_eq_some_iff.mp hstep
    rcases forgetPod_cases hcall with heq | ⟨podState, hstate, hassumed, -, heq⟩
    · exact heq ▸ h uid
    · obtain ⟨hstate', hassumed', hmarked⟩ := h uid
      rw [heq]
      constructor <;> grind [lookup_erase', mem_erase]
  | markPodToDelete pod preemptor expiration =>
    obtain ⟨result, hcall, rfl⟩ := map_eq_some_iff.mp hstep
    rcases markPodToDelete_cases hcall with heq | ⟨hin, hnot, info, heq⟩
    · exact heq ▸ h uid
    · rw [heq]
      refine ⟨(h uid).state, (h uid).assumed, fun hmarked => ?_⟩
      rcases (mem_insert _).mp hmarked with rfl | hmarked
      · exact ⟨hin, hnot⟩
      · exact (h uid).marked hmarked
  | removeDeletePodMarker pod preemptor =>
    cases hstep
    unfold removeDeletePodMarker
    split
    · exact h uid
    · exact h uid
    · exact (h uid).removeDeletePodMarkerByKey _ _
  | removeDeletePodMarkerByKey podKey preemptorKey =>
    cases hstep
    exact (h uid).removeDeletePodMarkerByKey podKey preemptorKey
  | deletePod pod =>
    cases hstep
    unfold deletePod
    split
    · exact h uid
    · split
      · exact (h uid).deleteFromStores
      · exact (h uid).deleteFromStores

end

end Stores

section

variable {n : NodeStore} {s : PodStore} {pod p : Pod}

theorem exists_node_of_bound (h : pod.boundPod = true) :
    ∃ nodeName, pod.getNodeNameFromPod = some nodeName := by
  obtain ⟨nodeName, hnode⟩ := isSome_iff_exists.mp h
  exact ⟨nodeName, by rw [Pod.getNodeNameFromPod, hnode]⟩

theorem considers_of_bound (h : pod.boundPod = true) (huid : pod.uid ≠ "") : considers {} pod :=
  ⟨by rw [assumedOrBoundPod, h, Bool.true_or], huid⟩

theorem mem_podStates_iff {uid : String} : uid ∈ s.podStates ↔ ∃ p, s.cachedPod uid = some p := by
  constructor
  · intro hin
    obtain ⟨podState, hlookup⟩ := mem_iff_lookup.mp hin
    exact ⟨podState.pod, cachedPod_of_lookup hlookup⟩
  · rintro ⟨p, hp⟩
    exact mem_podStates hp

variable {nodeName : NodeName}

theorem Consistent.add (h : Consistent n s) (hbound : pod.boundPod = true) (huid : pod.uid ≠ "")
    (hnew : pod.uid ∉ s.podStates) (hnode : pod.getNodeNameFromPod = some nodeName) {s' : PodStore}
    {podState : CachePodState} (hpod : podState.pod = pod)
    (hstates : s'.podStates = s.podStates.insert pod.uid podState)
    (hassumed : ∀ uid ∈ s'.assumedPods, uid = pod.uid ∨ uid ∈ s.assumedPods) :
    Consistent (n.addTo nodeName pod) s' := by
  have hcached : s'.cachedPod = Function.update s.cachedPod pod.uid (some pod) := by
    rw [cachedPod_insert podState hstates, hpod]
  refine ⟨h.agreed.add (considers_of_bound hbound huid) hnode
    (cachedPod_eq_none.mpr hnew) hcached, fun uid q hq => ?_, fun uid hin => ?_⟩
  · rw [hcached, Function.update_apply] at hq
    split_ifs at hq
    · cases hq
      exact hbound
    · exact h.bound uid q hq
  · rw [hstates, mem_insert]
    exact (hassumed uid hin).imp_right (h.assumed uid)

theorem Consistent.remove (h : Consistent n s) (hold : s.cachedPod p.uid = some p)
    (hnode : p.getNodeNameFromPod = some nodeName) {n' : NodeStore}
    (hremoved : NodeStore.Removed n nodeName p n') {s' : PodStore}
    (hstates : s'.podStates = s.podStates.erase p.uid)
    (hassumed : s'.assumedPods = s.assumedPods.erase p.uid) : Consistent n' s' := by
  have hcached := cachedPod_erase hstates
  refine ⟨h.agreed.remove hnode hold hremoved hcached, fun uid q hq => ?_, fun uid hin => ?_⟩
  · rw [hcached, Function.update_apply] at hq
    split_ifs at hq
    exact h.bound uid q hq
  · rw [hassumed, mem_erase] at hin
    rw [hstates, mem_erase]
    exact ⟨hin.1, h.assumed uid hin.2⟩

theorem Consistent.addPod (h : Consistent n s)
    (hpod : pod.boundPod = true → pod.uid ≠ "" ∧ pod.uid ∉ s.podStates) :
    Consistent (NodeStore.addPod n pod).1 (PodStore.addPod s pod).1 := by
  unfold NodeStore.addPod PodStore.addPod
  cases hbound : pod.boundPod with
  | false => exact h
  | true =>
    obtain ⟨huid, hnew⟩ := hpod hbound
    obtain ⟨nodeName, hnode⟩ := exists_node_of_bound hbound
    simp only [hnode, PodStore.podOp, Pod.getPodKey, if_neg huid, if_neg hnew, Bool.not_true,
      Bool.false_eq_true, if_false, if_true]
    exact h.add hbound huid hnew hnode rfl rfl fun _ hin => .inr hin

theorem putsBack_dropOrSet (h : n.AllPlaced) :
    n.PutsBack nodeName (NodeStore.dropOrSet n nodeName) :=
  NodeStore.putsBack_dropIf h rfl _

theorem Consistent.deletePod (h : Consistent n s) (hold : s.cachedPod p.uid = some p) :
    (NodeStore.deletePod n p).2 = .ok () ∧ (PodStore.deletePod s p).2 = .ok () ∧
      (PodStore.deletePod s p).1.podStates = s.podStates.erase p.uid ∧
      Consistent (NodeStore.deletePod n p).1 (PodStore.deletePod s p).1 := by
  have hbound := h.bound _ _ hold
  have huid : p.uid ≠ "" := (h.agreed.considered _ _ hold).2
  obtain ⟨nodeName, hnode⟩ := exists_node_of_bound hbound
  have hnodeStore : NodeStore.deletePod n p =
      n.removeWith (NodeStore.dropOrSet n nodeName) nodeName p := by
    simp only [NodeStore.deletePod, hbound, hnode]
    rfl
  obtain ⟨hok, hremoved⟩ := h.agreed.removeWith_of_cached
    (putsBack_dropOrSet h.agreed.placed) hnode hold
  rw [hnodeStore]
  simp only [PodStore.deletePod, hbound, PodStore.podOp, Pod.getPodKey, if_neg huid, Bool.not_true,
    Bool.false_eq_true, if_false, if_pos (mem_podStates hold)]
  exact ⟨hok, trivial, trivial, h.remove hold hnode hremoved rfl rfl⟩

theorem Consistent.deletePod_of_not_cached (h : Consistent n s) (hnone : pod.uid ∉ s.podStates) :
    (NodeStore.deletePod n pod).1 = n ∧ (PodStore.deletePod s pod).1 = s := by
  unfold NodeStore.deletePod PodStore.deletePod PodStore.podOp Pod.getPodKey
  cases pod.boundPod with
  | false => exact ⟨rfl, rfl⟩
  | true =>
    simp only [Bool.not_true, Bool.false_eq_true, if_false]
    constructor
    · cases pod.getNodeNameFromPod with
      | none => rfl
      | some nodeName =>
        exact h.agreed.removeWith_of_not_cached
          (putsBack_dropOrSet h.agreed.placed)
          (cachedPod_eq_none.mpr hnone)
    · by_cases huid : pod.uid = ""
      · simp only [if_pos huid]
      · simp only [if_neg huid, if_neg hnone]

theorem Consistent.updatePod (h : Consistent n s) {oldPod newPod : Pod}
    (hnew : newPod.boundPod = true → newPod.uid ≠ "" ∧
      (newPod.uid = oldPod.uid ∨ newPod.uid ∉ s.podStates)) :
    Consistent (NodeStore.updatePod n (s.getPodState oldPod.uid).1 oldPod newPod).1
      (PodStore.updatePod s oldPod newPod).1 := by
  unfold NodeStore.updatePod PodStore.updatePod Pod.getPodKey
  by_cases huid : oldPod.uid = ""
  · simp only [if_pos huid]
    exact h
  simp only [if_neg huid, Stores.getPodState_fst_eq]
  cases hstate : s.podStates.lookup oldPod.uid with
  | none =>
    have hnone : oldPod.uid ∉ s.podStates := AList.lookup_eq_none.mp hstate
    exact h.addPod fun hbound =>
      ⟨(hnew hbound).1, (hnew hbound).2.elim (fun heq => heq ▸ hnone) id⟩
  | some podState =>
    have hcached := cachedPod_of_lookup hstate
    have hpuid := h.agreed.catalogued.key_eq _ _ hcached
    obtain ⟨hnodeOk, hpodOk, hstates, hconsistent⟩ := h.deletePod (h.agreed.cached_self hcached)
    dsimp only
    rcases hnode : NodeStore.deletePod n podState.pod with ⟨n', _ | _⟩
    · rw [hnode] at hnodeOk
      cases hnodeOk
    rcases hpod : PodStore.deletePod s podState.pod with ⟨s', _ | _⟩
    · rw [hpod] at hpodOk
      cases hpodOk
    rw [hpod, hpuid] at hstates
    rw [hnode, hpod] at hconsistent
    refine hconsistent.addPod fun hbound => ⟨(hnew hbound).1, fun hin => ?_⟩
    rw [hstates, mem_erase] at hin
    exact (hnew hbound).2.elim hin.1 fun hout => hout hin.2

end

namespace Stores

variable {c c' : Stores} {pod : Pod}

theorem agreed_empty : Agreed {} := by
  refine ⟨⟨CommonStores.agreed_new, ?_, ?_⟩, ?_⟩
  · intro uid pod h
    cases h
  · intro uid h
    exact absurd h (notMem_empty _)
  · intro uid h
    exact absurd h (notMem_empty _)

section

variable (h : c.Agreed)

include h

theorem Agreed.absent {uid : String} (hnone : uid ∉ c.podStore.podStates) : c.Absent uid where
  nodes _ := h.consistent.agreed.catalogued.key_ne (cachedPod_eq_none.mpr hnone)
  states := hnone
  assumed := fun hin => hnone (h.consistent.assumed uid hin)
  markers := fun hin => hnone (h.marked uid hin).1

theorem Agreed.uid_ne_empty {uid : String} (hin : uid ∈ c.podStore.podStates) : uid ≠ "" := by
  obtain ⟨p, hp⟩ := mem_podStates_iff.mp hin
  rw [← h.consistent.agreed.catalogued.key_eq uid p hp]
  exact (h.consistent.agreed.considered uid p hp).2

theorem Agreed.covered (uid : String) : c.Covered uid where
  state _ hstate :=
    have hcached := cachedPod_of_lookup hstate
    ⟨h.consistent.agreed.catalogued.key_eq _ _ hcached,
      h.uid_ne_empty (mem_podStates hcached), .inr (h.consistent.bound _ _ hcached)⟩
  assumed := h.consistent.assumed uid
  marked := h.marked uid

theorem Agreed.consistent_deletePod (pod : Pod) :
    Consistent (c.deletePod pod).1.nodeStore (c.deletePod pod).1.podStore ∧
      pod.uid ∉ (c.deletePod pod).1.podStore.podStates := by
  unfold Stores.deletePod Pod.getPodKey
  by_cases huid : pod.uid = ""
  · rw [if_pos huid]
    exact ⟨h.consistent, fun hin => h.uid_ne_empty hin huid⟩
  rw [if_neg huid]
  dsimp only
  rw [getPodState_fst_eq]
  cases hstate : c.podStore.podStates.lookup pod.uid with
  | some podState =>
    have hcached := cachedPod_of_lookup hstate
    have hpuid := h.consistent.agreed.catalogued.key_eq _ _ hcached
    obtain ⟨-, -, hstates, hconsistent⟩ :=
      h.consistent.deletePod (h.consistent.agreed.cached_self hcached)
    simp only [deleteFromStores, range, hstates, hpuid]
    exact ⟨hconsistent, fun hin => (mem_erase.mp hin).1 rfl⟩
  | none =>
    have hnone : pod.uid ∉ c.podStore.podStates := AList.lookup_eq_none.mp hstate
    obtain ⟨hn, hs⟩ := h.consistent.deletePod_of_not_cached hnone
    simp only [deleteFromStores, range, hn, hs]
    exact ⟨h.consistent, hnone⟩

theorem Agreed.consistent_assumePod {topo : Option MicroTopology} {deadline : ℤ}
    (hbound : pod.boundPod = true) :
    Consistent (c.assumePod pod topo deadline).1.nodeStore
      (c.assumePod pod topo deadline).1.podStore := by
  unfold Stores.assumePod Pod.getPodKey
  by_cases huid : pod.uid = ""
  · rw [if_pos huid]
    exact h.consistent
  simp only [if_neg huid, getPodState_fst_eq]
  cases hstate : c.podStore.podStates.lookup pod.uid with
  | some _ => exact h.consistent
  | none =>
    have hnew : pod.uid ∉ c.podStore.podStates := AList.lookup_eq_none.mp hstate
    obtain ⟨hquid, hqbound⟩ : (withMicroTopology pod topo).uid = pod.uid ∧
        (withMicroTopology pod topo).boundPod = true := by
      cases topo <;> exact ⟨rfl, hbound⟩
    obtain ⟨nodeName, hnode⟩ := exists_node_of_bound hqbound
    rw [← hquid] at huid hnew
    simp only [range, NodeStore.assumePod, hnode, PodStore.assumePod, Pod.getPodKey, if_neg huid,
      if_neg hnew]
    exact h.consistent.add hqbound huid hnew hnode rfl rfl fun uid hin =>
      (mem_insert _).mp hin

theorem Agreed.consistent_forgetPod {result : Result} (hcall : c.forgetPod pod = some result) :
    Consistent result.1.nodeStore result.1.podStore := by
  rcases forgetPod_cases hcall with heq | ⟨podState, hstate, -, hsame, heq⟩
  · rw [heq]
    exact h.consistent
  · have hcached := cachedPod_of_lookup hstate
    have hpuid := h.consistent.agreed.catalogued.key_eq _ _ hcached
    obtain ⟨nodeName, hnode⟩ := exists_node_of_bound (h.consistent.bound _ _ hcached)
    have hnodeStore : NodeStore.forgetPod c.nodeStore pod =
        c.nodeStore.removeFrom nodeName pod := by
      simp only [NodeStore.forgetPod, hsame.symm.trans hnode]
      rfl
    have hremoved := (h.consistent.agreed.removeWith_of_cached
      (NodeStore.putsBack_dropOrSet h.consistent.agreed.placed)
      hnode hcached).2
    rw [← hpuid] at hcached
    rw [heq, hnodeStore]
    exact h.consistent.remove hcached hnode hremoved (by rw [hpuid]) (by rw [hpuid])

theorem Agreed.step {op : CacheOp} (hop : c.Orderly op)
    (hstep : c.step op = some c') : c'.Agreed := by
  have hmarked : c.KeepsMarked op := by
    cases op with
    | updatePod oldPod newPod => exact hop.2
    | _ => trivial
  refine ⟨?_, fun uid => (covered_step h.covered hmarked hstep).marked⟩
  cases op with
  | addPod pod =>
    cases hstep
    exact h.consistent.addPod hop
  | updatePod oldPod newPod =>
    cases hstep
    have hupdate := h.consistent.updatePod hop.1
    simp only [updatePod]
    split_ifs
    · cases oldPod.getPodKey with
      | error e => exact h.consistent
      | ok key =>
        dsimp only
        split_ifs
        · exact h.consistent
        · exact hupdate
    · exact hupdate
  | assumePod pod topo deadline =>
    cases hstep
    exact h.consistent_assumePod hop
  | forgetPod pod =>
    obtain ⟨result, hcall, rfl⟩ := map_eq_some_iff.mp hstep
    exact h.consistent_forgetPod hcall
  | markPodToDelete pod preemptor expiration =>
    obtain ⟨result, hcall, rfl⟩ := map_eq_some_iff.mp hstep
    rcases markPodToDelete_cases hcall with heq | ⟨-, -, info, heq⟩
    · rw [heq]
      exact h.consistent
    · rw [heq]
      exact h.consistent
  | removeDeletePodMarker pod preemptor =>
    cases hstep
    unfold removeDeletePodMarker removeDeletePodMarkerByKey
    repeat' split
    all_goals exact h.consistent
  | removeDeletePodMarkerByKey podKey preemptorKey =>
    cases hstep
    unfold removeDeletePodMarkerByKey
    repeat' split
    all_goals exact h.consistent
  | deletePod pod =>
    cases hstep
    exact (h.consistent_deletePod pod).1

end

/-- In every cache that orderly calls reach, a delete event leaves nothing of its UID behind,
whatever object it carries. -/
theorem absent_after_deletePod (ops : List CacheOp) (hops : AlongM step Orderly {} ops)
    (hrun : ops.foldlM step {} = some c) (pod : Pod) : (c.deletePod pod).1.Absent pod.uid := by
  have hagreed : c.Agreed :=
    of_alongM (fun _ _ _ h hop hstep => h.step hop hstep) agreed_empty hops hrun
  have horderly : c.Orderly (.deletePod pod) := trivial
  have hafter : (c.deletePod pod).1.Agreed := hagreed.step horderly rfl
  exact hafter.absent (hagreed.consistent_deletePod pod).2

namespace DepartureExample

def node : NodeName := nodeNamed "-1"

def other : NodeName := nodeNamed "-2"

def pending (uid : String) : Pod := { uid, ns := "default", name := "pod" }

def bound (uid : String) : Pod := { pending uid with nodeName := some node }

end DepartureExample

open DepartureExample in
/-- A marked pod that moved to another node is deleted by an object that has no node. -/
theorem absent_after_stale_delete :
    let ops : List CacheOp :=
      [.addPod (bound "u"), .markPodToDelete (bound "u") (pending "p") 600,
        .updatePod (bound "u") { bound "u" with nodeName := some other }]
    AlongM step Orderly {} ops ∧
      ∃ c, ops.foldlM step {} = some c ∧ "u" ∈ c.markers ∧
        (c.deletePod (pending "u")).1.Absent "u" := by
  intro ops
  have hops : AlongM step Orderly {} ops := by decide
  refine ⟨hops, _, rfl, by decide, ?_⟩
  exact absent_after_deletePod ops hops rfl (pending "u")

open DepartureExample in
/-- A marked pod is replaced by a pod of the same name: its marker stays, also after a delete
event. A pod assumed without a node name of its own stays in every store. -/
theorem deleted_pod_stays :
    (∃ c, [.addPod (bound "u"), .markPodToDelete (bound "u") (pending "p") 600,
        .updatePod (bound "u") (pending "v")].foldlM step {} = some c ∧
      "u" ∈ (c.deletePod (pending "u")).1.markers ∧
      ¬ (c.deletePod (pending "u")).1.Absent "u") ∧
    (∃ c, [.assumePod { pending "u" with assumedNode := some node } none 900].foldlM step {} =
        some c ∧
      "u" ∈ (c.deletePod (bound "u")).1.podStore.podStates ∧
      "u" ∈ (c.deletePod (bound "u")).1.podStore.assumedPods ∧
      ¬ (c.deletePod (bound "u")).1.Absent "u") := by
  refine ⟨⟨_, rfl, ?_⟩, ⟨_, rfl, ?_⟩⟩
  · refine ⟨by decide, fun h => h.markers (by decide)⟩
  · refine ⟨by decide, by decide, fun h => h.states (by decide)⟩

/-- In every cache that orderly calls reach, a node has exactly the cached pods of the node, each
once, and a pod that is being deleted is cached and not assumed. -/
theorem agree_of_orderly (ops : List CacheOp) (hops : AlongM step Orderly {} ops)
    (hrun : ops.foldlM step {} = some c) :
    (∀ node pod, (c.nodeStore.podsOn node).count pod =
        if c.podStore.cachedPod pod.uid = some pod ∧ pod.getNodeNameFromPod = some node then 1
        else 0) ∧
      (∀ uid ∈ c.podStore.assumedPods, uid ∈ c.podStore.podStates) ∧
      ∀ uid ∈ c.markers, uid ∈ c.podStore.podStates ∧ uid ∉ c.podStore.assumedPods := by
  have h : c.Agreed := of_alongM (fun _ _ _ h hop hstep => h.step hop hstep) agreed_empty hops hrun
  exact ⟨h.consistent.agreed.catalogued.count, h.consistent.assumed, h.marked⟩

open DepartureExample in
/-- A pod is marked, and another one is assumed and forgotten. -/
theorem agree_mark_assume_forget :
    let ops : List CacheOp :=
      [.addPod (bound "u"), .markPodToDelete (bound "u") (pending "p") 600,
        .assumePod (bound "v") none 900, .forgetPod (bound "v")]
    AlongM step Orderly {} ops ∧
      ∃ c, ops.foldlM step {} = some c ∧ (c.nodeStore.podsOn node).count (bound "u") = 1 := by
  intro ops
  have hops : AlongM step Orderly {} ops := by decide
  refine ⟨hops, _, rfl, ?_⟩
  exact (agree_of_orderly ops hops rfl).1 node (bound "u")

end Stores

end GodelScheduler.BinderCache
