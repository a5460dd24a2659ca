import GodelScheduler.Library.Catalogue
import GodelScheduler.SchedulerCache.PodPlacement

/-!
# The node store and the pod store agree

The pod store is the index of the cached pods and the node infos are the shelves
they are on: every cached pod is on the node it names, once, and nothing else is
on any node. The stores apply the same filter to the pod they are given, but only
the node store needs a node name and only the pod store refuses a key twice, so a
call keeps the agreement if both stores can carry it out.
-/

namespace GodelScheduler.SchedulerCache

open Library GenerationStore NodeStore Option

variable {pod : Pod} {podInfo : CachePodInfo}

namespace PodStore

variable {s : PodStore} {handler : Handler}

/-- `GetPod`: the pod the store holds for a UID. -/
def cachedPod (s : PodStore) (uid : String) : Option Pod :=
  (s.podStates.lookup uid).map CachePodState.pod

variable {uid : String}

theorem cachedPod_eq_none : s.cachedPod uid = none ↔ uid ∉ s.podStates := by
  unfold cachedPod
  rw [map_eq_none_iff, AList.lookup_eq_none]

theorem cachedPod_of_lookup {podState : CachePodState}
    (h : s.podStates.lookup uid = some podState) :
    s.cachedPod uid = some podState.pod := by
  rw [cachedPod, h]
  rfl

theorem mem_podStates (h : s.cachedPod uid = some pod) : uid ∈ s.podStates := by
  by_contra hnot
  rw [cachedPod_eq_none.mpr hnot] at h
  cases h

theorem cachedPod_insert {s' : PodStore} (podState : CachePodState)
    (hs' : s'.podStates = s.podStates.insert uid podState) :
    s'.cachedPod = Function.update s.cachedPod uid (some podState.pod) := by
  funext k
  unfold cachedPod
  rw [hs', GoMap.lookup_insert', Function.update_apply]
  split_ifs <;> rfl

theorem cachedPod_erase {s' : PodStore} (hs' : s'.podStates = s.podStates.erase uid) :
    s'.cachedPod = Function.update s.cachedPod uid none := by
  funext k
  unfold cachedPod
  rw [hs', GoMap.lookup_erase', Function.update_apply]
  split_ifs <;> rfl

theorem addPod_eq (s : PodStore) (handler : Handler) (pod : Pod) :
    s.addPod handler pod =
      if assumedOrBoundPod handler pod then s.podOp pod true else (s, .ok ()) := by
  unfold addPod assumedOrBoundPod
  cases pod.boundPod <;> cases pod.assumedPodOfGodel handler.schedulerType <;> rfl

theorem deletePod_eq (s : PodStore) (handler : Handler) (pod : Pod) :
    s.deletePod handler pod =
      if assumedOrBoundPod handler pod then s.podOp pod false else (s, .ok ()) := by
  unfold deletePod assumedOrBoundPod
  cases pod.boundPod <;> cases pod.assumedPodOfGodel handler.schedulerType <;> rfl

theorem cachedPod_addPod (hpod : considers handler pod) (hnone : s.cachedPod pod.uid = none) :
    (s.addPod handler pod).1.cachedPod = Function.update s.cachedPod pod.uid (some pod) := by
  simp only [addPod_eq, if_pos hpod.1, podOp, Pod.getPodKey, if_neg hpod.2, if_true,
    if_neg (cachedPod_eq_none.mp hnone)]
  exact cachedPod_insert { pod := pod } rfl

theorem deletePod_of_cached {pod p : Pod} (hpod : considers handler pod)
    (hcached : s.cachedPod pod.uid = some p) :
    (s.deletePod handler pod).2 = .ok () ∧
      (s.deletePod handler pod).1.cachedPod = Function.update s.cachedPod pod.uid none := by
  simp only [deletePod_eq, if_pos hpod.1, podOp, Pod.getPodKey, if_neg hpod.2,
    Bool.false_eq_true, if_false, if_pos (mem_podStates hcached)]
  exact ⟨trivial, cachedPod_erase rfl⟩

theorem deletePod_of_not_cached (hnone : s.cachedPod pod.uid = none) :
    (s.deletePod handler pod).1 = s := by
  rw [deletePod_eq]
  split_ifs
  · unfold podOp Pod.getPodKey
    by_cases huid : pod.uid = ""
    · simp only [if_pos huid]
    · simp only [if_neg huid, Bool.false_eq_true, if_false, if_neg (cachedPod_eq_none.mp hnone)]
  · rfl

theorem cachedPod_assumePod (huid : podInfo.pod.uid ≠ "")
    (hnone : s.cachedPod podInfo.pod.uid = none) :
    (s.assumePod podInfo).1.cachedPod =
      Function.update s.cachedPod podInfo.pod.uid (some podInfo.pod) := by
  simp only [assumePod, Pod.getPodKey, if_neg huid, if_neg (cachedPod_eq_none.mp hnone)]
  exact cachedPod_insert { pod := podInfo.pod } rfl

theorem cachedPod_forgetPod (huid : podInfo.pod.uid ≠ "")
    (hcached : s.cachedPod podInfo.pod.uid = some podInfo.pod)
    (hassumed : podInfo.pod.uid ∈ s.assumedPods) :
    (s.forgetPod podInfo).1.cachedPod = Function.update s.cachedPod podInfo.pod.uid none := by
  obtain ⟨podState, hstate, hpod⟩ := map_eq_some_iff.mp hcached
  simp only [forgetPod, Pod.getPodKey, if_neg huid, hstate, hpod, ne_eq, not_true_eq_false,
    if_false, if_pos hassumed]
  exact cachedPod_erase rfl

theorem cachedPod_finishReserving (s : PodStore) (pod : Pod) (deadline : ℤ) :
    (s.finishReserving pod deadline).1.cachedPod = s.cachedPod := by
  unfold finishReserving
  cases pod.getPodKey with
  | error e => rfl
  | ok key =>
    cases hstate : s.podStates.lookup key with
    | none =>
      simp only [hstate]
    | some currState =>
      simp only [hstate]
      split_ifs
      · rw [cachedPod_insert _ rfl]
        funext k
        rw [Function.update_apply]
        split_ifs with hk
        · rw [hk, cachedPod_of_lookup hstate]
        · rfl
      · rfl

end PodStore

namespace CommonStores

variable {handler : Handler} {c : CommonStores}

/-- Every cached pod is in one node info, that of the node it names, once, and no node info has
another pod. -/
structure Agree (c : CommonStores) : Prop where
  states : ∀ uid pod, c.podStore.cachedPod uid = some pod →
    ∃ nodeName, pod.getNodeNameFromPod = some nodeName ∧
      ∀ node, (c.nodeStore.podsOn node).filter (fun p => p.uid = pod.uid) =
        if node = nodeName then [pod] else []
  nodes : ∀ node, ∀ pod ∈ c.nodeStore.podsOn node, c.podStore.cachedPod pod.uid = some pod

/-- The agreement with what keeps it going: the filter lets every cached pod pass, so that both
stores remove it again. -/
structure Agreed (handler : Handler) (c : CommonStores) : Prop where
  placed : c.AllPlaced
  considered : ∀ uid pod, c.podStore.cachedPod uid = some pod → considers handler pod
  catalogued : Catalogued c.podStore.cachedPod Pod.uid Pod.getNodeNameFromPod c.nodeStore.podsOn

theorem agreed_new : Agreed handler new := by
  refine ⟨allPlaced_new, ?_, ?_⟩
  · intro uid pod h
    cases h
  · have hpods : new.nodeStore.podsOn = fun _ => [] := funext podsOn_new
    rw [hpods]
    exact catalogued_empty

theorem Agreed.agree (h : Agreed handler c) : c.Agree := by
  constructor
  · intro uid pod hcached
    obtain ⟨nodeName, hnode⟩ := isSome_iff_exists.mp (h.catalogued.placed uid pod hcached)
    have huid := h.catalogued.key_eq uid pod hcached
    refine ⟨nodeName, hnode, fun node => ?_⟩
    rw [h.catalogued.filter_key (huid ▸ hcached), hnode]
    simp [eq_comm]
  · intro node pod hpod
    exact (h.catalogued.mem_iff.mp hpod).1

variable {nodeName : NodeName} {put : NodeInfo → NodeStore}

variable (h : Agreed handler c)
include h

theorem Agreed.cached_self {uid : String} (hcached : c.podStore.cachedPod uid = some pod) :
    c.podStore.cachedPod pod.uid = some pod := by
  rw [h.catalogued.key_eq uid pod hcached, hcached]

theorem Agreed.add (hpod : considers handler pod) (hnode : pod.getNodeNameFromPod = some nodeName)
    (hnone : c.podStore.cachedPod pod.uid = none) {podStore : PodStore}
    (hcached : podStore.cachedPod = Function.update c.podStore.cachedPod pod.uid (some pod)) :
    Agreed handler ⟨c.nodeStore.addTo nodeName pod, podStore⟩ := by
  refine ⟨allPlaced_addTo h.placed nodeName pod, ?_, ?_⟩
  · intro uid p hp
    rw [hcached, Function.update_apply] at hp
    split_ifs at hp with huid
    · cases hp
      exact hpod
    · exact h.considered uid p hp
  · rw [hcached]
    apply h.catalogued.add hnone hnode
    · exact perm_podsOn_addTo h.placed (h.catalogued.key_ne hnone)
    · exact fun node hne => podsOn_addTo_of_ne pod hne

theorem Agreed.remove (hnode : pod.getNodeNameFromPod = some nodeName)
    (hold : c.podStore.cachedPod pod.uid = some pod) {nodeStore : NodeStore}
    (hremoved : NodeStore.Removed c.nodeStore nodeName pod nodeStore) {podStore : PodStore}
    (hcached : podStore.cachedPod = Function.update c.podStore.cachedPod pod.uid none) :
    Agreed handler ⟨nodeStore, podStore⟩ := by
  refine ⟨hremoved.placed, ?_, ?_⟩
  · intro uid p hp
    rw [hcached, Function.update_apply] at hp
    split_ifs at hp
    exact h.considered uid p hp
  · rw [hcached]
    exact h.catalogued.remove hold hnode hremoved.here hremoved.others

theorem Agreed.removeWith_of_cached {pod p : Pod} (hput : c.nodeStore.PutsBack nodeName put)
    (hnode : p.getNodeNameFromPod = some nodeName) (hold : c.podStore.cachedPod pod.uid = some p) :
    (c.nodeStore.removeWith put nodeName pod).2 = .ok () ∧
      NodeStore.Removed c.nodeStore nodeName p (c.nodeStore.removeWith put nodeName pod).1 := by
  have hpuid := h.catalogued.key_eq _ _ hold
  have hmem : p ∈ c.nodeStore.podsOn nodeName :=
    h.catalogued.mem_iff.mpr ⟨h.cached_self hold, hnode⟩
  obtain ⟨-, huid | habsent⟩ | ⟨hok, -, q, hq, hremoved⟩ :=
    removeWith_cases h.placed hput pod
  · exact absurd (hpuid.trans huid) (h.considered _ _ hold).2
  · exact absurd hpuid (habsent p hmem)
  · -- the pod found by the UID is the cached one
    have hqmem : q ∈ c.nodeStore.podsOn nodeName :=
      hremoved.here.mem_iff.mpr (List.mem_cons_self ..)
    rw [h.catalogued.eq_of_mem hold hqmem hq] at hremoved
    exact ⟨hok, hremoved⟩

theorem Agreed.removeWith_of_not_cached (hput : c.nodeStore.PutsBack nodeName put)
    (hnone : c.podStore.cachedPod pod.uid = none) :
    (c.nodeStore.removeWith put nodeName pod).1 = c.nodeStore := by
  obtain ⟨heq, -⟩ | ⟨-, -, p, hp, hremoved⟩ := removeWith_cases h.placed hput pod
  · exact heq
  · have hpmem : p ∈ c.nodeStore.podsOn nodeName :=
      hremoved.here.mem_iff.mpr (List.mem_cons_self ..)
    exact absurd hp (h.catalogued.key_ne hnone p hpmem)

theorem Agreed.removeFrom_of_cached (hnode : pod.getNodeNameFromPod = some nodeName)
    (hold : c.podStore.cachedPod pod.uid = some pod) :
    (c.nodeStore.removeFrom nodeName pod).2 = .ok () ∧
      NodeStore.Removed c.nodeStore nodeName pod (c.nodeStore.removeFrom nodeName pod).1 :=
  h.removeWith_of_cached (putsBack_dropOrSet h.placed) hnode hold

theorem Agreed.removeFrom_of_not_cached (nodeName : NodeName)
    (hnone : c.podStore.cachedPod pod.uid = none) :
    (c.nodeStore.removeFrom nodeName pod).1 = c.nodeStore :=
  h.removeWith_of_not_cached (putsBack_dropOrSet h.placed) hnone

omit h

/-- What both stores need to take a pod that passes the filter. -/
structure Storable (c : CommonStores) (pod : Pod) : Prop where
  uid : pod.uid ≠ ""
  node : pod.getNodeNameFromPod.isSome = true
  fresh : c.podStore.cachedPod pod.uid = none

theorem agreed_addPod (h : Agreed handler c)
    (hpod : assumedOrBoundPod handler pod = true → c.Storable pod) :
    Agreed handler (c.addPod handler pod).1 := by
  simp only [addPod, range]
  by_cases hfilter : assumedOrBoundPod handler pod = true
  · obtain ⟨huid, hsome, hfresh⟩ := hpod hfilter
    obtain ⟨nodeName, hnode⟩ := isSome_iff_exists.mp hsome
    have hnodeStore : (c.nodeStore.addPod handler pod).1 = c.nodeStore.addTo nodeName pod := by
      simp only [addPod_eq, hnode, if_pos hfilter]
    rw [hnodeStore]
    exact h.add ⟨hfilter, huid⟩ hnode hfresh
      (PodStore.cachedPod_addPod ⟨hfilter, huid⟩ hfresh)
  · have hnodeStore : (c.nodeStore.addPod handler pod).1 = c.nodeStore := by
      rw [addPod_eq]
      cases pod.getNodeNameFromPod with
      | none => rfl
      | some nodeName => simp only [if_neg hfilter]
    rw [hnodeStore, PodStore.addPod_eq, if_neg hfilter]
    exact h

theorem Agreed.deletePod_of_cached (h : Agreed handler c)
    (hold : c.podStore.cachedPod pod.uid = some pod) :
    (c.nodeStore.deletePod handler pod).2 = .ok () ∧
      (c.podStore.deletePod handler pod).2 = .ok () ∧
      (c.deletePod handler pod).1.podStore.cachedPod =
        Function.update c.podStore.cachedPod pod.uid none ∧
      Agreed handler (c.deletePod handler pod).1 := by
  have hconsidered := h.considered _ _ hold
  obtain ⟨nodeName, hnode⟩ := isSome_iff_exists.mp (h.catalogued.placed _ _ hold)
  have hnodeStore : c.nodeStore.deletePod handler pod = c.nodeStore.removeFrom nodeName pod := by
    simp only [deletePod_eq, hnode, if_pos hconsidered.1]
  obtain ⟨hok, hremoved⟩ := h.removeFrom_of_cached hnode hold
  obtain ⟨hpodOk, hcached⟩ := PodStore.deletePod_of_cached hconsidered hold
  rw [← hnodeStore] at hok hremoved
  exact ⟨hok, hpodOk, hcached, h.remove hnode hold hremoved hcached⟩

theorem agreed_deletePod (h : Agreed handler c) (hpod : ∀ p ∈ c.podStore.cachedPod pod.uid, p = pod)
    : Agreed handler (c.deletePod handler pod).1 := by
  cases hcached : c.podStore.cachedPod pod.uid with
  | some p =>
    obtain rfl := hpod p hcached
    exact (h.deletePod_of_cached hcached).2.2.2
  | none =>
    have hnodeStore : (c.nodeStore.deletePod handler pod).1 = c.nodeStore := by
      rw [deletePod_eq]
      cases pod.getNodeNameFromPod with
      | none => rfl
      | some nodeName =>
        split_ifs
        · exact h.removeFrom_of_not_cached nodeName hcached
        · rfl
    simp only [deletePod, range, hnodeStore, PodStore.deletePod_of_not_cached hcached]
    exact h

theorem getPodState_fst (s : PodStore) (uid : String) :
    (s.getPodState uid).1.map CachePodState.pod = s.cachedPod uid := by
  unfold PodStore.getPodState PodStore.cachedPod
  cases s.podStates.lookup uid <;> rfl

variable (h : Agreed handler c)
include h

/-- An update is the deletion of the cached pod followed by the addition of the new one. -/
theorem agreed_rangeUpdatePod {oldPod newPod : Pod}
    (hpod : assumedOrBoundPod handler newPod = true → newPod.uid ≠ "" ∧
      newPod.getNodeNameFromPod.isSome = true ∧
      (newPod.uid = oldPod.uid ∨ c.podStore.cachedPod newPod.uid = none)) :
    Agreed handler (range (c.nodeStore.updatePod handler
        ((c.podStore.getPodState oldPod.uid).1.map CachePodState.pod) oldPod newPod)
      (c.podStore.updatePod handler oldPod newPod)).1 := by
  rw [getPodState_fst]
  unfold NodeStore.updatePod PodStore.updatePod Pod.getPodKey
  by_cases huid : oldPod.uid = ""
  · simp only [if_pos huid]
    exact h
  simp only [if_neg huid]
  cases hcached : c.podStore.cachedPod oldPod.uid with
  | none =>
    have hstate : (c.podStore.getPodState oldPod.uid).1 = none := by
      rw [← map_eq_none_iff, getPodState_fst, hcached]
    simp only [hstate]
    apply agreed_addPod h
    intro hfilter
    obtain ⟨hne, hnode, hsame | hfresh⟩ := hpod hfilter
    · exact ⟨hne, hnode, hsame ▸ hcached⟩
    · exact ⟨hne, hnode, hfresh⟩
  | some p =>
    obtain ⟨podState, hstate, hp⟩ : ∃ podState, (c.podStore.getPodState oldPod.uid).1 =
        some podState ∧ podState.pod = p := by
      rw [← map_eq_some_iff, getPodState_fst, hcached]
    have hpuid := h.catalogued.key_eq _ _ hcached
    obtain ⟨hnodeOk, hpodOk, hafter, hagreed⟩ := h.deletePod_of_cached (h.cached_self hcached)
    simp only [hstate, hp]
    rcases hnodeStore : c.nodeStore.deletePod handler p with ⟨nodeStore, _ | _⟩
    · rw [hnodeStore] at hnodeOk
      cases hnodeOk
    rcases hpodStore : c.podStore.deletePod handler p with ⟨podStore, _ | _⟩
    · rw [hpodStore] at hpodOk
      cases hpodOk
    simp only [deletePod, range, hnodeStore, hpodStore] at hafter hagreed
    apply agreed_addPod hagreed
    intro hfilter
    obtain ⟨hne, hnode, hsame⟩ := hpod hfilter
    refine ⟨hne, hnode, ?_⟩
    simp only [hafter, Function.update_apply, hpuid]
    split_ifs with heq
    · rfl
    · exact hsame.resolve_left heq

theorem agreed_assumePod (hfilter : assumedOrBoundPod handler podInfo.pod = true)
    (hsome : podInfo.pod.getNodeNameFromPod.isSome = true) :
    Agreed handler (c.assumePod podInfo).1 := by
  unfold assumePod Pod.getPodKey
  by_cases huid : podInfo.pod.uid = ""
  · simp only [if_pos huid]
    exact h
  simp only [if_neg huid]
  cases hstate : (c.podStore.getPodState podInfo.pod.uid).1 with
  | some _ => exact h
  | none =>
    have hfresh : c.podStore.cachedPod podInfo.pod.uid = none := by
      rw [← getPodState_fst, hstate]
      rfl
    obtain ⟨nodeName, hnode⟩ := isSome_iff_exists.mp hsome
    simp only [range, NodeStore.assumePod, hnode]
    exact h.add ⟨hfilter, huid⟩ hnode hfresh (PodStore.cachedPod_assumePod huid hfresh)

theorem agreed_forgetPod (hpod : ∀ p ∈ c.podStore.cachedPod podInfo.pod.uid, p = podInfo.pod) :
    Agreed handler (c.forgetPod podInfo).1 := by
  unfold forgetPod Pod.getPodKey
  by_cases huid : podInfo.pod.uid = ""
  · simp only [if_pos huid]
    exact h
  simp only [if_neg huid]
  unfold PodStore.getPodState
  cases hstate : c.podStore.podStates.lookup podInfo.pod.uid with
  | none => exact h
  | some podState =>
    by_cases hassumed : podInfo.pod.uid ∈ c.podStore.assumedPods
    · have hcached : c.podStore.cachedPod podInfo.pod.uid = some podInfo.pod := by
        rw [PodStore.cachedPod_of_lookup hstate, hpod _ (PodStore.cachedPod_of_lookup hstate)]
      obtain ⟨nodeName, hnode⟩ := isSome_iff_exists.mp (h.catalogued.placed _ _ hcached)
      have hnodeStore : c.nodeStore.forgetPod podInfo =
          c.nodeStore.removeFrom nodeName podInfo.pod := by
        simp only [NodeStore.forgetPod, hnode]
        rfl
      simp only [hassumed, decide_true, Bool.not_true, Bool.false_eq_true, if_false, range,
        hnodeStore]
      exact h.remove hnode hcached (h.removeFrom_of_cached hnode hcached).2
        (PodStore.cachedPod_forgetPod huid hcached hassumed)
    · simp only [hassumed, decide_false, Bool.not_false, if_true]
      exact h

theorem agreed_removePod (pod : Pod) : Agreed handler (c.removePod handler pod).1 := by
  unfold removePod
  cases hkey : pod.getPodKey with
  | error e => exact h
  | ok key =>
    have hstatePod := getPodState_fst c.podStore key
    dsimp only
    cases hstate : (c.podStore.getPodState key).1 with
    | some podState =>
      rw [hstate] at hstatePod
      exact (h.deletePod_of_cached (h.cached_self hstatePod.symm)).2.2.2
    | none =>
      rw [hstate] at hstatePod
      apply agreed_deletePod h
      unfold Pod.getPodKey at hkey
      split_ifs at hkey
      cases hkey
      intro p hp
      rw [← hstatePod] at hp
      cases hp

theorem agreed_expirePod (now : ℤ) (key : String) :
    Agreed handler (expirePod handler now c key) := by
  unfold expirePod
  split_ifs
  · cases hstate : c.podStore.podStates.lookup key with
    | none => exact h
    | some podState =>
      dsimp only
      split_ifs
      · exact (h.deletePod_of_cached (h.cached_self (PodStore.cachedPod_of_lookup hstate))).2.2.2
      · exact h
  · exact h

omit h

/-- The calls that keep the agreement. -/
def Admissible (handler : Handler) (c : CommonStores) : StoresOp → Prop
  | .addPod pod => pod.uid ≠ "" ∧ c.podStore.cachedPod pod.uid = none ∧
      pod.getNodeNameFromPod.isSome = true
  | .updatePod oldPod newPod => assumedOrBoundPod handler newPod = true →
      newPod.uid ≠ "" ∧ newPod.getNodeNameFromPod.isSome = true ∧
        (newPod.uid = oldPod.uid ∨ c.podStore.cachedPod newPod.uid = none)
  | .assumePod podInfo => assumedOrBoundPod handler podInfo.pod = true ∧
      podInfo.pod.getNodeNameFromPod.isSome = true
  | .forgetPod podInfo => ∀ p ∈ c.podStore.cachedPod podInfo.pod.uid, p = podInfo.pod
  | .deletePod pod => ∀ p ∈ c.podStore.cachedPod pod.uid, p = pod
  | .nodeEvent _ _ | .removePod _ | .finishReserving _ _ | .cleanupExpiredAssumedPods _ _ => True

instance (handler : Handler) (c : CommonStores) : ∀ op, Decidable (Admissible handler c op)
  | .addPod _ => inferInstanceAs (Decidable (_ ∧ _ ∧ _))
  | .updatePod _ _ => inferInstanceAs (Decidable (_ → _))
  | .assumePod _ => inferInstanceAs (Decidable (_ ∧ _))
  | .forgetPod podInfo =>
    inferInstanceAs (Decidable (∀ p ∈ c.podStore.cachedPod podInfo.pod.uid, p = podInfo.pod))
  | .deletePod pod => inferInstanceAs (Decidable (∀ p ∈ c.podStore.cachedPod pod.uid, p = pod))
  | .nodeEvent _ _ => inferInstanceAs (Decidable True)
  | .removePod _ => inferInstanceAs (Decidable True)
  | .finishReserving _ _ => inferInstanceAs (Decidable True)
  | .cleanupExpiredAssumedPods _ _ => inferInstanceAs (Decidable True)

theorem agreed_step (h : Agreed handler c) {op : StoresOp} (hop : Admissible handler c op) :
    Agreed handler (c.step handler op) := by
  cases op with
  | nodeEvent op hnode =>
    have hkeeps := keepsPods_nodeEvent handler c.nodeStore hnode
    refine ⟨hkeeps.placed h.placed, h.considered, ?_⟩
    have hpods : ((op.apply handler c.nodeStore).1).podsOn = c.nodeStore.podsOn :=
      funext hkeeps.pods
    simp only [step, hpods]
    exact h.catalogued
  | addPod pod => exact agreed_addPod h fun _ => ⟨hop.1, hop.2.2, hop.2.1⟩
  | updatePod oldPod newPod =>
    have hupdate := agreed_rangeUpdatePod h hop
    simp only [step, updatePod]
    split_ifs
    · cases oldPod.getPodKey with
      | error e => exact h
      | ok key =>
        dsimp only
        split_ifs
        · exact h
        · exact hupdate
    · exact hupdate
  | deletePod pod => exact agreed_deletePod h hop
  | removePod pod => exact agreed_removePod h pod
  | assumePod podInfo => exact agreed_assumePod h hop.1 hop.2
  | forgetPod podInfo => exact agreed_forgetPod h hop
  | finishReserving pod deadline =>
    have hsame := PodStore.cachedPod_finishReserving c.podStore pod deadline
    refine ⟨h.placed, ?_, ?_⟩
    · simp only [step, hsame]
      exact h.considered
    · simp only [step, hsame]
      exact h.catalogued
  | cleanupExpiredAssumedPods o now =>
    exact run_invariant (P := Agreed handler) (fun _ key hc => agreed_expirePod hc now key) h _

/-- The two stores agree in every state of a run of admissible calls. -/
theorem agree_of_admissible (handler : Handler) (ops : List StoresOp)
    (hops : Along (step handler) (Admissible handler) new ops) :
    Always (step handler) Agree new ops := by
  have hagreed : Always (step handler) (Agreed handler) new ops :=
    always_of_step (fun _ _ h hop => agreed_step h hop) agreed_new hops
  exact hagreed.mono fun _ h => h.agree

/-- A pod is assumed and bound elsewhere, another is assumed and expires, a third is assumed and
forgotten, and the first is removed by a stale object. -/
theorem agree_assume_bind_expire_forget :
    let node : NodeName := ⟨"node-1", by decide⟩
    let other : NodeName := ⟨"node-2", by decide⟩
    let assumed (uid : String) : Pod :=
      { uid := uid, ns := "default", name := uid, podState := .assumed, scheduler := some "s"
        assumedNode := some node }
    let ops : List StoresOp :=
      [.assumePod { pod := assumed "u" },
        .updatePod (assumed "u") { assumed "u" with nodeName := some other },
        .assumePod { pod := assumed "v" }, .finishReserving (assumed "v") 5,
        .cleanupExpiredAssumedPods .forward 6, .assumePod { pod := assumed "w" },
        .forgetPod { pod := assumed "w" }, .removePod (assumed "u")]
    Along (step {}) (Admissible {}) new ops ∧ Always (step {}) Agree new ops := by
  intro node other assumed ops
  have hops : Along (step {}) (Admissible {}) new ops := by decide
  exact ⟨hops, agree_of_admissible {} ops hops⟩

/-- Runs after which the stores disagree. A pod is assumed without a node; a pod that the filter
of the stores does not let pass is assumed and bound to another node, after which both nodes have
it; a pod is updated to one nominated to no node; an update brings in the UID of another cached
pod; a pod without a UID is added. -/
theorem stores_disagree :
    let node : NodeName := ⟨"node-1", by decide⟩
    let other : NodeName := ⟨"node-2", by decide⟩
    let pending : Pod := { uid := "u", ns := "default", name := "pod", scheduler := some "s" }
    let dispatched : Pod := { pending with podState := .dispatched, assumedNode := some node }
    let nominated : Pod :=
      { pending with podState := .assumed, nominatedNode := some (.parsed none) }
    let bound : Pod := { pending with nodeName := some other }
    let onNode : Pod := { pending with nodeName := some node }
    ¬ Agree (run (step {}) new [.assumePod { pod := pending }]) ∧
      ¬ Agree (run (step {}) new [.assumePod { pod := dispatched }, .updatePod dispatched bound]) ∧
      ¬ Agree (run (step {}) new [.updatePod pending nominated]) ∧
      ¬ Agree (run (step {}) new [.addPod onNode, .updatePod { pending with uid := "v" } bound]) ∧
      ¬ Agree (run (step {}) new [.addPod { bound with uid := "" }]) := by
  intro node other pending dispatched nominated bound onNode
  refine ⟨fun h => ?_, fun h => ?_, fun h => ?_, fun h => ?_, fun h => ?_⟩
  · obtain ⟨nodeName, hnode, -⟩ := h.states "u" pending (by decide)
    cases hnode
  · exact absurd (h.nodes other bound (by decide)) (by decide)
  · obtain ⟨nodeName, hnode, -⟩ := h.states "u" nominated (by decide)
    cases hnode
  · exact absurd (h.nodes other bound (by decide)) (by decide)
  · exact absurd (h.nodes other { bound with uid := "" } (by decide)) (by decide)

end CommonStores

end GodelScheduler.SchedulerCache
