import GodelScheduler.Framework.NodeResources
import GodelScheduler.Library.Runs
import GodelScheduler.SchedulerCache.PodStore

/-!
# Where the pods of the cache are

What the calls of the cache do to the pods of each node, and what a delete event
leaves behind. The delete handler gives the event's object to every store, and a
store works with that object and not with the pod it holds: the node it names is
the only one a pod is taken from.
-/

namespace GodelScheduler

open Library GenerationStore PodInfoMaintainer

variable {k : String}

namespace PodInfoMaintainer

variable {m : PodInfoMaintainer}

@[simp] theorem pods_new : new.pods = [] := rfl

theorem pods_eq_nil (h : m.len = 0) : m.pods = [] := by
  unfold len GoMap.len at h
  unfold pods
  simp only [AList.keys, List.keys, List.length_map] at h
  have hlen : ∀ {l : List (Sigma fun _ : String => Pod)}, l.length = 0 → l = [] :=
    List.eq_nil_of_length_eq_zero
  rw [hlen (by omega : m.bePodsMayBePreempted.entries.length = 0),
    hlen (by omega : m.gtPodsMayBePreempted.entries.length = 0),
    hlen (by omega : m.neverBePreempted.entries.length = 0)]
  rfl

theorem Placed.getPodInfo_eq_none (h : Placed m) :
    m.getPodInfo k = none ↔ ∀ p ∈ m.pods, p.uid ≠ k := by
  rw [getPodInfo_eq_none_iff]
  constructor
  · rintro hnone p hp rfl
    obtain ⟨c, k, hk⟩ := mem_pods.mp hp
    obtain rfl := h.uid_eq hk
    exact hnone c (GoMap.mem_iff_lookup.mpr ⟨p, hk⟩)
  · intro hall c hmem
    obtain ⟨p, hp⟩ := GoMap.mem_iff_lookup.mp hmem
    exact hall p (mem_pods.mpr ⟨c, k, hp⟩) (h.uid_eq hp)

end PodInfoMaintainer

namespace SchedulerCache

def maintainerOf (s : ListStore NodeName NodeInfo) (node : NodeName) : PodInfoMaintainer :=
  ((s.get node).map NodeInfo.podInfoMaintainer).getD .new

variable {n : NodeInfo}

section

variable (s : ListStore NodeName NodeInfo) (k node : NodeName)

@[simp] theorem maintainerOf_new : maintainerOf .new node = .new := by
  simp [maintainerOf]

theorem maintainerOf_set (n : NodeInfo) :
    maintainerOf (s.set k n) node =
      if node = k then n.podInfoMaintainer else maintainerOf s node := by
  unfold maintainerOf
  rw [ListStore.get_set]
  split_ifs <;> rfl

theorem maintainerOf_delete :
    maintainerOf (s.delete k) node = if node = k then .new else maintainerOf s node := by
  unfold maintainerOf
  rw [ListStore.get_delete]
  split_ifs <;> rfl

variable {s k} in
theorem maintainerOf_of_get (h : s.get k = some n) : maintainerOf s k = n.podInfoMaintainer := by
  simp [maintainerOf, h]

variable {s k} in
theorem maintainerOf_of_get_eq_none (h : s.get k = none) : maintainerOf s k = .new := by
  simp [maintainerOf, h]

end

namespace NodeStore

variable {s : NodeStore}

def podsOn (s : NodeStore) (node : NodeName) : List Pod := (maintainerOf s.store node).pods

/-- Every node keeps its pods where they are found again. -/
def AllPlaced (s : NodeStore) : Prop := ∀ node, (maintainerOf s.store node).Placed

theorem podsOn_new (node : NodeName) : podsOn new node = [] := by
  simp [podsOn, new]

theorem allPlaced_new : AllPlaced new := by
  intro node
  simp only [new, maintainerOf_new]
  exact placed_new

/-- Nothing happens to the pods of any node. -/
structure KeepsPods (s s' : NodeStore) : Prop where
  pods : ∀ node, s'.podsOn node = s.podsOn node
  placed : AllPlaced s → AllPlaced s'

theorem keepsPods_of_maintainerOf {s s' : NodeStore}
    (h : ∀ node, maintainerOf s'.store node = maintainerOf s.store node) : KeepsPods s s' := by
  refine ⟨fun node => ?_, fun hs node => ?_⟩
  · unfold podsOn
    rw [h node]
  · rw [h node]
    exact hs node

variable {s' : NodeStore}

theorem maintainerOf_eq_current (s : NodeStore) (k : NodeName) :
    maintainerOf s.store k = (s.current k).podInfoMaintainer := by
  unfold maintainerOf current get
  cases s.store.get k <;> rfl

theorem NodeEvent.keepsPods {k : NodeName} {f : NodeObjects → NodeObjects}
    (h : NodeEvent s k f s') : KeepsPods s s' := by
  obtain ⟨n, hstores, hpods, -⟩ := h.stores
  rw [← maintainerOf_eq_current] at hpods
  obtain ⟨st, hst⟩ : ∃ st, s'.store = st := ⟨_, rfl⟩
  rw [hst] at hstores
  cases hstores with
  | set =>
    apply keepsPods_of_maintainerOf
    intro node
    rw [hst, maintainerOf_set]
    split_ifs with hk
    · rw [hk, hpods]
    · rfl
  | replace =>
    apply keepsPods_of_maintainerOf
    intro node
    rw [hst, maintainerOf_set, maintainerOf_delete]
    split_ifs with hk
    · rw [hk, hpods]
    · rfl
  | drop hempty =>
    rw [NodeInfo.numPods, hpods] at hempty
    constructor
    · intro node
      unfold podsOn
      rw [hst, maintainerOf_delete]
      split_ifs with hk
      · rw [hk, pods_eq_nil hempty]
        rfl
      · rfl
    · intro hs node
      rw [hst, maintainerOf_delete]
      split_ifs with hk
      · exact placed_new
      · exact hs node
  | absent => exact keepsPods_of_maintainerOf fun node => by rw [hst]

theorem keepsPods_nodeEvent (handler : Handler) (s : NodeStore) {op : CacheOp}
    (hop : op.isNodeEvent = true) : KeepsPods s (op.apply handler s).1 := by
  obtain ⟨k, f, hevent⟩ := op.exists_nodeEvent handler s hop
  exact hevent.keepsPods

section

variable (s)

theorem addPod_eq (handler : Handler) (pod : Pod) :
    s.addPod handler pod =
      match pod.getNodeNameFromPod with
      | none => (s, .ok ())
      | some nodeName =>
        if assumedOrBoundPod handler pod then (s.addTo nodeName pod, .ok ()) else (s, .ok ()) := by
  unfold addPod assumedOrBoundPod addTo
  cases pod.getNodeNameFromPod <;> cases pod.boundPod <;>
    cases pod.assumedPodOfGodel handler.schedulerType <;> rfl

theorem deletePod_eq (handler : Handler) (pod : Pod) :
    s.deletePod handler pod =
      match pod.getNodeNameFromPod with
      | none => (s, .ok ())
      | some nodeName =>
        if assumedOrBoundPod handler pod then s.removeFrom nodeName pod else (s, .ok ()) := by
  unfold deletePod assumedOrBoundPod removeFrom
  cases pod.getNodeNameFromPod <;> cases pod.boundPod <;>
    cases pod.assumedPodOfGodel handler.schedulerType <;> rfl

theorem maintainerOf_addTo (nodeName : NodeName) (pod : Pod) (node : NodeName) :
    maintainerOf (s.addTo nodeName pod).store node =
      if node = nodeName then (maintainerOf s.store node).addPodInfo pod
      else maintainerOf s.store node := by
  unfold addTo getOrCreateNode
  cases hget : s.store.get nodeName with
  | none =>
    rw [maintainerOf_set]
    split_ifs with hk
    · rw [hk, maintainerOf_of_get_eq_none hget]
      rfl
    · rfl
  | some n =>
    rw [maintainerOf_set]
    split_ifs with hk
    · rw [hk, maintainerOf_of_get hget]
      rfl
    · rfl

variable {s}

theorem allPlaced_addTo (h : AllPlaced s) (nodeName : NodeName) (pod : Pod) :
    AllPlaced (s.addTo nodeName pod) := by
  intro node
  rw [maintainerOf_addTo]
  split_ifs
  · exact (h node).addPodInfo pod
  · exact h node

theorem podsOn_addTo_of_ne {nodeName node : NodeName} (pod : Pod) (hne : node ≠ nodeName) :
    (s.addTo nodeName pod).podsOn node = s.podsOn node := by
  unfold podsOn
  rw [maintainerOf_addTo, if_neg hne]

variable {nodeName : NodeName}

/-- Where no pod has its UID, the pod comes in once. -/
theorem perm_podsOn_addTo (h : AllPlaced s) {pod : Pod}
    (habsent : ∀ p ∈ s.podsOn nodeName, p.uid ≠ pod.uid) :
    ((s.addTo nodeName pod).podsOn nodeName).Perm (pod :: s.podsOn nodeName) := by
  unfold podsOn
  rw [maintainerOf_addTo, if_pos rfl]
  exact perm_pods_addPodInfo ((h nodeName).getPodInfo_eq_none.mpr habsent)

/-- A pod of the UID leaves the node and nothing else changes. -/
structure Removed (s : NodeStore) (nodeName : NodeName) (p : Pod) (s' : NodeStore) : Prop where
  placed : AllPlaced s'
  here : (s.podsOn nodeName).Perm (p :: s'.podsOn nodeName)
  others : ∀ node, node ≠ nodeName → s'.podsOn node = s.podsOn node

theorem removed_drop (h : AllPlaced s) {p : Pod}
    (hp : (maintainerOf s.store nodeName).getPodInfo k = some p)
    (hempty : ((maintainerOf s.store nodeName).removePodInfo p).len = 0)
    (hs' : s'.store = s.store.delete nodeName) : Removed s nodeName p s' := by
  have hperm := (h nodeName).perm_pods_removePodInfo hp
  rw [pods_eq_nil hempty] at hperm
  refine ⟨fun node => ?_, ?_, fun node hne => ?_⟩
  · rw [hs', maintainerOf_delete]
    split_ifs
    · exact placed_new
    · exact h node
  · simp only [podsOn, hs', maintainerOf_delete, if_true, pods_new]
    exact hperm
  · simp only [podsOn, hs', maintainerOf_delete, if_neg hne]

theorem removed_set (h : AllPlaced s) {p : Pod}
    (hp : (maintainerOf s.store nodeName).getPodInfo k = some p)
    (hn : n.podInfoMaintainer = (maintainerOf s.store nodeName).removePodInfo p) :
    Removed s nodeName p (s.set nodeName n) := by
  have hperm := (h nodeName).perm_pods_removePodInfo hp
  refine ⟨fun node => ?_, ?_, fun node hne => ?_⟩
  · simp only [set, maintainerOf_set]
    split_ifs
    · rw [hn]
      exact (h nodeName).removePodInfo hp
    · exact h node
  · simp only [podsOn, set, maintainerOf_set, if_true]
    rwa [← hn] at hperm
  · simp only [podsOn, set, maintainerOf_set, if_neg hne]

/-- Putting back a node info with a pod less takes this pod from the node. -/
def PutsBack (s : NodeStore) (nodeName : NodeName) (put : NodeInfo → NodeStore) : Prop :=
  ∀ n p k, (maintainerOf s.store nodeName).getPodInfo k = some p →
    n.podInfoMaintainer = (maintainerOf s.store nodeName).removePodInfo p →
    Removed s nodeName p (put n)

/-- The stores differ in which residual node infos they drop, but all that they drop are empty. -/
theorem putsBack_dropIf (h : AllPlaced s) (hs' : s'.store = s.store.delete nodeName)
    (residual : NodeInfo → Prop) [DecidablePred residual] :
    PutsBack s nodeName fun n => if n.numPods = 0 ∧ residual n then s' else s.set nodeName n := by
  intro n p k hp hn
  dsimp only
  split_ifs with hdrop
  · exact removed_drop h hp (hn ▸ hdrop.1) hs'
  · exact removed_set h hp hn

theorem putsBack_dropOrSet (h : AllPlaced s) : PutsBack s nodeName (s.dropOrSet nodeName) :=
  putsBack_dropIf h rfl _

/-- The pod of this UID is taken from the node info, which is then put back in some way. -/
def removeWith (s : NodeStore) (put : NodeInfo → NodeStore) (nodeName : NodeName) (pod : Pod) :
    Result :=
  match s.get nodeName with
  | none => (s, .ok ())
  | some nodeInfo =>
    match nodeInfo.removePod pod with
    | .error e => (s, .error e)
    | .ok nodeInfo => (put nodeInfo, .ok ())

variable (h : AllPlaced s)
include h

/-- What a removal does: nothing, if the pod has no key or is not on the node, else the pod stored
under its UID leaves the node. -/
theorem removeWith_cases {put : NodeInfo → NodeStore} (hput : PutsBack s nodeName put) (pod : Pod) :
    ((s.removeWith put nodeName pod).1 = s ∧
      (pod.uid = "" ∨ ∀ p ∈ s.podsOn nodeName, p.uid ≠ pod.uid)) ∨
    ((s.removeWith put nodeName pod).2 = .ok () ∧ pod.uid ≠ "" ∧
      ∃ p, p.uid = pod.uid ∧ Removed s nodeName p (s.removeWith put nodeName pod).1) := by
  unfold removeWith
  cases hget : s.get nodeName with
  | none =>
    refine .inl ⟨rfl, .inr fun p hp => ?_⟩
    rw [podsOn, maintainerOf_of_get_eq_none hget] at hp
    cases hp
  | some n =>
    have hpods := maintainerOf_of_get hget
    by_cases huid : pod.uid = ""
    · simp only [NodeInfo.removePod, Pod.getPodKey, if_pos huid]
      exact .inl ⟨trivial, .inl huid⟩
    cases hp : (maintainerOf s.store nodeName).getPodInfo pod.uid with
    | none =>
      have habsent := (h nodeName).getPodInfo_eq_none.mp hp
      rw [hpods] at hp
      simp only [NodeInfo.removePod, Pod.getPodKey, if_neg huid, hp]
      exact .inl ⟨trivial, .inr habsent⟩
    | some p =>
      have hfound := hp
      rw [hpods] at hp
      simp only [NodeInfo.removePod, Pod.getPodKey, if_neg huid, hp]
      obtain ⟨c, hlookup, -⟩ := (h nodeName).container_removePodInfo hfound
      refine .inr ⟨trivial, huid, p, (h nodeName).uid_eq hlookup, ?_⟩
      exact hput _ p _ hfound (by rw [hpods])

theorem removeFrom_cases (nodeName : NodeName) (pod : Pod) :
    ((s.removeFrom nodeName pod).1 = s ∧
      (pod.uid = "" ∨ ∀ p ∈ s.podsOn nodeName, p.uid ≠ pod.uid)) ∨
    ((s.removeFrom nodeName pod).2 = .ok () ∧ pod.uid ≠ "" ∧
      ∃ p, p.uid = pod.uid ∧ Removed s nodeName p (s.removeFrom nodeName pod).1) :=
  removeWith_cases h (putsBack_dropOrSet h) pod

theorem allPlaced_removeFrom (nodeName : NodeName) (pod : Pod) :
    AllPlaced (s.removeFrom nodeName pod).1 := by
  obtain ⟨heq, -⟩ | ⟨-, -, p, -, hremoved⟩ := removeFrom_cases h nodeName pod
  · rw [heq]
    exact h
  · exact hremoved.placed

theorem allPlaced_addPod (handler : Handler) (pod : Pod) : AllPlaced (s.addPod handler pod).1 :=
  of_addPod h fun nodeName => allPlaced_addTo h nodeName pod

theorem allPlaced_deletePod (handler : Handler) (pod : Pod) :
    AllPlaced (s.deletePod handler pod).1 :=
  of_deletePod h fun nodeName => allPlaced_removeFrom h nodeName pod

theorem allPlaced_updatePod (handler : Handler) (cached : Option Pod) (oldPod newPod : Pod) :
    AllPlaced (s.updatePod handler cached oldPod newPod).1 :=
  of_updatePod h (allPlaced_deletePod h handler) fun _ hs' => allPlaced_addPod hs' handler newPod

theorem allPlaced_assumePod (podInfo : CachePodInfo) : AllPlaced (s.assumePod podInfo).1 :=
  of_assumePod h fun nodeName => allPlaced_addTo h nodeName podInfo.pod

theorem allPlaced_forgetPod (podInfo : CachePodInfo) : AllPlaced (s.forgetPod podInfo).1 :=
  of_forgetPod h fun nodeName => allPlaced_removeFrom h nodeName podInfo.pod

end

end NodeStore

namespace CommonStores

variable {handler : Handler} {c : CommonStores}

def AllPlaced (c : CommonStores) : Prop := c.nodeStore.AllPlaced

theorem allPlaced_expirePod (h : c.AllPlaced) (now : ℤ) (key : String) :
    (expirePod handler now c key).AllPlaced := by
  unfold expirePod
  split_ifs
  · cases c.podStore.podStates.lookup key with
    | none => exact h
    | some podState =>
      dsimp only
      split_ifs
      · exact NodeStore.allPlaced_deletePod h handler podState.pod
      · exact h
  · exact h

theorem allPlaced_step (h : c.AllPlaced) (op : StoresOp) : (c.step handler op).AllPlaced := by
  cases op with
  | nodeEvent op hop => exact (NodeStore.keepsPods_nodeEvent handler c.nodeStore hop).placed h
  | addPod pod => exact NodeStore.allPlaced_addPod h handler pod
  | updatePod oldPod newPod =>
    have hupdate := NodeStore.allPlaced_updatePod h handler
      ((c.podStore.getPodState oldPod.uid).1.map CachePodState.pod) oldPod newPod
    simp only [step, updatePod]
    split_ifs
    · cases oldPod.getPodKey with
      | error e => exact h
      | ok key =>
        dsimp only
        split_ifs
        · exact h
        · exact hupdate
    · exact hupdate
  | deletePod pod => exact NodeStore.allPlaced_deletePod h handler pod
  | removePod pod =>
    simp only [step, removePod]
    cases pod.getPodKey with
    | error e => exact h
    | ok key =>
      dsimp only
      cases (c.podStore.getPodState key).1 with
      | none => exact NodeStore.allPlaced_deletePod h handler pod
      | some podState => exact NodeStore.allPlaced_deletePod h handler podState.pod
  | assumePod podInfo =>
    simp only [step, assumePod]
    cases podInfo.pod.getPodKey with
    | error e => exact h
    | ok key =>
      dsimp only
      cases (c.podStore.getPodState key).1 with
      | none => exact NodeStore.allPlaced_assumePod h podInfo
      | some _ => exact h
  | forgetPod podInfo =>
    simp only [step, forgetPod]
    cases podInfo.pod.getPodKey with
    | error e => exact h
    | ok key =>
      dsimp only
      split_ifs
      · exact h
      · exact NodeStore.allPlaced_forgetPod h podInfo
  | finishReserving pod deadline => exact h
  | cleanupExpiredAssumedPods o now =>
    exact run_invariant (P := AllPlaced) (fun _ key hc => allPlaced_expirePod hc now key) h _

theorem allPlaced_run (handler : Handler) (ops : List StoresOp) :
    (run (step handler) new ops).AllPlaced := by
  have hnew : new.AllPlaced := NodeStore.allPlaced_new
  exact run_invariant (P := AllPlaced) (fun _ op hc => allPlaced_step hc op) hnew ops

end CommonStores

section

variable (handler : Handler)

/-- How many pods of the UID a node has. One node can have several, in different containers. -/
def NodeStore.timesOn (s : NodeStore) (node : NodeName) (uid : String) : ℕ :=
  (s.podsOn node).countP fun p => p.uid = uid

/-- Whether the stores look at the object of a delete event at all. -/
def considers (pod : Pod) : Prop := assumedOrBoundPod handler pod = true ∧ pod.uid ≠ ""

instance (pod : Pod) : Decidable (considers handler pod) :=
  inferInstanceAs (Decidable (_ ∧ _))

/-- How many pods of a node a delete event can take away. -/
def removable (pod : Pod) (node : NodeName) : ℕ :=
  if considers handler pod ∧ pod.getNodeNameFromPod = some node then 1 else 0

/-- No node info has a pod of the UID, and the pod store has no state for it. -/
structure CommonStores.Absent (c : CommonStores) (uid : String) : Prop where
  nodes : ∀ node, ∀ pod ∈ c.nodeStore.podsOn node, pod.uid ≠ uid
  states : c.podStore.podStates.lookup uid = none

variable {s : NodeStore}

theorem NodeStore.timesOn_eq_zero {node : NodeName} {uid : String} :
    s.timesOn node uid = 0 ↔ ∀ pod ∈ s.podsOn node, pod.uid ≠ uid := by
  simp [timesOn, List.countP_eq_zero]

theorem NodeStore.timesOn_removeFrom (h : s.AllPlaced) (nodeName : NodeName) {pod : Pod}
    (huid : pod.uid ≠ "") (node : NodeName) :
    (s.removeFrom nodeName pod).1.timesOn node pod.uid =
      s.timesOn node pod.uid - if nodeName = node then 1 else 0 := by
  obtain ⟨heq, hcase⟩ | ⟨-, -, p, hp, hremoved⟩ := removeFrom_cases h nodeName pod
  · rw [heq]
    split_ifs with hnode
    · subst hnode
      rw [timesOn_eq_zero.mpr (hcase.resolve_left huid)]
    · rfl
  · split_ifs with hnode
    · subst hnode
      unfold timesOn
      rw [hremoved.here.countP_eq, List.countP_cons_of_pos (by simpa using hp)]
      rfl
    · unfold timesOn
      rw [hremoved.others node fun heq => hnode heq.symm]
      rfl

theorem NodeStore.timesOn_deletePod (h : s.AllPlaced) (pod : Pod) (node : NodeName) :
    (s.deletePod handler pod).1.timesOn node pod.uid =
      s.timesOn node pod.uid - removable handler pod node := by
  rw [deletePod_eq]
  unfold removable considers
  cases pod.getNodeNameFromPod with
  | none => simp
  | some nodeName =>
    by_cases hfilter : assumedOrBoundPod handler pod = true
    · by_cases huid : pod.uid = ""
      · have hsame : (s.removeFrom nodeName pod).1 = s := by
          obtain ⟨heq, -⟩ | ⟨-, hne, -⟩ := removeFrom_cases h nodeName pod
          · exact heq
          · exact absurd huid hne
        simp only [if_pos hfilter, hsame]
        simp [huid]
      · simp only [if_pos hfilter]
        rw [timesOn_removeFrom h nodeName huid node]
        simp [hfilter, huid]
    · simp [hfilter]

theorem PodStore.lookup_deletePod (s : PodStore) (pod : Pod) :
    (s.deletePod handler pod).1.podStates.lookup pod.uid = none ↔
      s.podStates.lookup pod.uid = none ∨ considers handler pod := by
  unfold deletePod podOp considers assumedOrBoundPod Pod.getPodKey
  by_cases huid : pod.uid = ""
  · cases pod.boundPod <;> cases pod.assumedPodOfGodel handler.schedulerType <;> simp [huid]
  · by_cases hmem : pod.uid ∈ s.podStates
    · cases pod.boundPod <;> cases pod.assumedPodOfGodel handler.schedulerType <;>
        simp [huid, hmem, AList.lookup_erase]
    · have hnone := AList.lookup_eq_none.mpr hmem
      cases pod.boundPod <;> cases pod.assumedPodOfGodel handler.schedulerType <;>
        simp [huid, hmem, hnone]

/-- After a delete event its UID is gone from the cache exactly if the stores held no more of it
than the event's object lets them find: no pod on a node the object does not name, at most one on
the node it names, and no state if the stores do not look at the object. -/
theorem absent_deletePod_iff (ops : List StoresOp) (pod : Pod) :
    ((run (CommonStores.step handler) .new ops).deletePod handler pod).1.Absent pod.uid ↔
      (∀ node, (run (CommonStores.step handler) .new ops).nodeStore.timesOn node pod.uid ≤
        removable handler pod node) ∧
      ((run (CommonStores.step handler) .new ops).podStore.podStates.lookup pod.uid = none ∨
        considers handler pod) := by
  have hplaced := CommonStores.allPlaced_run handler ops
  generalize run (CommonStores.step handler) .new ops = c at hplaced ⊢
  have hnodes : ∀ node, (∀ p ∈ (c.nodeStore.deletePod handler pod).1.podsOn node,
      p.uid ≠ pod.uid) ↔ c.nodeStore.timesOn node pod.uid ≤ removable handler pod node := by
    intro node
    rw [← NodeStore.timesOn_eq_zero, NodeStore.timesOn_deletePod handler hplaced,
      Nat.sub_eq_zero_iff_le]
  rw [← PodStore.lookup_deletePod]
  constructor
  · rintro ⟨h, hstates⟩
    exact ⟨fun node => (hnodes node).mp (h node), hstates⟩
  · rintro ⟨h, hstates⟩
    exact ⟨fun node => (hnodes node).mpr (h node), hstates⟩

/-- A pod assumed by the scheduler whose delete event carries the object from before, and a bound
pod whose delete event names another node: the first stays in both stores, the second on its
node. -/
theorem stale_delete_leaves_pod :
    let node : NodeName := ⟨"node-1", by decide⟩
    let other : NodeName := ⟨"node-2", by decide⟩
    let dispatched : Pod :=
      { uid := "u", ns := "default", name := "pod", podState := .dispatched, scheduler := some "s" }
    let assumed : Pod := { dispatched with podState := .assumed, assumedNode := some node }
    let bound : Pod := { dispatched with nodeName := some node }
    let moved : Pod := { dispatched with nodeName := some other }
    let afterAssume := run (CommonStores.step {}) .new [.assumePod { pod := assumed }]
    let afterBind := run (CommonStores.step {}) .new [.addPod bound]
    ¬ (afterAssume.deletePod {} dispatched).1.Absent dispatched.uid ∧
      (afterAssume.deletePod {} dispatched).1.nodeStore.podsOn node = [assumed] ∧
      ¬ (afterBind.deletePod {} moved).1.Absent moved.uid ∧
      (afterBind.deletePod {} moved).1.nodeStore.podsOn node = [bound] := by
  intro node other dispatched assumed bound moved afterAssume afterBind
  have hassumed : (afterAssume.deletePod {} dispatched).1.nodeStore.podsOn node = [assumed] := by
    decide
  have hbound : (afterBind.deletePod {} moved).1.nodeStore.podsOn node = [bound] := by
    decide
  refine ⟨fun h => ?_, hassumed, fun h => ?_, hbound⟩
  · exact h.nodes node assumed (by rw [hassumed]; exact List.mem_singleton_self _) rfl
  · exact h.nodes node bound (by rw [hbound]; exact List.mem_singleton_self _) rfl

end

end SchedulerCache

end GodelScheduler
