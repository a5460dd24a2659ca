import GodelScheduler.SchedulerCache.PodPlacement

/-!
# The objects a node info holds

A node info carries up to three objects besides its pods: the Node, the NMNode
and the CNR of its name. `record` says what an event does to them as seen from
outside the store: adding and updating writes one object, deleting clears one,
and a pod event writes none.

The node store agrees with the record after every Node, NMNode and CNR event.
Removing a pod drops the whole node info when no pod, no Node and no NMNode is
left in it, and does not ask for a CNR, while `DeleteNode` and `DeleteNMNode`
do. `objects_survive_iff` says that this is the only way an object is lost.
-/

namespace GodelScheduler

open Library GenerationStore Function

theorem NodeInfo.removePod_ok {n m : NodeInfo} {pod : Pod} (h : n.podInfoMaintainer.Placed)
    (hm : n.removePod pod = .ok m) : m.objects = n.objects ∧ n.numPods = m.numPods + 1 := by
  unfold removePod at hm
  cases hkey : pod.getPodKey with
  | error e =>
    rw [hkey] at hm
    cases hm
  | ok k =>
    rw [hkey] at hm
    dsimp only at hm
    cases hp : n.podInfoMaintainer.getPodInfo k with
    | none =>
      rw [hp] at hm
      cases hm
    | some p =>
      rw [hp] at hm
      cases hm
      refine ⟨rfl, ?_⟩
      have hlength : ∀ m : PodInfoMaintainer, m.len = m.pods.length := by
        intro m
        simp [PodInfoMaintainer.len, PodInfoMaintainer.pods, GoMap.len, AList.keys, List.keys,
          add_assoc]
      have hperm := (h.perm_pods_removePodInfo hp).length_eq
      unfold numPods
      rw [hlength, hlength, hperm]
      rfl

theorem NodeInfo.removePod_isOk_iff (n : NodeInfo) (pod : Pod) :
    (∃ m, n.removePod pod = .ok m) ↔
      pod.uid ≠ "" ∧ (n.podInfoMaintainer.getPodInfo pod.uid).isSome := by
  unfold removePod Pod.getPodKey
  by_cases huid : pod.uid = ""
  · simp [huid]
  · simp only [if_neg huid]
    cases n.podInfoMaintainer.getPodInfo pod.uid with
    | none => simp
    | some p => simp [huid]

namespace SchedulerCache

abbrev ObjectRecord := NodeName → NodeObjects

namespace ObjectRecord

def write (r : ObjectRecord) (k : NodeName) (f : NodeObjects → NodeObjects) : ObjectRecord :=
  Function.update r k (f (r k))

/-- The most recently added or updated and not since deleted objects. -/
def record (r : ObjectRecord) : CacheOp → ObjectRecord
  | .addNode node => r.write node.name fun o => o.withNode (some node)
  | .updateNode _ newNode => r.write newNode.name fun o => o.withNode (some newNode)
  | .deleteNode node => r.write node.name fun o => o.withNode none
  | .addNMNode nmNode => r.write nmNode.name fun o => o.withNMNode (some nmNode)
  | .updateNMNode _ newNMNode =>
    r.write newNMNode.name fun o => o.withNMNode (some newNMNode)
  | .deleteNMNode nmNode => r.write nmNode.name fun o => o.withNMNode none
  | .addCNR cnr => r.write cnr.name fun o => o.withCNR (some cnr)
  | .updateCNR _ newCNR => r.write newCNR.name fun o => o.withCNR (some newCNR)
  | .deleteCNR cnr => r.write cnr.name fun o => o.withCNR none
  | .addPod _ => r
  | .updatePod _ _ _ => r
  | .deletePod _ => r
  | .assumePod _ => r
  | .forgetPod _ => r
  | .setNodeInPartition _ => r
  | .setNodeOutOfPartition _ => r

end ObjectRecord

def objectsIn (s : ListStore NodeName NodeInfo) : ObjectRecord :=
  fun k => ((s.get k).map NodeInfo.objects).getD .empty

variable {n : NodeInfo}

section

variable (s : ListStore NodeName NodeInfo) (k : NodeName)

theorem objectsIn_set (n : NodeInfo) :
    objectsIn (s.set k n) = Function.update (objectsIn s) k n.objects := by
  funext a
  unfold objectsIn
  rw [ListStore.get_set, update_apply]
  split_ifs
  · rfl
  · rfl

theorem objectsIn_delete : objectsIn (s.delete k) = Function.update (objectsIn s) k .empty := by
  funext a
  unfold objectsIn
  rw [ListStore.get_delete, update_apply]
  split_ifs
  · rfl
  · rfl

variable {s k}

theorem objectsIn_of_get (h : s.get k = some n) : objectsIn s k = n.objects := by
  unfold objectsIn
  rw [h]
  rfl

theorem objectsIn_of_get_eq_none (h : s.get k = none) : objectsIn s k = .empty := by
  unfold objectsIn
  rw [h]
  rfl

theorem objectsIn_set_of_get {n m : NodeInfo} (h : s.get k = some n) (hm : m.objects = n.objects) :
    objectsIn (s.set k m) = objectsIn s := by
  rw [objectsIn_set, hm, ← objectsIn_of_get h, update_eq_self]

end

namespace NodeStore

variable {s : NodeStore}

def objectsOf (s : NodeStore) : ObjectRecord := objectsIn s.store

variable {k : NodeName} {f : NodeObjects → NodeObjects}

theorem objectsOf_eq_current (s : NodeStore) (k : NodeName) :
    s.objectsOf k = (s.current k).objects := by
  unfold objectsOf objectsIn current get
  cases s.store.get k <;> rfl

theorem NodeEvent.objectsOf {s' : NodeStore} (h : NodeEvent s k f s') :
    s'.objectsOf = s.objectsOf.write k f := by
  obtain ⟨n, hstores, -, hobjects⟩ := h.stores
  rw [← objectsOf_eq_current] at hobjects
  unfold ObjectRecord.write
  rw [← hobjects]
  unfold NodeStore.objectsOf
  generalize s'.store = st at hstores ⊢
  cases hstores with
  | set => exact objectsIn_set ..
  | replace => rw [objectsIn_set, objectsIn_delete, update_idem]
  | drop _ hempty =>
    rw [hempty]
    exact objectsIn_delete ..
  | absent hget _ hempty =>
    rw [hempty, ← objectsIn_of_get_eq_none hget]
    exact (update_eq_self ..).symm

theorem objectsOf_addTo (s : NodeStore) (nodeName : NodeName) (pod : Pod) :
    (s.addTo nodeName pod).objectsOf = s.objectsOf := by
  unfold addTo getOrCreateNode
  cases hget : s.store.get nodeName with
  | none =>
    refine (objectsIn_set ..).trans ?_
    exact update_eq_self_iff.mpr (objectsIn_of_get_eq_none hget).symm
  | some n => exact objectsIn_set_of_get hget rfl

/-- The pod is the only one of a node info that has a CNR and neither a Node nor an NMNode. -/
def LastBesideCNR (s : NodeStore) (nodeName : NodeName) (pod : Pod) : Prop :=
  ∃ n, s.get nodeName = some n ∧ n.objectIsNil = true ∧ n.cnr.isSome ∧ n.numPods = 1 ∧
    pod.uid ≠ "" ∧ (n.podInfoMaintainer.getPodInfo pod.uid).isSome

theorem objectsOf_removeFrom_iff (h : AllPlaced s) (nodeName : NodeName) (pod : Pod) :
    (s.removeFrom nodeName pod).1.objectsOf = s.objectsOf ↔ ¬ s.LastBesideCNR nodeName pod := by
  unfold removeFrom
  cases hget : s.get nodeName with
  | none =>
    refine iff_of_true rfl ?_
    rintro ⟨n, hn, -⟩
    rw [hget] at hn
    cases hn
  | some n =>
    have hlast : s.LastBesideCNR nodeName pod ↔ (n.objectIsNil = true ∧ n.cnr.isSome ∧
        n.numPods = 1) ∧ ∃ m, n.removePod pod = .ok m := by
      rw [NodeInfo.removePod_isOk_iff]
      unfold LastBesideCNR
      simp [hget, and_assoc]
    cases hm : n.removePod pod with
    | error e =>
      rw [hlast]
      simp [hm]
    | ok m =>
      have hplaced : n.podInfoMaintainer.Placed := by
        rw [← maintainerOf_of_get hget]
        exact h nodeName
      obtain ⟨hobjects, hpods⟩ := NodeInfo.removePod_ok hplaced hm
      have hnil : m.objectIsNil = n.objectIsNil := (NodeInfo.sameObjects_removePod hm).objectIsNil
      rw [hlast]
      simp only [hm, dropOrSet]
      split_ifs with hdrop
      · -- the node info goes, so its objects are kept only if it had none
        have hkept : (Function.update s.objectsOf nodeName .empty = s.objectsOf) ↔
            n.objects = .empty := by
          rw [update_eq_self_iff, objectsOf, objectsIn_of_get hget, eq_comm]
        rw [hnil] at hdrop
        have hnode : n.nmNode = none ∧ n.node = none := by
          simpa [NodeInfo.objectIsNil] using hdrop.2
        unfold objectsOf at hkept ⊢
        rw [objectsIn_delete, hkept]
        simp only [NodeInfo.objects, NodeObjects.empty, hnode, hdrop.2, NodeObjects.mk.injEq,
          true_and, hpods, hdrop.1, Except.ok.injEq, exists_eq', and_true,
          Option.not_isSome_iff_eq_none]
      · refine iff_of_true (objectsIn_set_of_get hget hobjects) ?_
        rintro ⟨⟨hnone, -, hone⟩, -⟩
        exact hdrop ⟨by omega, hnil.trans hnone⟩

/-- Which events keep the CNRs: those that do not take the last pod from beside one. -/
def KeepsCNR (handler : Handler) (s : NodeStore) : CacheOp → Prop
  | .deletePod pod => KeepsOnDelete pod
  | .updatePod cached oldPod _ => oldPod.uid ≠ "" → ∀ pod, cached = some pod → KeepsOnDelete pod
  | .forgetPod podInfo => ∀ nodeName, podInfo.pod.getNodeNameFromPod = some nodeName →
    ¬ s.LastBesideCNR nodeName podInfo.pod
  | _ => True
where
  KeepsOnDelete (pod : Pod) : Prop :=
    assumedOrBoundPod handler pod = true → ∀ nodeName, pod.getNodeNameFromPod = some nodeName →
      ¬ s.LastBesideCNR nodeName pod

section

variable {handler : Handler}

theorem objectsOf_addPod (s : NodeStore) (handler : Handler) (pod : Pod) :
    (s.addPod handler pod).1.objectsOf = s.objectsOf :=
  of_addPod (P := fun s' => s'.objectsOf = s.objectsOf) rfl fun k => objectsOf_addTo s k pod

theorem objectsOf_assumePod (s : NodeStore) (podInfo : CachePodInfo) :
    (s.assumePod podInfo).1.objectsOf = s.objectsOf :=
  of_assumePod (P := fun s' => s'.objectsOf = s.objectsOf) rfl fun k =>
    objectsOf_addTo s k podInfo.pod

variable (h : AllPlaced s)

include h

theorem objectsOf_deletePod_iff (pod : Pod) :
    (s.deletePod handler pod).1.objectsOf = s.objectsOf ↔ KeepsCNR.KeepsOnDelete handler s pod := by
  rw [deletePod_eq]
  unfold KeepsCNR.KeepsOnDelete
  cases pod.getNodeNameFromPod with
  | none => simp
  | some nodeName =>
    split_ifs with hconsidered
    · rw [objectsOf_removeFrom_iff h]
      simp [hconsidered]
    · simp [hconsidered]

theorem objectsOf_updatePod_iff (cached : Option Pod) (oldPod newPod : Pod) :
    (s.updatePod handler cached oldPod newPod).1.objectsOf = s.objectsOf ↔
      KeepsCNR handler s (.updatePod cached oldPod newPod) := by
  unfold updatePod KeepsCNR
  by_cases huid : oldPod.uid = ""
  · simp [Pod.getPodKey, huid]
  · have hkey : oldPod.getPodKey = .ok oldPod.uid := if_neg huid
    simp only [hkey, ne_eq, huid, not_false_eq_true, true_imp_iff]
    cases cached with
    | none => simp [objectsOf_addPod]
    | some pod =>
      have hdelete : (s.deletePod handler pod).1.objectsOf = s.objectsOf ↔
          KeepsCNR.KeepsOnDelete handler s pod := objectsOf_deletePod_iff h pod
      simp only [Option.some.injEq, forall_eq']
      rw [← hdelete]
      rcases hcall : s.deletePod handler pod with ⟨s', e | -⟩
      · rfl
      · dsimp only
        rw [objectsOf_addPod]

theorem objectsOf_forgetPod_iff (podInfo : CachePodInfo) :
    (s.forgetPod podInfo).1.objectsOf = s.objectsOf ↔ KeepsCNR handler s (.forgetPod podInfo) := by
  unfold forgetPod KeepsCNR
  cases hname : podInfo.pod.getNodeNameFromPod with
  | none => simp [hname]
  | some nodeName =>
    simp only [hname, Option.some.injEq, forall_eq']
    exact objectsOf_removeFrom_iff h nodeName podInfo.pod

/-- An event does to the store what it does to the record, but for the CNRs it drops. -/
theorem objectsOf_apply_iff (op : CacheOp) :
    (op.apply handler s).1.objectsOf = s.objectsOf.record op ↔ KeepsCNR handler s op := by
  cases op with
  | addNode node => exact iff_of_true (s.nodeEvent_putNode handler node).objectsOf trivial
  | updateNode _ newNode =>
    exact iff_of_true (s.nodeEvent_putNode handler newNode).objectsOf trivial
  | deleteNode node => exact iff_of_true (s.nodeEvent_deleteNode node).objectsOf trivial
  | addNMNode nmNode => exact iff_of_true (s.nodeEvent_putNMNode handler nmNode).objectsOf trivial
  | updateNMNode _ newNMNode =>
    exact iff_of_true (s.nodeEvent_putNMNode handler newNMNode).objectsOf trivial
  | deleteNMNode nmNode => exact iff_of_true (s.nodeEvent_deleteNMNode nmNode).objectsOf trivial
  | addCNR cnr => exact iff_of_true (s.nodeEvent_putCNR cnr).objectsOf trivial
  | updateCNR _ newCNR => exact iff_of_true (s.nodeEvent_putCNR newCNR).objectsOf trivial
  | deleteCNR cnr => exact iff_of_true (s.nodeEvent_deleteCNR cnr).objectsOf trivial
  | addPod pod => exact iff_of_true (objectsOf_addPod s handler pod) trivial
  | updatePod cached oldPod newPod => exact objectsOf_updatePod_iff h cached oldPod newPod
  | deletePod pod => exact objectsOf_deletePod_iff h pod
  | assumePod podInfo => exact iff_of_true (objectsOf_assumePod s podInfo) trivial
  | forgetPod podInfo => exact objectsOf_forgetPod_iff h podInfo
  | setNodeInPartition k =>
    exact iff_of_true ((s.nodeEvent_setPartition k true).objectsOf.trans
      (update_eq_self ..)) trivial
  | setNodeOutOfPartition k =>
    exact iff_of_true ((s.nodeEvent_setPartition k false).objectsOf.trans
      (update_eq_self ..)) trivial

theorem allPlaced_apply (op : CacheOp) : AllPlaced (op.apply handler s).1 := by
  cases hop : op.isNodeEvent with
  | true => exact (keepsPods_nodeEvent handler s hop).placed h
  | false =>
    cases op with
    | addPod pod => exact allPlaced_addPod h handler pod
    | updatePod cached oldPod newPod => exact allPlaced_updatePod h handler cached oldPod newPod
    | deletePod pod => exact allPlaced_deletePod h handler pod
    | assumePod podInfo => exact allPlaced_assumePod h podInfo
    | forgetPod podInfo => exact allPlaced_forgetPod h podInfo
    | _ => cases hop

end

/-- The store and the record of the events it has seen. -/
def observe (handler : Handler) (x : NodeStore × ObjectRecord) (op : CacheOp) :
    NodeStore × ObjectRecord :=
  ((op.apply handler x.1).1, x.2.record op)

/-- Every node name has the objects of the record. -/
def Survive (x : NodeStore × ObjectRecord) : Prop := x.1.objectsOf = x.2

/-- In every state of a run the node infos hold the objects last added or updated and not deleted
since, just when no step takes the last pod from a node info with a CNR and no other object. -/
theorem objects_survive_iff (handler : Handler) (ops : List CacheOp) :
    Always (observe handler) Survive (new, fun _ => .empty) ops ↔
      Along (observe handler) (fun x op => KeepsCNR handler x.1 op) (new, fun _ => .empty) ops := by
  refine always_iff_along (I := fun x => Survive x ∧ AllPlaced x.1) (fun x h => h.1) ?_ ?_ ?_
    (along_true _ ops)
  · rintro ⟨s, r⟩ op ⟨hs, hplaced⟩ - hkeeps
    obtain rfl : s.objectsOf = r := hs
    exact ⟨(objectsOf_apply_iff hplaced op).mpr hkeeps, allPlaced_apply hplaced op⟩
  · rintro ⟨s, r⟩ op ⟨hs, hplaced⟩ - hsurvive
    obtain rfl : s.objectsOf = r := hs
    exact (objectsOf_apply_iff hplaced op).mp hsurvive
  · refine ⟨?_, allPlaced_new⟩
    funext k
    exact objectsIn_of_get_eq_none (ListStore.get_new k)

/-- A CNR arrives before the Node of its name, and a pod bound to the node comes and goes: the
node info is dropped with the CNR in it. -/
theorem cnr_lost_with_last_pod :
    let name : NodeName := ⟨"n", by decide⟩
    let cnr : CustomNodeResource := { name := name }
    let pod : Pod := { uid := "u", ns := "default", name := "p", nodeName := some name }
    let x := run (observe {}) (new, fun _ => .empty) [.addCNR cnr, .addPod pod, .deletePod pod]
    x.1.objectsOf name = .empty ∧ (x.2 name).cnr = some cnr ∧ ¬ Survive x := by
  intro name cnr pod x
  have hlost : x.1.objectsOf name = .empty := by decide
  have hrecord : (x.2 name).cnr = some cnr := by decide
  refine ⟨hlost, hrecord, ?_⟩
  intro hsurvive
  rw [← congrFun hsurvive name, hlost] at hrecord
  cases hrecord

end NodeStore

end SchedulerCache

end GodelScheduler
