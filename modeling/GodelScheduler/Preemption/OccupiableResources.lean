import GodelScheduler.Framework.VictimCandidates
import GodelScheduler.NodeResources.Fits

/-!
# Occupiable resources

Before victims are searched on a node, a heuristic compares the request of the preemptor
with what it could occupy at most: the free CPU and memory of its resource type and all
that the pods it may preempt request.

Requests are not negative, so victims free no more than that, and as long as no sum leaves
the range of 64-bit integers, a preemptor that fits after its victims are gone passes the
check, unless it requests nothing. Such a pod fits whatever is requested; the check turns
it away where the pods it may not preempt request more than the node has
(`occupiableResourcesCheck_of_fits_iff`).
-/

namespace GodelScheduler.Preemption

open Library NodeResources NodeInfoImpl PodInfoMaintainer List

section

variable (gates : FeatureGates) (o : ResourceOrders)

/-- The type whose container and columns are asked; an illegal one is asked as best-effort. -/
def partitionType (resourceType : Option PodResourceType) : PodResourceType :=
  if resourceType = some .guaranteed then .guaranteed else .bestEffort

abbrev askedType (pod : Pod) : PodResourceType := partitionType pod.podResourceType

/-- Greater than the priority of every pod that the preemptor may preempt. -/
def getPodPartitionPriority (pod : Pod) : ℤ := pod.getPodPriority + 1

def getOccupiableResources (n : NodeInfoImpl) (priorityUpper : ℤ)
    (resourceType : Option PodResourceType) : Resource :=
  let type := partitionType resourceType
  let (milliCPU, memory) :=
    n.podInfoMaintainer.getMaintainableInfoByPartition gates o priorityUpper type
  { milliCPU :=
      int64 (milliCPU + int64 ((n.allocatable type).milliCPU - (n.requested type).milliCPU))
    memory := int64 (memory + int64 ((n.allocatable type).memory - (n.requested type).memory)) }

def occupiableResourcesCheck (priority : ℤ) (podResourceType : Option PodResourceType)
    (podResource : Resource) (node : NodeInfoImpl) : Bool :=
  let occupiableResource := getOccupiableResources gates o node priority podResourceType
  if podResource.milliCPU > occupiableResource.milliCPU ∨
    podResource.memory > occupiableResource.memory then false else true

end

variable {victims : List Pod} {describe : Pod → String → String}

section

variable {gates : FeatureGates} {o : ResourceOrders} {n m : NodeInfoImpl} {pod : Pod}

/-- Pods of the preemptor's type that may be preempted and have no higher priority. -/
structure MayPreempt (n : NodeInfoImpl) (pod : Pod) (victims : List Pod) : Prop where
  distinct : (victims.map Pod.uid).Nodup
  stored : ∀ v ∈ victims,
    (n.podInfoMaintainer.mayBePreempted (askedType pod)).lookup v.uid = some v
  priority : ∀ v ∈ victims, v.getPodPriority ≤ pod.getPodPriority

/-- The pods a partition at the preemptor's priority sums up. -/
def partitionPods (n : NodeInfoImpl) (pod : Pod) : List Pod :=
  ((n.podInfoMaintainer.mayBePreempted (askedType pod)).entries.map
    Sigma.snd).filter fun v => decide (v.getPodPriority < getPodPartitionPriority pod)

theorem mem_partitionPods {v : Pod} : v ∈ partitionPods n pod ↔
    (∃ k, (n.podInfoMaintainer.mayBePreempted (askedType pod)).lookup k =
      some v) ∧ v.getPodPriority ≤ pod.getPodPriority := by
  simp only [partitionPods, getPodPartitionPriority, mem_filter, mem_map, Sigma.exists,
    decide_eq_true_eq, Int.lt_add_one_iff]
  refine and_congr_left fun _ => ?_
  constructor
  · rintro ⟨k, p, hmem, rfl⟩
    exact ⟨k, AList.mem_lookup_iff.mpr hmem⟩
  · rintro ⟨k, hk⟩
    exact ⟨k, v, AList.mem_lookup_iff.mp hk, rfl⟩

/-- The pods of the preemptor's column that it may not preempt: those of a higher priority and
those that are never preempted. -/
def otherPods (n : NodeInfoImpl) (pod : Pod) : List Pod :=
  let type := askedType pod
  ((n.podInfoMaintainer.mayBePreempted type).entries.map Sigma.snd).filter
      (fun v => decide (pod.getPodPriority < v.getPodPriority)) ++
    (n.podInfoMaintainer.neverBePreempted.entries.map Sigma.snd).filter
      fun v => decide (columnOf v = type)

def requestOf (gates : FeatureGates) (o : ResourceOrders) (pods : List Pod) (f : ResourceField) :
    ℤ :=
  (pods.map fun v => (totalRequest gates o v).amount f).sum

theorem sumRequests_eq_requestOf (type : PodResourceType) (f : ResourceField) (pods : List Pod) :
    sumRequests gates o type f pods =
      requestOf gates o (pods.filter fun v => decide (columnOf v = type)) f := by
  induction pods with
  | nil => rfl
  | cons v pods ih =>
    rw [sumRequests_cons, ih, filter_cons]
    by_cases hv : columnOf v = type <;> simp [hv, requestOf]

/-- A column is made up of the pods of the partition and the others. -/
theorem sumRequests_pods (hfiled : n.podInfoMaintainer.Filed) (f : ResourceField) :
    sumRequests gates o (askedType pod) f n.pods =
      requestOf gates o (partitionPods n pod) f + requestOf gates o (otherPods n pod) f := by
  generalize htype : askedType pod = type
  have hcolumn : ∀ type', ∀ v ∈ (n.podInfoMaintainer.mayBePreempted type').entries.map Sigma.snd,
      columnOf v = type' := by
    intro type' v hv
    obtain ⟨⟨k, v⟩, he, rfl⟩ := mem_map.mp hv
    rw [columnOf, hfiled.typed type' k v (AList.mem_lookup_iff.mpr he), Option.getD_some]
  have hall : n.pods.filter (fun v => decide (columnOf v = type)) =
      (n.podInfoMaintainer.mayBePreempted type).entries.map Sigma.snd ++
        (n.podInfoMaintainer.neverBePreempted.entries.map Sigma.snd).filter
          fun v => decide (columnOf v = type) := by
    have hself := filter_eq_self (p := fun v => decide (columnOf v = type)).mpr
      fun v hv => decide_eq_true (hcolumn type v hv)
    have hnone : ∀ type', type' ≠ type →
        ((n.podInfoMaintainer.mayBePreempted type').entries.map Sigma.snd).filter
          (fun v => decide (columnOf v = type)) = [] := by
      intro type' hne
      refine filter_eq_nil_iff.mpr fun v hv => ?_
      rw [hcolumn type' v hv, decide_eq_true_eq]
      exact hne
    simp only [NodeInfoImpl.pods, PodInfoMaintainer.pods, map_append, filter_append]
    cases type with
    | guaranteed =>
      exact congrArg (· ++ _) ((congrArg₂ _ (hnone .bestEffort (by simp)) hself).trans
        (nil_append _))
    | bestEffort =>
      exact congrArg (· ++ _) ((congrArg₂ _ hself (hnone .guaranteed (by simp))).trans
        (append_nil _))
  have hsplit := (filter_append_perm
    (fun v : Pod => decide (v.getPodPriority < getPodPartitionPriority pod))
    ((n.podInfoMaintainer.mayBePreempted type).entries.map Sigma.snd)).symm
  have hhigher : (fun v : Pod => !decide (v.getPodPriority < getPodPartitionPriority pod)) =
      fun v => decide (pod.getPodPriority < v.getPodPriority) := by
    funext v
    rw [← decide_not, decide_eq_decide, getPodPartitionPriority]
    omega
  rw [sumRequests_eq_requestOf, hall, requestOf, map_append, sum_append,
    (hsplit.map _).sum_eq]
  simp only [requestOf, partitionPods, otherPods, htype, hhigher, map_append, sum_append,
    add_assoc]

theorem getMaintainableInfoByPartition_eq (n : NodeInfoImpl) (pod : Pod) :
    n.podInfoMaintainer.getMaintainableInfoByPartition gates o (getPodPartitionPriority pod)
        (askedType pod) =
      (int64 (requestOf gates o (partitionPods n pod) .milliCPU),
        int64 (requestOf gates o (partitionPods n pod) .memory)) := by
  have hfilter : (PodInfoMaintainer.podInfos gates o
      (n.podInfoMaintainer.mayBePreempted (askedType pod))).filter
        (PodPartitionInfo.compare ⟨getPodPartitionPriority pod⟩) =
      (partitionPods n pod).map (newPodInfo gates o) := by
    rw [podInfos, partitionPods, filter_map, filter_map, map_map]
    rfl
  rw [getMaintainableInfoByPartition, hfilter]
  simp only [PodInfo.sumMilliCPU, PodInfo.sumMemory, requestOf, map_map,
    ← calculateResource_fst]
  rfl

theorem mem_pods_of_mem_partitionPods {v : Pod} (hv : v ∈ partitionPods n pod) : v ∈ n.pods := by
  obtain ⟨⟨k, hk⟩, -⟩ := mem_partitionPods.mp hv
  exact mem_pods.mpr ⟨some _, k, hk⟩

theorem mem_pods_of_mem_otherPods {v : Pod} (hv : v ∈ otherPods n pod) : v ∈ n.pods := by
  rcases mem_append.mp hv with hv | hv
  all_goals
    obtain ⟨⟨k, v⟩, he, rfl⟩ := mem_map.mp (mem_of_mem_filter hv)
  · exact mem_pods.mpr ⟨some _, k, AList.mem_lookup_iff.mpr he⟩
  · exact mem_pods.mpr ⟨none, k, AList.mem_lookup_iff.mpr he⟩

theorem requestOf_nonneg {pods : List Pod} {f : ResourceField}
    (h : ∀ v ∈ pods, 0 ≤ (totalRequest gates o v).amount f) : 0 ≤ requestOf gates o pods f := by
  refine sum_nonneg fun x hx => ?_
  obtain ⟨v, hv, rfl⟩ := mem_map.mp hx
  exact h v hv

/-- Victims request no more than all the pods of the partition. -/
theorem MayPreempt.requestOf_le (h : MayPreempt n pod victims) {f : ResourceField}
    (hnonneg : ∀ v ∈ n.pods, 0 ≤ (totalRequest gates o v).amount f) :
    requestOf gates o victims f ≤ requestOf gates o (partitionPods n pod) f := by
  have hsubset : victims ⊆ partitionPods n pod := fun v hv =>
    mem_partitionPods.mpr ⟨⟨v.uid, h.stored v hv⟩, h.priority v hv⟩
  obtain ⟨victims', hperm, hsublist⟩ := subperm_of_subset (h.distinct.of_map _) hsubset
  obtain ⟨rest, hrest⟩ := hsublist.exists_perm_append
  have hsum : requestOf gates o (partitionPods n pod) f =
      requestOf gates o victims f + requestOf gates o rest f := by
    rw [requestOf, (hrest.map _).sum_eq, map_append, sum_append, (hperm.map _).sum_eq]
    rfl
  have hrestNonneg : 0 ≤ requestOf gates o rest f := requestOf_nonneg fun v hv =>
    hnonneg v (mem_pods_of_mem_partitionPods (hrest.mem_iff.mpr (mem_append_right _ hv)))
  omega

theorem MayPreempt.amount_removePods (h : MayPreempt n pod victims)
    (hfiled : n.podInfoMaintainer.Filed) (hm : n.removePods gates o describe victims = .ok m)
    {f : ResourceField} (hf : f ≠ .allowedPodNumber) :
    (m.requested (askedType pod)).amount f =
      (n.requested (askedType pod)).amount f -
        requestOf gates o victims f := by
  have hremoves := removes_removePods hfiled.toPlaced h.distinct hm
  have hstored : ∀ v ∈ victims, n.storedAmount gates o (askedType pod) f v.uid =
      (totalRequest gates o v).amount f := by
    intro v hv
    have htype := hfiled.typed _ _ v (h.stored v hv)
    have hcolumn : NodeInfoImpl.columnOf v = askedType pod := by
      rw [columnOf, htype, Option.getD_some]
    rw [storedAmount, hfiled.getPodInfo (c := some _) (h.stored v hv)]
    exact if_pos hcolumn
  rw [hremoves.amount _ f hf, map_map]
  exact congrArg _ (congrArg List.sum (map_congr_left hstored))

end

section Heuristic

variable {gates : FeatureGates} {o o' : ResourceOrders} {n m : NodeInfoImpl} {pod : Pod}

/-- Neither CPU nor memory, disk or a scalar resource is requested. -/
def RequestsNothing (r : Resource) : Prop :=
  r.milliCPU = 0 ∧ r.memory = 0 ∧ r.ephemeralStorage = 0 ∧ r.scalarResources.len = 0

/-- The resources that the check compares. -/
def occupiableFields : List ResourceField := [.milliCPU, .memory]

/-- The pods that the preemptor may not preempt leave it its CPU and memory. -/
def LeftByOthers (gates : FeatureGates) (o : ResourceOrders) (n : NodeInfoImpl) (pod : Pod) :
    Prop :=
  ∀ f ∈ occupiableFields,
    (totalRequest gates o pod).amount f + requestOf gates o (otherPods n pod) f ≤
      (n.allocatable (askedType pod)).amount f

/-- No amount is negative, as validated for pods and nodes, and all the requests of the preemptor's
column and its own add up to a 64-bit integer. -/
structure InRange (gates : FeatureGates) (o : ResourceOrders) (n : NodeInfoImpl) (pod : Pod) :
    Prop where
  requests : ∀ v ∈ pod :: n.pods, ∀ f, 0 ≤ (totalRequest gates o v).amount f
  allocatable : ∀ f, 0 ≤ (n.allocatable (askedType pod)).amount f ∧
    FitsInt64 ((n.allocatable (askedType pod)).amount f)
  sum : ∀ f, FitsInt64 ((totalRequest gates o pod).amount f +
    sumRequests gates o (askedType pod) f n.pods)

section

variable (hfiled : n.podInfoMaintainer.Filed) (haccounted : Accounted gates o n)
  (hrange : InRange gates o n pod)

include hfiled haccounted hrange

/-- Nothing wraps around: what may be occupied is what the other pods leave. -/
theorem InRange.occupiable {f : ResourceField} (hf : f ≠ .allowedPodNumber) :
    int64 (int64 (requestOf gates o (partitionPods n pod) f) +
        int64 ((n.allocatable (askedType pod)).amount f -
          (n.requested (askedType pod)).amount f)) =
      (n.allocatable (askedType pod)).amount f -
        requestOf gates o (otherPods n pod) f := by
  have hsum := hrange.sum f
  rw [sumRequests_pods hfiled] at hsum
  rw [int64_int64_add, int64_add_int64, haccounted.sum _ f hf, sumRequests_pods hfiled]
  have hpod := hrange.requests pod mem_cons_self f
  have hpartition : 0 ≤ requestOf gates o (partitionPods n pod) f := requestOf_nonneg fun v hv =>
    hrange.requests v (mem_cons_of_mem _ (mem_pods_of_mem_partitionPods hv)) f
  have hothers : 0 ≤ requestOf gates o (otherPods n pod) f := requestOf_nonneg fun v hv =>
    hrange.requests v (mem_cons_of_mem _ (mem_pods_of_mem_otherPods hv)) f
  obtain ⟨hnonneg, hallocatable⟩ := hrange.allocatable f
  have hfits : FitsInt64 ((n.allocatable (askedType pod)).amount f -
      requestOf gates o (otherPods n pod) f) := by
    unfold FitsInt64 at hsum hallocatable ⊢
    omega
  rw [← hfits.int64_eq]
  congr 1
  omega

theorem occupiableResourcesCheck_iff :
    occupiableResourcesCheck gates o (getPodPartitionPriority pod) pod.podResourceType
      (calculateResource gates o pod).1 n = true ↔ LeftByOthers gates o n pod := by
  have hcpu := hrange.occupiable hfiled haccounted (f := .milliCPU) (by simp)
  have hmemory := hrange.occupiable hfiled haccounted (f := .memory) (by simp)
  unfold occupiableResourcesCheck getOccupiableResources LeftByOthers occupiableFields
  simp only [getMaintainableInfoByPartition_eq, calculateResource_fst, forall_mem_cons,
    not_mem_nil, false_implies, implies_true, and_true]
  simp only [Resource.amount, Resource.view, Option.getD_some] at hcpu hmemory ⊢
  rw [hcpu, hmemory]
  split_ifs with hshort
  · refine iff_of_false (by simp) ?_
    rintro ⟨hcpu, hmemory⟩
    rcases hshort with hshort | hshort <;> omega
  · refine iff_of_true rfl ?_
    rw [not_or] at hshort
    constructor <;> omega

/-- A request for something that fits without the victims is left by the other pods. -/
theorem MayPreempt.leftByOthers (h : MayPreempt n pod victims)
    (hm : n.removePods gates o describe victims = .ok m)
    (hfits : ∀ f ∈ occupiableFields, (totalRequest gates o pod).amount f +
        (m.requested (askedType pod)).amount f ≤
      (m.allocatable (askedType pod)).amount f) : LeftByOthers gates o n pod := by
  intro f hmem
  have hf : f ≠ .allowedPodNumber := by
    rintro rfl
    simp [occupiableFields] at hmem
  have hfit := hfits f hmem
  rw [(removes_removePods hfiled.toPlaced h.distinct hm).allocatable,
    h.amount_removePods hfiled hm hf, haccounted.sum _ f hf, sumRequests_pods hfiled] at hfit
  have hle := h.requestOf_le (f := f) fun v hv => hrange.requests v (mem_cons_of_mem _ hv) f
  omega

end

variable {text : QuantityText} {ignored : IgnoredResources}

theorem same_request (gates : FeatureGates) (o o' : ResourceOrders) (pod : Pod) :
    (computePodResourceRequest gates o' pod).milliCPU = (totalRequest gates o pod).milliCPU ∧
      (computePodResourceRequest gates o' pod).memory = (totalRequest gates o pod).memory := by
  have hsame := same_totalRequest gates o' o pod
  exact ⟨hsame.amount .milliCPU, hsame.amount .memory⟩

theorem fitsRequestCore_of_requestsNothing {podRequest : PodRequest} {podNumber : ℕ}
    {allocatable requested : Resource} (hnothing : RequestsNothing podRequest.toResource)
    (hpods : podRequest.ignorePodsLimit = true ∨
      (podNumber : ℤ) + 1 ≤ allocatable.allowedPodNumber) :
    fitsRequestCore text o ignored podRequest podNumber allocatable requested = none := by
  obtain ⟨hcpu, hmemory, hdisk, hscalars⟩ := hnothing
  unfold fitsRequestCore
  rw [if_neg, if_pos ⟨hcpu, hmemory, hdisk, hscalars⟩]
  intro hlimit
  rw [Bool.and_eq_true, Bool.not_eq_true', decide_eq_true_eq] at hlimit
  rcases hpods with hpods | hpods
  · rw [hpods] at hlimit
    cases hlimit.1
  · omega

def emptyNode (cores : ℤ) : NodeInfoImpl :=
  { NodeInfo.new with
    guaranteedAllocatable := { milliCPU := cores * 1000, allowedPodNumber := 10 } }

def smallPodNode : NodeInfoImpl := (emptyNode 3).addPod allGates .forward (cpuPod "low" 1 2)

theorem filed_smallPodNode : smallPodNode.podInfoMaintainer.Filed := by
  have hadd := filed_new.addPodInfo (p := cpuPod "low" 1 2) (by decide)
  rwa [smallPodNode, toNodeInfo_addPod]

theorem accounted_smallPodNode : Accounted allGates .forward smallPodNode :=
  (accounted_new _ _).addPod (by decide)

theorem inRange_smallPodNode : InRange allGates .forward smallPodNode (cpuPod "high" 5 2) where
  requests v hv f := by
    rcases mem_pair.mp hv with rfl | rfl
    all_goals
      cases f with
      | scalar name => exact le_of_eq rfl
      | _ => decide
  allocatable f := by
    cases f with
    | scalar name => exact (by decide : (0 : ℤ) ≤ 0 ∧ FitsInt64 0)
    | _ => decide
  sum f := by
    cases f with
    | scalar name => exact (by decide : FitsInt64 0)
    | _ => decide

/-- A pod of high priority on a node that has since lost half of its cores. -/
def overcommittedNode : NodeInfoImpl :=
  (emptyNode 1).addPod allGates .forward (cpuPod "high" 5 2)

end Heuristic

end GodelScheduler.Preemption
