import GodelScheduler.Framework.NodeResources
import GodelScheduler.Library.Runs

/-!
# The resource totals of a node over whole runs

Besides what its pods request, a node keeps the totals of CPU and memory with
the defaults for containers that request none. Each total is a number that a pod
changes by an amount of its own when it comes, and by the opposite amount when it
goes, so as long as no UID is added twice it is the sum over the pods
on the node. What is taken away is the amount of the stored pod, whatever object
the removal was called with.

The number of pods among the requests is not a total: no pod changes it, and
`requested_pods_not_counted` is a pod that requests some.
-/

namespace GodelScheduler

open Library

section

variable (gates : FeatureGates) (o : ResourceOrders)

def addNonZero (s : ℤ × ℤ) (requests : ResourceList) : ℤ × ℤ :=
  (s.1 + (getNonzeroRequests requests).1, s.2 + (getNonzeroRequests requests).2)

def raiseNonZero (s : ℤ × ℤ) (requests : ResourceList) : ℤ × ℤ :=
  (if s.1 < (getNonzeroRequests requests).1 then (getNonzeroRequests requests).1 else s.1,
    if s.2 < (getNonzeroRequests requests).2 then (getNonzeroRequests requests).2 else s.2)

/-- CPU and memory with the defaults, the second and third result of `calculateResource`. -/
def nonZeroRequest (pod : Pod) : ℤ × ℤ :=
  let s := pod.initContainers.foldl raiseNonZero (pod.containers.foldl addNonZero (0, 0))
  match pod.overhead with
  | none => s
  | some overhead =>
    if gates.podOverhead then
      (s.1 + ((overhead.lookup "cpu").map Quantity.milliValue).getD 0,
        s.2 + ((overhead.lookup "memory").map Quantity.value).getD 0)
    else s

theorem calculateResource_snd (pod : Pod) :
    (calculateResource gates o pod).2 = nonZeroRequest gates pod := by
  unfold calculateResource nonZeroRequest
  extract_lets s s' r
  have hr : s'.2 = r := by
    rw [show s'.2 = pod.initContainers.foldl raiseNonZero s.2 from
        (List.foldl_hom Prod.snd fun _ _ => rfl).symm,
      show s.2 = pod.containers.foldl addNonZero (0, 0) from
        (List.foldl_hom Prod.snd fun _ _ => rfl).symm]
  cases pod.overhead with
  | none => exact hr
  | some overhead =>
    split_ifs
    · rw [hr]
    · exact hr

/-- The computed request of a pod with the defaults; only CPU and memory have one. -/
def nonZeroAmount (pod : Pod) : ResourceField → ℤ
  | .milliCPU => (nonZeroRequest gates pod).1
  | .memory => (nonZeroRequest gates pod).2
  | _ => 0

end

namespace NodeInfoImpl

variable (gates : FeatureGates) {o : ResourceOrders} {n : NodeInfoImpl}

def nonZeroRequested (n : NodeInfoImpl) : PodResourceType → Resource
  | .guaranteed => n.guaranteedNonZeroRequested
  | .bestEffort => n.bestEffortNonZeroRequested

theorem tally_nonZeroRequested (type : PodResourceType) (f : ResourceField) :
    Tally gates (fun n => (n.nonZeroRequested type).amount f)
      (fun pod => if columnOf pod = type then nonZeroAmount gates pod f else 0) where
  update o n pod sign := by
    have hsnd := calculateResource_snd gates o pod
    have hcpu : (calculateResource gates o pod).2.1 = (nonZeroRequest gates pod).1 := by rw [hsnd]
    have hmem : (calculateResource gates o pod).2.2 = (nonZeroRequest gates pod).2 := by rw [hsnd]
    unfold update columnOf
    rcases pod.podResourceType with _ | _ | _ <;> cases type <;> cases f <;>
      simp [nonZeroRequested, updateNonZero, Resource.amount, Resource.view, nonZeroAmount, hcpu,
        hmem]
  keeps n m := by
    cases type <;> rfl

/-- Both totals of each type are the sums over the pods on the node. -/
structure Exact (n : NodeInfoImpl) : Prop where
  requested : ∀ type f, f ≠ .allowedPodNumber → (n.requested type).amount f =
    (n.pods.map fun pod =>
      if columnOf pod = type then (totalRequest gates .forward pod).amount f else 0).sum
  nonZeroRequested : ∀ type f, (n.nonZeroRequested type).amount f =
    (n.pods.map fun pod => if columnOf pod = type then nonZeroAmount gates pod f else 0).sum

/-- No pods yet and nothing counted; the objects and the allocatable resources are arbitrary. -/
structure Fresh (n : NodeInfoImpl) : Prop where
  empty : n.podInfoMaintainer = .new
  requested : ∀ type, n.requested type = {}
  nonZeroRequested : ∀ type, n.nonZeroRequested type = {}

inductive PodOp
  | addPod (o : ResourceOrders) (pod : Pod)
  | removePod (o : ResourceOrders) (pod : Pod)

/-- A removal that fails leaves the node as it is. -/
def step (n : NodeInfoImpl) : PodOp → NodeInfoImpl
  | .addPod o pod => n.addPod gates o pod
  | .removePod o pod =>
    match n.removePod gates o pod with
    | .ok m => m
    | .error _ => n

/-- A pod is added only while no pod of its UID is on the node. -/
def AddsNew (n : NodeInfoImpl) : PodOp → Prop
  | .addPod _ pod => n.podInfoMaintainer.getPodInfo pod.uid = none
  | .removePod _ _ => True

instance (n : NodeInfoImpl) (op : PodOp) : Decidable (AddsNew n op) := by
  cases op <;> unfold AddsNew <;> infer_instance

variable {gates}

theorem Fresh.exact (h : Fresh n) : Exact gates n := by
  have hpods : n.pods = [] := by
    rw [pods, h.empty]
    rfl
  constructor
  · intro type f _
    rw [h.requested, hpods]
    cases f <;> rfl
  · intro type f
    rw [h.nonZeroRequested, hpods]
    cases f <;> rfl

theorem exact_step (hplaced : n.podInfoMaintainer.Placed) (h : Exact gates n) {op : PodOp}
    (hnew : AddsNew n op) :
    (n.step gates op).podInfoMaintainer.Placed ∧ Exact gates (n.step gates op) := by
  cases op with
  | addPod o pod =>
    refine ⟨?_, ?_, ?_⟩
    · simp only [step, toNodeInfo_addPod]
      exact hplaced.addPodInfo pod
    · intro type f hf
      exact (tally_requested gates .forward type hf).addPod hnew (h.requested type f hf)
    · intro type f
      exact (tally_nonZeroRequested gates type f).addPod hnew (h.nonZeroRequested type f)
  | removePod o pod =>
    cases hm : n.removePod gates o pod with
    | error e =>
      simp only [step, hm]
      exact ⟨hplaced, h⟩
    | ok m =>
      simp only [step, hm]
      refine ⟨(removes_removePod hplaced hm).placed, ?_, ?_⟩
      · intro type f hf
        exact (tally_requested gates .forward type hf).removePod hplaced (h.requested type f hf) hm
      · intro type f
        exact (tally_nonZeroRequested gates type f).removePod hplaced (h.nonZeroRequested type f) hm

variable (gates) in
/-- The totals are exact in every state of a run that adds no UID twice. -/
theorem exact_of_addsNew (hfresh : Fresh n) (ops : List PodOp)
    (hnew : Along (step gates) AddsNew n ops) : Always (step gates) (Exact gates) n ops := by
  have hstart : n.podInfoMaintainer.Placed ∧ Exact gates n := by
    refine ⟨?_, hfresh.exact⟩
    rw [hfresh.empty]
    exact PodInfoMaintainer.placed_new
  have hrun := always_of_step (P := fun n => n.podInfoMaintainer.Placed ∧ Exact gates n)
    (fun _ _ h hop => exact_step h.1 h.2 hop) hstart hnew
  exact hrun.mono fun _ h => h.2

/-- Two pods come, one of each type, and the first goes again. -/
theorem exact_two_pods_one_removed :
    let gates : FeatureGates := ⟨true, true⟩
    let n : NodeInfoImpl := { NodeInfo.new with }
    let cpu : ResourceList := (∅ : ResourceList).insert "cpu" ⟨1000000000⟩
    let gt : Pod := { uid := "u1", ns := "default", name := "gt", containers := [cpu] }
    let be : Pod := { gt with uid := "u2", podResourceType := some .bestEffort }
    let ops : List PodOp :=
      [.addPod .forward gt, .addPod .forward be, .removePod .forward gt]
    Along (step gates) AddsNew n ops ∧ Always (step gates) (Exact gates) n ops := by
  intro gates n cpu gt be ops
  have hnew : Along (step gates) AddsNew n ops := by decide
  refine ⟨hnew, exact_of_addsNew gates ⟨rfl, ?_, ?_⟩ ops hnew⟩
  · intro type
    cases type <;> rfl
  · intro type
    cases type <;> rfl

/-- A pod whose container requests three of the resource `pods`: the request is computed, and no
total counts it. -/
theorem requested_pods_not_counted :
    let gates : FeatureGates := ⟨true, true⟩
    let requests : ResourceList := (∅ : ResourceList).insert "pods" ⟨3000000000⟩
    let pod : Pod := { uid := "u", ns := "default", name := "p", containers := [requests] }
    let n := run (step gates) ({ NodeInfo.new with } : NodeInfoImpl) [.addPod .forward pod]
    n.pods = [pod] ∧ (totalRequest gates .forward pod).amount .allowedPodNumber = 3 ∧
      (n.requested .guaranteed).amount .allowedPodNumber = 0 := by
  decide

end NodeInfoImpl

end GodelScheduler
