import GodelScheduler.Framework.NodeResources

/-!
# Fitting a pod on a node

The filter and the accounting compute the resources of a pod with two functions:
`computePodResourceRequest` is what a node is checked with, `calculateResource`
what is added to the node. They agree in every field, so a pod that fits does not
overcommit the node it is added to.
-/

namespace GodelScheduler.NodeResources

open Library NodeInfoImpl

structure PodRequest extends Resource where
  resourceType : Option PodResourceType
  ignorePodsLimit : Bool

section

variable (gates : FeatureGates) (o : ResourceOrders)

def computePodResourceRequest (pod : Pod) : PodRequest :=
  let result := pod.containers.foldl (fun r container => r.add gates o container) {}
  let result := pod.initContainers.foldl (fun r container => r.setMaxResource o container) result
  let result :=
    match pod.overhead with
    | none => result
    | some overhead => if gates.podOverhead then result.add gates o overhead else result
  { toResource := result
    resourceType := pod.podResourceType
    ignorePodsLimit := pod.ignorePodsLimit }

theorem computePodResourceRequest_toResource (pod : Pod) :
    (computePodResourceRequest gates o pod).toResource = totalRequest gates o pod := rfl

end

/-- How quantities are written: in thousandths, with binary or with decimal suffixes. -/
structure QuantityText where
  milli : ℤ → String
  binarySI : ℤ → String
  decimalSI : ℤ → String

structure InsufficientResource where
  resourceName : ResourceName
  reason : String
  requested : ℤ
  used : ℤ
  capacity : ℤ

def errReasonTooManyPods : String := "node(s) had too many pods"

def errReasonRequestNotFitMessage (request : String) (resource : ResourceName) : String :=
  "node(s) could not satisfy " ++ request ++ " " ++ resource ++ " " ++ "request"

/-- The extended resources the check is told to skip, by name or by the part before the slash. -/
structure IgnoredResources where
  extendedResources : Finset String := ∅
  resourceGroups : Finset String := ∅

def IgnoredResources.ignores (ignored : IgnoredResources) (name : ResourceName) : Bool :=
  ResourceName.isExtendedResourceName name &&
    (decide (name ∈ ignored.extendedResources) ||
      decide ((if 0 < ignored.resourceGroups.card then ResourceName.group name else "") ∈
        ignored.resourceGroups))

section

variable (text : QuantityText) (o : ResourceOrders) (ignored : IgnoredResources)

def checkAmount (resourceName : ResourceName) (quantity : ℤ → String)
    (requested used capacity : ℤ) : Option InsufficientResource :=
  if capacity < requested + used then
    some
      { resourceName := resourceName
        reason := errReasonRequestNotFitMessage (quantity requested) resourceName
        requested := requested
        used := used
        capacity := capacity }
  else none

def checkScalar (allocatable requested : Resource) (e : Sigma fun _ : ResourceName => ℤ) :
    Option InsufficientResource :=
  if ignored.ignores e.1 then none
  else
    checkAmount e.1
      (if ResourceName.isHugePageResourceName e.1 then text.binarySI else text.decimalSI)
      e.2 (requested.getScalar e.1) (allocatable.getScalar e.1)

variable (podRequest : PodRequest)

def fitsRequestCore (podNumber : ℕ) (allocatable requested : Resource) :
    Option InsufficientResource :=
  if !podRequest.ignorePodsLimit && decide ((podNumber : ℤ) + 1 > allocatable.allowedPodNumber)
  then
    some
      { resourceName := "pods"
        reason := errReasonTooManyPods
        requested := 1
        used := podNumber
        capacity := allocatable.allowedPodNumber }
  else if podRequest.milliCPU = 0 ∧ podRequest.memory = 0 ∧ podRequest.ephemeralStorage = 0 ∧
      podRequest.scalarResources.len = 0 then none
  else
    (checkAmount "cpu" text.milli podRequest.milliCPU requested.milliCPU allocatable.milliCPU).or <|
    (checkAmount "memory" text.binarySI podRequest.memory requested.memory allocatable.memory).or <|
    (checkAmount "ephemeral-storage" text.binarySI podRequest.ephemeralStorage
      requested.ephemeralStorage allocatable.ephemeralStorage).or <|
    (o.scalars.list podRequest.scalarResources.entries).findSome?
      (checkScalar text ignored allocatable requested)

/-- A pod of an illegal resource type is not checked. -/
def fitsRequest (nodeInfo : NodeInfoImpl) : Option InsufficientResource :=
  match podRequest.resourceType with
  | some type =>
    fitsRequestCore text o ignored podRequest nodeInfo.numPods (nodeInfo.allocatable type)
      (nodeInfo.requested type)
  | none => none

def NonZero (r : Resource) : Prop := ∃ f, f ≠ .allowedPodNumber ∧ r.amount f ≠ 0

/-- The resources a fitting pod is checked for: a scalar one if the pod requests it. -/
def Checks (r : Resource) : ResourceField → Prop
  | .allowedPodNumber => False
  | .scalar name => name ∈ r.scalarResources ∧ ignored.ignores name = false
  | _ => True

theorem checkAmount_eq_none_iff {resourceName : ResourceName} {quantity : ℤ → String}
    {requested used capacity : ℤ} :
    checkAmount resourceName quantity requested used capacity = none ↔
      requested + used ≤ capacity := by
  unfold checkAmount
  split_ifs with hlt
  · exact iff_of_false (by simp) (not_le.mpr hlt)
  · exact iff_of_true rfl (not_lt.mp hlt)

/-- The scalar resources of the request that are checked, and fit. -/
def ScalarsFit (checks : ResourceName → Prop) (request allocatable requested : Resource) : Prop :=
  ∀ name q, request.scalarResources.lookup name = some q → checks name →
    q + requested.getScalar name ≤ allocatable.getScalar name

/-- What the check asks besides the scalar resources. -/
def PlainFit (podNumber : ℕ) (allocatable requested : Resource) : Prop :=
  (podRequest.ignorePodsLimit = true ∨ (podNumber : ℤ) + 1 ≤ allocatable.allowedPodNumber) ∧
  ((podRequest.milliCPU = 0 ∧ podRequest.memory = 0 ∧ podRequest.ephemeralStorage = 0 ∧
      podRequest.scalarResources.len = 0) ∨
    (podRequest.milliCPU + requested.milliCPU ≤ allocatable.milliCPU ∧
      podRequest.memory + requested.memory ≤ allocatable.memory ∧
      podRequest.ephemeralStorage + requested.ephemeralStorage ≤ allocatable.ephemeralStorage))

theorem findSome_checkScalar_eq_none_iff (request allocatable requested : Resource) :
    (o.scalars.list request.scalarResources.entries).findSome?
        (checkScalar text ignored allocatable requested) = none ↔
      ScalarsFit (fun name => ignored.ignores name = false) request allocatable requested := by
  rw [List.findSome?_eq_none_iff]
  have hcheck : ∀ name q, checkScalar text ignored allocatable requested ⟨name, q⟩ = none ↔
      (ignored.ignores name = false →
        q + requested.getScalar name ≤ allocatable.getScalar name) := by
    intro name q
    unfold checkScalar
    cases ignored.ignores name with
    | true => simp
    | false => simp [checkAmount_eq_none_iff]
  constructor
  · intro h name q hlookup
    have hmem : ⟨name, q⟩ ∈ o.scalars.list request.scalarResources.entries :=
      o.scalars.mem_list.mpr (AList.mem_lookup_iff.mp hlookup)
    exact (hcheck name q).mp (h ⟨name, q⟩ hmem)
  · rintro h ⟨name, q⟩ hmem
    exact (hcheck name q).mpr
      (h name q (AList.mem_lookup_iff.mpr (o.scalars.mem_list.mp hmem)))

theorem fitsRequestCore_eq_none_iff (podNumber : ℕ) (allocatable requested : Resource) :
    fitsRequestCore text o ignored podRequest podNumber allocatable requested = none ↔
      PlainFit podRequest podNumber allocatable requested ∧
        ScalarsFit (fun name => ignored.ignores name = false) podRequest.toResource allocatable
          requested := by
  unfold fitsRequestCore PlainFit
  split_ifs with hpods hzero
  · refine iff_of_false (by simp) ?_
    rintro ⟨⟨hlimit, -⟩, -⟩
    rw [Bool.and_eq_true, Bool.not_eq_true', decide_eq_true_eq] at hpods
    rcases hlimit with hlimit | hlimit
    · rw [hlimit] at hpods
      cases hpods.1
    · omega
  all_goals
    have hlimit : podRequest.ignorePodsLimit = true ∨
        (podNumber : ℤ) + 1 ≤ allocatable.allowedPodNumber := by
      by_contra hnot
      rw [not_or, Bool.not_eq_true] at hnot
      apply hpods
      simp only [hnot.1, Bool.not_false, Bool.true_and, decide_eq_true_eq]
      omega
  · -- no scalar resource is requested, so none is short
    refine iff_of_true rfl ⟨⟨hlimit, Or.inl hzero⟩, ?_⟩
    intro name q hlookup
    have hkeys := AList.mem_keys.mp (GoMap.mem_iff_lookup.mpr ⟨q, hlookup⟩)
    rw [List.length_eq_zero_iff.mp hzero.2.2.2] at hkeys
    cases hkeys
  · simp only [Option.or_eq_none_iff, checkAmount_eq_none_iff, findSome_checkScalar_eq_none_iff,
      hlimit, hzero, false_or, true_and, and_assoc]

variable {text o ignored}

theorem NonZero.not_zero {r : Resource} (h : NonZero r) :
    ¬ (r.milliCPU = 0 ∧ r.memory = 0 ∧ r.ephemeralStorage = 0 ∧ r.scalarResources.len = 0) := by
  rintro ⟨hcpu, hmem, heph, hlen⟩
  obtain ⟨f, hf, hamount⟩ := h
  cases f with
  | allowedPodNumber => exact hf rfl
  | milliCPU => exact hamount hcpu
  | memory => exact hamount hmem
  | ephemeralStorage => exact hamount heph
  | scalar name =>
    apply hamount
    have hnot : name ∉ r.scalarResources := by
      intro hname
      have hkeys := AList.mem_keys.mp hname
      rw [List.length_eq_zero_iff.mp hlen] at hkeys
      cases hkeys
    have hlookup : r.scalarResources.lookup name = none := AList.lookup_eq_none.mpr hnot
    simp [Resource.amount, Resource.view, hlookup]

theorem fitsRequestCore_eq_none {podRequest : PodRequest} {podNumber : ℕ}
    {allocatable requested : Resource}
    (h : fitsRequestCore text o ignored podRequest podNumber allocatable requested = none)
    (hne : NonZero podRequest.toResource) {f : ResourceField}
    (hf : Checks ignored podRequest.toResource f) :
    podRequest.amount f + requested.amount f ≤ allocatable.amount f := by
  obtain ⟨⟨-, hplain⟩, hscalars⟩ := (fitsRequestCore_eq_none_iff ..).mp h
  obtain ⟨hcpu, hmem, heph⟩ := hplain.resolve_left hne.not_zero
  cases f with
  | allowedPodNumber => exact hf.elim
  | milliCPU => exact hcpu
  | memory => exact hmem
  | ephemeralStorage => exact heph
  | scalar name =>
    obtain ⟨hname, hignored⟩ := hf
    obtain ⟨q, hq⟩ := GoMap.mem_iff_lookup.mp hname
    have hamount : podRequest.amount (.scalar name) = q := by
      simp [Resource.amount, Resource.view, hq]
    rw [hamount]
    exact hscalars name q hq hignored

end

section

variable {gates : FeatureGates} {text : QuantityText} {o : ResourceOrders}
  {ignored : IgnoredResources} {n : NodeInfoImpl} {pod : Pod} {type : PodResourceType}

theorem amount_addPod_le (htype : pod.podResourceType = some type)
    (hne : NonZero (computePodResourceRequest gates o pod).toResource)
    (hfits : fitsRequest text o ignored (computePodResourceRequest gates o pod) n = none)
    {f : ResourceField} (hf : Checks ignored (computePodResourceRequest gates o pod).toResource f)
    (o' : ResourceOrders) :
    ((n.addPod gates o' pod).requested type).amount f ≤ (n.allocatable type).amount f := by
  have hcore : fitsRequestCore text o ignored (computePodResourceRequest gates o pod) n.numPods
      (n.allocatable type) (n.requested type) = none := by
    unfold fitsRequest at hfits
    have hreq : (computePodResourceRequest gates o pod).resourceType = some type := htype
    rw [hreq] at hfits
    exact hfits
  have hle := fitsRequestCore_eq_none hcore hne hf
  have hf' : f ≠ .allowedPodNumber := by
    rintro rfl
    exact hf
  have hcolumn : NodeInfoImpl.columnOf pod = type := by
    unfold columnOf
    rw [htype]
    rfl
  have hsame : (computePodResourceRequest gates o pod).amount f =
      (totalRequest gates o' pod).amount f :=
    (same_totalRequest gates o o' pod).amount f
  have hold : (({ n with podInfoMaintainer := n.podInfoMaintainer.addPodInfo pod } :
      NodeInfoImpl).requested type).amount f = (n.requested type).amount f := by
    cases type <;> rfl
  rw [addPod, amount_requested_update _ _ _ _ hf', if_pos hcolumn, hold, one_mul, ← hsame]
  omega

/-- A pod that fits does not overcommit the node: neither by the column of its type, nor, on a
node reached by adding and removing pods, by the sum over the pods of its type. -/
theorem fits_no_overcommit (gates : FeatureGates) (text : QuantityText) (o o' : ResourceOrders)
    (ignored : IgnoredResources) (n : NodeInfoImpl) (pod : Pod) (type : PodResourceType)
    (htype : pod.podResourceType = some type)
    (hne : NonZero (computePodResourceRequest gates o pod).toResource)
    (hfits : fitsRequest text o ignored (computePodResourceRequest gates o pod) n = none)
    (f : ResourceField) (hf : Checks ignored (computePodResourceRequest gates o pod).toResource f) :
    ((n.addPod gates o' pod).requested type).amount f ≤
        ((n.addPod gates o' pod).allocatable type).amount f ∧
      (NodeInfoImpl.Reached gates o' n → n.podInfoMaintainer.getPodInfo pod.uid = none →
        NodeInfoImpl.sumRequests gates o' type f (n.addPod gates o' pod).pods ≤
          ((n.addPod gates o' pod).allocatable type).amount f) := by
  have halloc : (n.addPod gates o' pod).allocatable type = n.allocatable type := by
    rw [addPod, allocatable_update]
    cases type <;> rfl
  have hle := amount_addPod_le htype hne hfits hf o'
  rw [halloc]
  refine ⟨hle, fun hreached habsent => ?_⟩
  have hf' : f ≠ .allowedPodNumber := by
    rintro rfl
    exact hf
  rw [← (hreached.accounted.addPod habsent).sum type f hf']
  exact hle

def allGates : FeatureGates := ⟨true, true⟩

def plainText : QuantityText := ⟨toString, toString, toString⟩

def devicePod (uid : String) : Pod :=
  { uid := uid
    ns := "default"
    name := uid
    containers := [((∅ : ResourceList).insert "cpu" ⟨500000000⟩).insert "example.com/device"
      ⟨1000000000⟩] }

def deviceNode : NodeInfoImpl :=
  { NodeInfo.new with
    guaranteedAllocatable :=
      { milliCPU := 1000
        allowedPodNumber := 10
        scalarResources := (∅ : GoMap ResourceName ℤ).insert "example.com/device" 2 } }

theorem fits_no_overcommit_second_device :
    let n := deviceNode.addPod allGates .forward (devicePod "a")
    NodeInfoImpl.sumRequests allGates .forward .guaranteed (.scalar "example.com/device")
      (n.addPod allGates .forward (devicePod "b")).pods = 2 ∧
    NodeInfoImpl.sumRequests allGates .forward .guaranteed (.scalar "example.com/device")
      (n.addPod allGates .forward (devicePod "b")).pods ≤
      ((n.addPod allGates .forward (devicePod "b")).allocatable .guaranteed).amount
        (.scalar "example.com/device") := by
  refine ⟨by decide, ?_⟩
  refine (fits_no_overcommit allGates plainText .forward .forward {}
    (deviceNode.addPod allGates .forward (devicePod "a")) (devicePod "b") .guaranteed rfl
    ⟨.milliCPU, by decide, by decide⟩ (by decide)
    (.scalar "example.com/device") ⟨by decide, by decide⟩).2 ?_ (by decide)
  exact .addPod _ (.new _ _) (by decide)

end

end GodelScheduler.NodeResources
