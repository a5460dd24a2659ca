import GodelScheduler.NodeResources.Fits

/-!
# The resource check of the scheduler and of the binder

The scheduler's `Fit` filter and the binder's `ConflictCheck` are built from the
same arguments, the extended resources and the groups of them to ignore, and
check a pod with the same `fitsRequest`. `newFit` puts the arguments into the
plugin. `newConflictCheck` validates them and returns a plugin without them, and
`checkConflicts` passes no ignored resources. So the binder checks every resource
the scheduler was told to ignore (`checkConflicts_iff_of_filter`).
-/

namespace GodelScheduler.NodeResources

open Library

/-- The arguments of both plugins. -/
structure FitArgs where
  ignoredResources : List String := []
  ignoredResourceGroups : List String := []

structure FieldError where
  field : String
  value : String
  detail : String
  deriving DecidableEq

section

-- what is wrong with a qualified name, from the validation library
variable (isQualifiedName : String → List String)

def validateLabelName (labelName fldPath : String) : List FieldError :=
  (isQualifiedName labelName).map fun msg => ⟨fldPath, labelName, msg⟩

def validateFitArgs (args : FitArgs) : List FieldError :=
  (args.ignoredResources.zipIdx.flatMap fun (res, i) =>
    validateLabelName isQualifiedName res s!"ignoredResources[{i}]") ++
  (args.ignoredResourceGroups.zipIdx.flatMap fun (group, i) =>
    let path := s!"ignoredResourceGroups[{i}]"
    (if ResourceName.contains group "/" then
      [⟨path, group, "resource group name can't contain '/'"⟩] else []) ++
    validateLabelName isQualifiedName group path)

/-- Missing arguments are empty ones. -/
def getFitArgs (plArgs : Option FitArgs) : FitArgs := plArgs.getD {}

structure Fit where
  ignored : IgnoredResources

def FitArgs.ignored (args : FitArgs) : IgnoredResources :=
  ⟨args.ignoredResources.toFinset, args.ignoredResourceGroups.toFinset⟩

def newFit (plArgs : Option FitArgs) : Except (List FieldError) Fit :=
  let args := getFitArgs plArgs
  match validateFitArgs isQualifiedName args with
  | [] => .ok ⟨args.ignored⟩
  | errs => .error errs

structure ConflictCheck where
  ignored : IgnoredResources := {}

def newConflictCheck (plArgs : Option FitArgs) : Except (List FieldError) ConflictCheck :=
  let args := getFitArgs plArgs
  match validateFitArgs isQualifiedName args with
  | [] => .ok {}
  | errs => .error errs

variable {isQualifiedName} {plArgs : Option FitArgs}

theorem newFit_ok {f : Fit} (h : newFit isQualifiedName plArgs = .ok f) :
    validateFitArgs isQualifiedName (getFitArgs plArgs) = [] ∧
      f.ignored = (getFitArgs plArgs).ignored := by
  unfold newFit at h
  dsimp only at h
  split at h
  · next hvalid =>
    cases h
    exact ⟨hvalid, rfl⟩
  · cases h

theorem newConflictCheck_of_valid (h : validateFitArgs isQualifiedName (getFitArgs plArgs) = []) :
    newConflictCheck isQualifiedName plArgs = .ok {} := by
  unfold newConflictCheck
  dsimp only
  rw [h]

end

inductive StatusCode
  | error
  | unschedulable
  | unschedulableAndUnresolvable
  deriving DecidableEq

structure Status where
  code : StatusCode
  reason : String
  deriving DecidableEq

def PodLauncher.text : PodLauncher → String
  | .kubelet => "kubelet"
  | .nodeManager => "node-manager"

def canPodPlaceOnNode (podLauncher : PodLauncher) (nodeInfo : NodeInfoImpl) : Bool :=
  match podLauncher with
  | .kubelet => nodeInfo.node.isSome
  | .nodeManager => nodeInfo.nmNode.isSome

def nodeFits (pod : Pod) (nodeInfo : NodeInfoImpl) : Option Status :=
  match pod.podLauncher with
  | none => some ⟨.error, s!"pod launcher is empty for pod {pod.ns}/{pod.name}"⟩
  | some podLauncher =>
    if canPodPlaceOnNode podLauncher nodeInfo then none
    else some ⟨.unschedulableAndUnresolvable,
      s!"launcher {PodLauncher.text podLauncher} doesn't exist on this node"⟩

section

variable (gates : FeatureGates) (text : QuantityText) (o : ResourceOrders)

def unschedulable (r : InsufficientResource) : Status := ⟨.unschedulable, r.reason⟩

/-- The filter, for a pod whose request `PreFilter` has computed. -/
def Fit.filter (f : Fit) (pod : Pod) (nodeInfo : NodeInfoImpl) : Option Status :=
  match nodeFits pod nodeInfo with
  | some status => some status
  | none =>
    (fitsRequest text o f.ignored (computePodResourceRequest gates o pod) nodeInfo).map
      unschedulable

def ConflictCheck.checkConflicts (_pl : ConflictCheck) (pod : Pod) (nodeInfo : NodeInfoImpl) :
    Option Status :=
  (fitsRequest text o {} (computePodResourceRequest gates o pod) nodeInfo).map unschedulable

variable {gates text o}

theorem fitsRequest_of_filter {f : Fit} {pod : Pod} {nodeInfo : NodeInfoImpl}
    (h : f.filter gates text o pod nodeInfo = none) :
    fitsRequest text o f.ignored (computePodResourceRequest gates o pod) nodeInfo = none := by
  unfold Fit.filter at h
  split at h
  · cases h
  · exact Option.map_eq_none_iff.mp h

/-- The scalar resources that are ignored and requested fit all the same. -/
def IgnoredFit (gates : FeatureGates) (ignored : IgnoredResources) (pod : Pod)
    (nodeInfo : NodeInfoImpl) : Prop :=
  ∀ type, pod.podResourceType = some type →
    ScalarsFit (fun name => ignored.ignores name = true) (totalRequest gates .forward pod)
      (nodeInfo.allocatable type) (nodeInfo.requested type)

theorem plainFit_congr {r r' : PodRequest} {podNumber : ℕ} {allocatable requested : Resource}
    (h : PlainFit r podNumber allocatable requested) (hsame : r.toResource.Same r'.toResource)
    (hlimit : r.ignorePodsLimit = r'.ignorePodsLimit) :
    PlainFit r' podNumber allocatable requested := by
  have hcpu : r.milliCPU = r'.milliCPU := Option.some.inj (hsame .milliCPU)
  have hmem : r.memory = r'.memory := Option.some.inj (hsame .memory)
  have heph : r.ephemeralStorage = r'.ephemeralStorage := Option.some.inj (hsame .ephemeralStorage)
  have hlen : r.scalarResources.len = 0 → r'.scalarResources.len = 0 := by
    intro hzero
    rw [GoMap.len, List.length_eq_zero_iff, List.eq_nil_iff_forall_not_mem]
    intro name hname
    obtain ⟨q, hq⟩ := GoMap.mem_iff_lookup.mp (AList.mem_keys.mpr hname)
    have hlookup : r.scalarResources.lookup name = some q := (hsame (.scalar name)).trans hq
    have hkeys := AList.mem_keys.mp (GoMap.mem_iff_lookup.mpr ⟨q, hlookup⟩)
    rw [List.length_eq_zero_iff.mp hzero] at hkeys
    cases hkeys
  unfold PlainFit at h ⊢
  rw [hcpu, hmem, heph, hlimit] at h
  refine ⟨h.1, h.2.imp ?_ id⟩
  rintro ⟨h₁, h₂, h₃, h₄⟩
  exact ⟨h₁, h₂, h₃, hlen h₄⟩

theorem scalarsFit_congr {checks : ResourceName → Prop} {r r' allocatable requested : Resource}
    (hsame : r.Same r') :
    ScalarsFit checks r allocatable requested ↔ ScalarsFit checks r' allocatable requested := by
  refine forall₂_congr fun name q => ?_
  have hlookup : r.scalarResources.lookup name = r'.scalarResources.lookup name :=
    hsame (.scalar name)
  rw [hlookup]

/-- A pod the scheduler's filter accepts passes the binder's check of the same arguments just when
the extended resources they ignore fit too. -/
theorem checkConflicts_iff_of_filter (gates : FeatureGates) (text : QuantityText)
    (o o' : ResourceOrders) (isQualifiedName : String → List String) (plArgs : Option FitArgs)
    {f : Fit} (hf : newFit isQualifiedName plArgs = .ok f) (pod : Pod) (nodeInfo : NodeInfoImpl)
    (haccept : f.filter gates text o pod nodeInfo = none) :
    ∃ c, newConflictCheck isQualifiedName plArgs = .ok c ∧
      (c.checkConflicts gates text o' pod nodeInfo = none ↔
        IgnoredFit gates (getFitArgs plArgs).ignored pod nodeInfo) := by
  obtain ⟨hvalid, hignored⟩ := newFit_ok hf
  refine ⟨{}, newConflictCheck_of_valid hvalid, ?_⟩
  have hfits := fitsRequest_of_filter haccept
  rw [hignored] at hfits
  unfold ConflictCheck.checkConflicts IgnoredFit
  rw [Option.map_eq_none_iff]
  unfold fitsRequest at hfits ⊢
  cases htype : pod.podResourceType with
  | none =>
    simp [computePodResourceRequest, htype]
  | some type =>
    have hreq : ∀ o, (computePodResourceRequest gates o pod).resourceType = some type :=
      fun _ => htype
    simp only [hreq, Option.some.injEq, forall_eq'] at hfits ⊢
    rw [fitsRequestCore_eq_none_iff] at hfits ⊢
    have hplain : PlainFit (computePodResourceRequest gates o' pod) nodeInfo.numPods
        (nodeInfo.allocatable type) (nodeInfo.requested type) :=
      plainFit_congr hfits.1 (same_totalRequest gates o o' pod) rfl
    have hchecked := (scalarsFit_congr (same_totalRequest gates o .forward pod)).mp hfits.2
    simp only [hplain, true_and, computePodResourceRequest_toResource]
    rw [scalarsFit_congr (same_totalRequest gates o' .forward pod)]
    -- the binder ignores nothing, so the resources divide into checked and ignored ones
    constructor
    · intro h name q hlookup _
      exact h name q hlookup (by simp [IgnoredResources.ignores])
    · intro h name q hlookup _
      cases hskip : (getFitArgs plArgs).ignored.ignores name with
      | true => exact h name q hlookup hskip
      | false => exact hchecked name q hlookup hskip

/-- A node with one core and no device, and the arguments that ignore the device. -/
theorem ignored_device_conflicts :
    let name : NodeName := ⟨"n", by decide⟩
    let nodeInfo : NodeInfoImpl :=
      { NodeInfo.new with
        node := some { name := name }
        guaranteedAllocatable := { milliCPU := 1000, allowedPodNumber := 10 } }
    let args : FitArgs := { ignoredResources := ["example.com/device"] }
    newFit (fun _ => []) (some args) = .ok ⟨args.ignored⟩ ∧
      newConflictCheck (fun _ => []) (some args) = .ok {} ∧
      Fit.filter allGates plainText .forward ⟨args.ignored⟩ (devicePod "a") nodeInfo = none ∧
      ConflictCheck.checkConflicts allGates plainText .forward {} (devicePod "a") nodeInfo =
        some ⟨.unschedulable, "node(s) could not satisfy 1 example.com/device request"⟩ := by
  refine ⟨rfl, rfl, by decide, by decide⟩

/-- A node with a device that the arguments ignore and that fits all the same. -/
theorem no_ignored_no_conflict :
    let name : NodeName := ⟨"n", by decide⟩
    let nodeInfo : NodeInfoImpl := { deviceNode with node := some { name := name } }
    let args : FitArgs := { ignoredResources := ["example.com/device"] }
    Fit.filter allGates plainText .forward ⟨args.ignored⟩ (devicePod "a") nodeInfo = none ∧
      ∃ c, newConflictCheck (fun _ => []) (some args) = .ok c ∧
        c.checkConflicts allGates plainText .forward (devicePod "a") nodeInfo = none := by
  intro name nodeInfo args
  have haccept : Fit.filter allGates plainText .forward ⟨args.ignored⟩ (devicePod "a") nodeInfo =
      none := by
    decide
  obtain ⟨c, hc, hiff⟩ := checkConflicts_iff_of_filter allGates plainText .forward .forward
    (fun _ => []) (some args) rfl (devicePod "a") nodeInfo haccept
  refine ⟨haccept, c, hc, hiff.mpr ?_⟩
  intro type htype resource q hlookup hignored
  simp only [args, getFitArgs, FitArgs.ignored, IgnoredResources.ignores] at hignored
  obtain rfl : resource = "example.com/device" := by simp_all
  cases htype
  cases hlookup
  decide

end

end GodelScheduler.NodeResources
