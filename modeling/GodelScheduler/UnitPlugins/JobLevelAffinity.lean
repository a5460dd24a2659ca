import GodelScheduler.Framework.NodeResources
import Mathlib.Data.List.Sort

/-!
# Job level affinity

Two steps of the grouping of nodes for a unit. Before anything is scheduled a topology
domain is cut off if the unit's smallest requests exceed what its nodes can allocate.
The smallest request of a resource is taken over the pods that request it, so pods that
do not can be shut out (`keeps_usable_iff`).

If pods of the unit are running, their nodes have to be in one domain. The labels that
make up a domain may be missing on a node, and what is then computed from them is nil
(`divide_ne_crash_iff` says when nil is used). The domain they prefer is searched for by
workers that share the result, and one that comes late can overwrite it (`preferred_iff`).
-/

namespace GodelScheduler.JobLevelAffinity

open Library List

section

/-- The resources that are checked in advance. -/
inductive PreChecked
  | milliCPU
  | memory
  | gpu
  deriving DecidableEq

namespace PreChecked

def name : PreChecked → ResourceName
  | milliCPU => "cpu"
  | memory => "memory"
  | gpu => "nvidia.com/gpu"

def quantity (c : PreChecked) (q : Quantity) : ℤ :=
  match c with
  | milliCPU => q.milliValue
  | memory => q.value
  | gpu => q.value

def field : PreChecked → ResourceField
  | milliCPU => .milliCPU
  | memory => .memory
  | gpu => .scalar "nvidia.com/gpu"

end PreChecked

abbrev PreCheckResource := PreChecked → ℤ

def maxInt64 : ℤ := 2 ^ 63 - 1

def addResourceList (o : ResourceOrders) (list newList : ResourceList) : ResourceList :=
  (o.list.list newList.entries).foldl (fun list e =>
    match list.lookup e.1 with
    | none => list.insert e.1 e.2
    | some value => list.insert e.1 (value.add e.2)) list

def maxResourceList (o : ResourceOrders) (list newList : ResourceList) : ResourceList :=
  (o.list.list newList.entries).foldl (fun list e =>
    match list.lookup e.1 with
    | none => list.insert e.1 e.2
    | some value => if e.2.nano > value.nano then list.insert e.1 e.2 else list) list

def getPodRequests (o : ResourceOrders) (pod : Pod) : ResourceList :=
  pod.initContainers.foldl (maxResourceList o) (pod.containers.foldl (addResourceList o) ∅)

def getMinWith (r : PreCheckResource) (requests : ResourceList) : PreCheckResource := fun c =>
  match requests.lookup c.name with
  | none => r c
  | some q => min (r c) (c.quantity q)

def greater (r : PreCheckResource) (s : Resource) : Bool :=
  [.milliCPU, .memory, .gpu].any fun c => decide (r c > s.amount c.field)

/-- `computeUnitMinResourceRequest` of a unit that was ever scheduled. -/
def computeUnitMinResourceRequest (o : ResourceOrders) (pods : List Pod) : PreCheckResource :=
  fun c =>
  let minRequest := (pods.map (getPodRequests o)).foldl getMinWith (fun _ => maxInt64) c
  if minRequest = maxInt64 then 0 else minRequest

def getNodeCircleAllocatableResource (gates : FeatureGates) (o : ResourceOrders)
    (nodes : List NodeInfoImpl) (resourceType : PodResourceType) : Resource :=
  nodes.foldl (fun total node => total.addResource gates o (node.allocatable resourceType)) {}

/-- The marking of `sortAndMarkTopologyElems` for one topology domain. The resource type is that of
the first pod. -/
def marksCutOff (gates : FeatureGates) (o : ResourceOrders) (pods : List Pod) (rulesValid : Bool)
    (request : PreCheckResource) (isParentCutOff : Bool) (nodes : List NodeInfoImpl) : Bool :=
  match pods.head?.bind Pod.podResourceType with
  | none => false
  | some resourceType => rulesValid &&
    (isParentCutOff ||
      greater request (getNodeCircleAllocatableResource gates o nodes resourceType))

variable (gates : FeatureGates) (o : ResourceOrders) (pods : List Pod)

/-- What the pods that request a resource request of it. -/
def requestsOf (c : PreChecked) : List ℤ :=
  pods.filterMap fun pod => ((getPodRequests o pod).lookup c.name).map c.quantity

/-- The pod requests at most the given resources; what it does not request counts as 0. -/
def Fits (pod : Pod) (s : Resource) : Prop :=
  ∀ c : PreChecked,
    (((getPodRequests o pod).lookup c.name).map c.quantity).getD 0 ≤ s.amount c.field

theorem foldl_min_le_iff (l : List ℤ) (a b : ℤ) : l.foldl min a ≤ b ↔ a ≤ b ∨ ∃ x ∈ l, x ≤ b := by
  induction l generalizing a with
  | nil => simp
  | cons x l ih =>
    rw [foldl_cons, ih, min_le_iff, exists_mem_cons_iff, or_assoc]

theorem foldl_getMinWith (r : PreCheckResource) (c : PreChecked) :
    (pods.map (getPodRequests o)).foldl getMinWith r c = (requestsOf o pods c).foldl min (r c) := by
  induction pods generalizing r with
  | nil => rfl
  | cons pod pods ih =>
    rw [map_cons, foldl_cons, ih, requestsOf, requestsOf, filterMap_cons, getMinWith]
    cases (getPodRequests o pod).lookup c.name <;> rfl

theorem greater_eq_false_iff {r : PreCheckResource} {s : Resource} :
    greater r s = false ↔ ∀ c, r c ≤ s.amount c.field := by
  simp only [greater, any_eq_false, decide_eq_true_eq, not_lt]
  refine ⟨fun h c => h c (by cases c <;> simp), fun h c _ => h c⟩

/-- The minimum is bounded by what some pod requests; the largest number stands for no request. -/
theorem computeUnitMinResourceRequest_le_iff (c : PreChecked) (b : ℤ) :
    computeUnitMinResourceRequest o pods c ≤ b ↔ (∃ x ∈ requestsOf o pods c, x ≤ b) ∨
      0 ≤ b ∧ ∀ x ∈ requestsOf o pods c, maxInt64 ≤ x := by
  have hmin := foldl_min_le_iff (requestsOf o pods c) maxInt64
  have hless := hmin (maxInt64 - 1)
  have hle : (requestsOf o pods c).foldl min maxInt64 ≤ maxInt64 := (hmin _).mpr (.inl le_rfl)
  have hpos : 0 ≤ maxInt64 := by decide
  unfold computeUnitMinResourceRequest
  simp only [foldl_getMinWith]
  by_cases hnone : ∀ x ∈ requestsOf o pods c, maxInt64 ≤ x
  · have heq : (requestsOf o pods c).foldl min maxInt64 = maxInt64 := by
      refine le_antisymm hle (not_lt.mp fun hlt => ?_)
      rcases hless.mp (by omega) with h | ⟨x, hx, hxlt⟩
      · omega
      · exact absurd (hnone x hx) (by omega)
    rw [heq, if_pos rfl]
    refine ⟨fun h => .inr ⟨h, hnone⟩, ?_⟩
    rintro (⟨x, hx, hxb⟩ | h)
    · exact hpos.trans ((hnone x hx).trans hxb)
    · exact h.1
  · obtain ⟨x, hx, hlt⟩ : ∃ x ∈ requestsOf o pods c, x ≤ maxInt64 - 1 := by
      push Not at hnone
      obtain ⟨x, hx, hlt⟩ := hnone
      exact ⟨x, hx, by omega⟩
    have hsome := hless.mpr (.inr ⟨x, hx, hlt⟩)
    rw [if_neg (by omega), hmin]
    constructor
    · rintro (hmax | h)
      · exact .inl ⟨x, hx, by omega⟩
      · exact .inl h
    · rintro (h | h)
      · exact .inr h
      · exact absurd h.2 hnone

/-- A domain with room for some pod is kept, unless the pod does not request a resource that all
the pods that do request it request too much of. -/
theorem keeps_usable_iff (rulesValid : Bool) (nodes : List NodeInfoImpl) :
    (∀ resourceType ∈ pods.head?.bind Pod.podResourceType,
      (∃ pod ∈ pods, Fits o pod (getNodeCircleAllocatableResource gates o nodes resourceType)) →
        marksCutOff gates o pods rulesValid (computeUnitMinResourceRequest o pods) false nodes =
          false) ↔
      (rulesValid = true → ∀ resourceType ∈ pods.head?.bind Pod.podResourceType,
        let s := getNodeCircleAllocatableResource gates o nodes resourceType
        ∀ pod ∈ pods, Fits o pod s → ∀ c : PreChecked, (getPodRequests o pod).lookup c.name = none →
          (∃ x ∈ requestsOf o pods c, x ≤ s.amount c.field) ∨
            ∀ x ∈ requestsOf o pods c, maxInt64 ≤ x) := by
  unfold marksCutOff
  cases pods.head?.bind Pod.podResourceType with
  | none => simp
  | some resourceType =>
    cases rulesValid with
    | false => simp
    | true =>
      simp only [Option.mem_some_iff, forall_eq', Bool.true_and, Bool.false_or, forall_const,
        greater_eq_false_iff, computeUnitMinResourceRequest_le_iff]
      set s := getNodeCircleAllocatableResource gates o nodes resourceType
      constructor
      · intro h pod hpod hfits c _
        exact (h ⟨pod, hpod, hfits⟩ c).imp_right And.right
      · rintro h ⟨pod, hpod, hfits⟩ c
        have hc := hfits c
        cases hlookup : (getPodRequests o pod).lookup c.name with
        | none =>
          rw [hlookup] at hc
          exact (h pod hpod hfits c hlookup).imp_right fun hall => ⟨hc, hall⟩
        | some q =>
          rw [hlookup] at hc
          exact .inl ⟨c.quantity q, mem_filterMap.mpr ⟨pod, hpod, by rw [hlookup]; rfl⟩, hc⟩

/-- A pod that asks for a core, and one that asks for a GPU as well. -/
def mixedPods : List Pod :=
  let cpu := (∅ : ResourceList).insert "cpu" ⟨1000000000⟩
  [{ uid := "a", ns := "default", name := "a", containers := [cpu] },
    { uid := "b", ns := "default", name := "b",
      containers := [cpu.insert "nvidia.com/gpu" ⟨1000000000⟩] }]

/-- On nodes with four cores and no GPU there is room for the first pod. -/
theorem cutOff_usable_domain :
    let gates : FeatureGates := ⟨true, true⟩
    let nodes : List NodeInfoImpl :=
      [{ NodeInfo.new with guaranteedAllocatable := { milliCPU := 4000 } }]
    (∃ pod ∈ mixedPods,
        Fits .forward pod (getNodeCircleAllocatableResource gates .forward nodes .guaranteed)) ∧
      marksCutOff gates .forward mixedPods true (computeUnitMinResourceRequest .forward mixedPods)
        false nodes = true := by
  refine ⟨⟨_, mem_cons_self .., fun c => ?_⟩, by decide⟩
  cases c <;> decide

end

section

structure AffinitySpecs where
  specs : List (String × String)
  key : String
  deriving DecidableEq

/-- A node of a node circle, with the labels of the object of each launcher. -/
structure GroupNode where
  name : String
  nodeLabels : Option (GoMap String String) := none
  nmNodeLabels : Option (GoMap String String) := none

def getNodeLabelsIfLauncherMatches (launcher : PodLauncher) (node : GroupNode) :
    Option (GoMap String String) :=
  match launcher with
  | .kubelet => node.nodeLabels
  | .nodeManager => node.nmNodeLabels

/-- The text of the error, for a topology key that is not among the labels, is used by no caller. -/
def getAffinitySpecs (terms : List String) (labels : GoMap String String) :
    Option AffinitySpecs := do
  let specs ← terms.mapM fun topologyKey => (labels.lookup topologyKey).map (topologyKey, ·)
  let specs := specs.insertionSort fun a b => a.1 ≤ b.1
  pure ⟨specs, String.join (specs.map fun spec => spec.1 ++ ":" ++ spec.2 ++ ";")⟩

def AffinitySpecs.satisfy (specs : AffinitySpecs) (labels : GoMap String String) : Bool :=
  specs.specs.all fun spec => labels.lookup spec.1 = some spec.2

/-- The shared variables of `getRequiredAffinitySpecs`; `crashed` if nil has been dereferenced. -/
structure Search where
  nodeGroupTopology : Option AffinitySpecs := none
  err : Option String := none
  crashed : Bool := false

def Search.settled (s : Search) : Bool := s.err.isSome || s.nodeGroupTopology.isSome

/-- The first error is the one that is received. -/
def Search.sendError (s : Search) (err : String) : Search := { s with err := some (s.err.getD err) }

inductive Division
  | crash
  | error (err : String)
  | divided (nodeCircles : List (String × List String))
  deriving DecidableEq

/-- What the calls are given: the launcher, the topology keys and the nodes of the node group. -/
structure Request where
  launcher : PodLauncher
  terms : List String
  get : String → Option GroupNode

namespace Request

variable (q : Request)

/-- A worker looks at an assigned node. -/
def lookAt (s : Search) (nodeName : String) : Search :=
  match q.get nodeName with
  | none => s.sendError s!"nodeinfo not found for node name \"{nodeName}\""
  | some nodeInfo =>
    match getNodeLabelsIfLauncherMatches q.launcher nodeInfo with
    | none => s
    | some matchedLabels =>
      match s.nodeGroupTopology with
      | none => { s with nodeGroupTopology := getAffinitySpecs q.terms matchedLabels }
      | some nodeGroupTopology =>
        match getAffinitySpecs q.terms matchedLabels with
        | none => { s with crashed := true }
        | some nodeTopology =>
          if nodeTopology.key = nodeGroupTopology.key then s
          else s.sendError (s!"assigned pods are in different topologies: {nodeTopology.key}, " ++
            nodeGroupTopology.key)

def groupNodesByAffinitySpecs (nodes : List GroupNode) (assignedNodes : List String)
    (affinities : AffinitySpecs) : List (String × List String) :=
  let candidates := nodes.filter fun node => assignedNodes.contains node.name ||
    (getNodeLabelsIfLauncherMatches q.launcher node).any affinities.satisfy
  if candidates.isEmpty then [] else [(affinities.key, candidates.map GroupNode.name)]

variable (visited : List String)

/-- `getRequiredAffinitySpecs` and then `groupNodesByAffinitySpecs`. The workers look at the nodes
in `visited` in this order; once there is an error, assigned nodes may be left out. -/
def divide (nodes : List GroupNode) (assignedNodes : List String) : Division :=
  let s := visited.foldl q.lookAt {}
  if s.crashed then .crash
  else
    match s.err, s.nodeGroupTopology with
    | some err, _ => .error err
    | none, none => .crash
    | none, some affinities => .divided (q.groupNodesByAffinitySpecs nodes assignedNodes affinities)

/-- What a worker computes from the labels of a node, if it gets to them. -/
def specsOf (nodeName : String) : Option (Option AffinitySpecs) :=
  (q.get nodeName).bind fun nodeInfo =>
    (getNodeLabelsIfLauncherMatches q.launcher nodeInfo).map (getAffinitySpecs q.terms)

def Labelled (nodeName : String) : Prop := ∃ specs, q.specsOf nodeName = some (some specs)

def Unlabelled (nodeName : String) : Prop := q.specsOf nodeName = some none

/-- What one look does: it crashes on an unlabelled node after the topology has been found, and
leaves an error or a topology if it finds a node missing or labelled. -/
theorem lookAt_spec (s : Search) (n : String) :
    ((q.lookAt s n).crashed ↔ s.crashed ∨ s.nodeGroupTopology.isSome ∧ q.Unlabelled n) ∧
    ((q.lookAt s n).nodeGroupTopology.isSome ↔ s.nodeGroupTopology.isSome ∨ q.Labelled n) ∧
    ((q.lookAt s n).settled ↔ s.settled ∨ q.get n = none ∨ q.Labelled n) := by
  unfold lookAt Labelled Unlabelled specsOf Search.settled
  cases q.get n with
  | none => simp [Search.sendError]
  | some nodeInfo =>
    simp only [Option.bind_some]
    cases getNodeLabelsIfLauncherMatches q.launcher nodeInfo with
    | none => simp
    | some labels =>
      simp only [Option.map_some]
      cases htopology : s.nodeGroupTopology with
      | none => cases getAffinitySpecs q.terms labels <;> simp
      | some topology =>
        cases getAffinitySpecs q.terms labels with
        | none => simp
        | some specs =>
          simp only
          split_ifs <;> simp [Search.sendError, htopology]

theorem crashed_foldl (s : Search) : (visited.foldl q.lookAt s).crashed ↔ s.crashed ∨
      s.nodeGroupTopology.isSome ∧ (∃ n ∈ visited, q.Unlabelled n) ∨
      ¬ visited.Pairwise fun a b => q.Labelled a → ¬ q.Unlabelled b := by
  induction visited generalizing s with
  | nil => simp
  | cons n visited ih =>
    obtain ⟨hcrashed, htopology, -⟩ := q.lookAt_spec s n
    have hlater : (∀ b ∈ visited, q.Labelled n → ¬ q.Unlabelled b) ↔
        (q.Labelled n → ¬ ∃ b ∈ visited, q.Unlabelled b) := by
      push Not
      exact ⟨fun h hn b hb => h b hb hn, fun h b hb hn => h hn b hb⟩
    rw [foldl_cons, ih, hcrashed, htopology, pairwise_cons, exists_mem_cons_iff,
      hlater]
    simp only [not_and_or, Classical.not_imp, not_not, or_and_right, and_or_left, or_assoc]

theorem settled_foldl (s : Search) : (visited.foldl q.lookAt s).settled ↔
      s.settled ∨ ∃ n ∈ visited, q.get n = none ∨ q.Labelled n :=
  foldl_iff_or (Q := fun s : Search => s.settled) (fun s n => (q.lookAt_spec s n).2.2) visited s

/-- Nil is not used just when no unlabelled node is looked at after a labelled one, and a node is
found labelled or missing. -/
theorem divide_ne_crash_iff (nodes : List GroupNode)
    (assignedNodes : List String) : q.divide visited nodes assignedNodes ≠ .crash ↔
      (visited.Pairwise fun a b => q.Labelled a → ¬ q.Unlabelled b) ∧
      ∃ n ∈ visited, q.get n = none ∨ q.Labelled n := by
  have hcrashed := q.crashed_foldl visited {}
  have hsettled := q.settled_foldl visited {}
  simp only [Search.settled, Option.isSome_none, Bool.or_false, Bool.false_eq_true, false_and,
    false_or] at hcrashed hsettled
  rw [← hsettled, ← not_not (a := List.Pairwise ..), ← hcrashed]
  unfold divide
  generalize visited.foldl q.lookAt {} = s
  obtain ⟨topology, err, crashed⟩ := s
  cases crashed <;> cases err <;> cases topology <;> simp

end Request

def halfLabelled : Request where
  launcher := .kubelet
  terms := ["rack"]
  get name :=
    some ⟨name, some (if name = "a" then (∅ : GoMap String String).insert "rack" "1" else ∅), none⟩

/-- The labelled node first, then the other one. -/
theorem divide_crashes : halfLabelled.divide ["a", "b"] [] ["a", "b"] = .crash := by
  decide

end

section

/-- The shared variables of `getPreferAffinitySpecs`. -/
structure Preference where
  keys : List String := []
  result : Option AffinitySpecs := none
  err : Option String := none
  cancelled : Bool := false

/-- The section of the lock in which a worker leaves what it has computed for a node. -/
def Preference.settle (s : Preference) : Option AffinitySpecs → Preference
  | none => { s with result := none, cancelled := true }
  | some specs =>
    if specs.key ∈ s.keys then s
    else if s.keys.length = 0 then { s with keys := specs.key :: s.keys, result := some specs }
    else { s with result := none, cancelled := true }

namespace Request

variable (q : Request)

def preferAt (s : Preference) (nodeName : String) : Preference :=
  match q.get nodeName with
  | none =>
    { s with
      err := some (s.err.getD s!"nodeinfo not found for node name \"{nodeName}\"")
      cancelled := true }
  | some nodeInfo =>
    match getNodeLabelsIfLauncherMatches q.launcher nodeInfo with
    | none => s
    | some matchedLabels => s.settle (getAffinitySpecs q.terms matchedLabels)

/-- The sections of the lock in their order; after the search is cancelled, assigned nodes may be
left out. -/
def getPreferAffinitySpecs (visited : List String) : Except String (Option AffinitySpecs) :=
  let s := visited.foldl q.preferAt {}
  match s.err with
  | some err => .error err
  | none => .ok s.result

/-- The domain of a node, if it has all the labels. -/
def keyOf (n : String) : Option String := (q.specsOf n).join.map AffinitySpecs.key

/-- The nodes with labels agree with those looked at before. -/
def Agreeing (visited : List String) : Prop :=
  visited.Pairwise fun a b => q.keyOf a ≠ none → q.keyOf b = q.keyOf a

/-- The specification of the domain the assigned nodes agree on, or nil if they do not. -/
def Preferred (assigned : List String) : Option AffinitySpecs → Prop
  | some specs => ∀ n ∈ assigned, q.keyOf n = some specs.key
  | none => ¬ ∃ key, ∀ n ∈ assigned, q.keyOf n = some key

/-- The workers look at assigned nodes, and at all of them unless the search is cancelled. -/
structure Interleaving (nodes visited : List String) : Prop where
  assigned : ∀ n ∈ visited, n ∈ nodes
  all : (visited.foldl q.preferAt {}).cancelled = false → ∀ n ∈ nodes, n ∈ visited

/-- What the workers leave behind. -/
structure Seen (visited : List String) (s : Preference) : Prop where
  err : s.err = none
  keys : s.keys = [] ∧ (∀ n ∈ visited, q.keyOf n = none) ∨
    ∃ n ∈ visited, ∃ key, q.keyOf n = some key ∧ s.keys = [key]
  result : ∀ specs, s.result = some specs →
    ∀ n ∈ visited, q.keyOf n = none ∨ q.keyOf n = some specs.key
  found : s.result.isSome ↔ (∃ n ∈ visited, q.keyOf n ≠ none) ∧ q.Agreeing visited
  cancelled : s.cancelled = true →
    ∃ a ∈ visited, ∃ b ∈ visited, q.keyOf a = none ∨ q.keyOf a ≠ q.keyOf b

theorem preferAt_eq (s : Preference) {n : String} (h : (q.specsOf n).isSome) :
    q.preferAt s n = s.settle (q.specsOf n).join := by
  unfold specsOf at h ⊢
  unfold preferAt
  cases hget : q.get n with
  | none => simp [hget] at h
  | some nodeInfo =>
    cases hlabels : getNodeLabelsIfLauncherMatches q.launcher nodeInfo with
    | none => simp [hget, hlabels] at h
    | some labels => simp [hlabels]

theorem seen_foldl {visited : List String} (hmatch : ∀ n ∈ visited, (q.specsOf n).isSome) :
    q.Seen visited (visited.foldl q.preferAt {}) := by
  induction visited using List.reverseRecOn with
  | nil => exact ⟨rfl, by simp, by simp, by simp [Agreeing], nofun⟩
  | append_singleton visited n ih =>
    obtain ⟨herr, hkeys, hresult, hfound, hcancelled⟩ :=
      ih fun m hm => hmatch m (mem_append_left _ hm)
    rw [foldl_append, foldl_cons, foldl_nil, q.preferAt_eq _ (hmatch n (by simp))]
    generalize visited.foldl q.preferAt {} = s at *
    have hkey : q.keyOf n = (q.specsOf n).join.map AffinitySpecs.key := rfl
    have hagree : q.Agreeing (visited ++ [n]) ↔
        q.Agreeing visited ∧ ∀ a ∈ visited, q.keyOf a ≠ none → q.keyOf n = q.keyOf a := by
      simp [Agreeing, pairwise_append]
    have hfirst : (∀ a ∈ visited, q.keyOf a = none) → q.Agreeing visited := fun h =>
      pairwise_of_forall_mem_list fun a ha _ _ hne => absurd (h a ha) hne
    have hsome : s.result.isSome → ∃ specs, s.result = some specs := Option.isSome_iff_exists.mp
    cases hspecs : (q.specsOf n).join with
    | none =>
      rw [hspecs] at hkey
      constructor <;> grind [Preference.settle]
    | some specs =>
      rw [hspecs, Option.map_some] at hkey
      rcases hkeys with ⟨hkeys, hnone⟩ | ⟨a, ha, key, hakey, hkeys⟩
      · simp only [Preference.settle, hkeys, not_mem_nil, if_false, length_nil, if_true]
        constructor <;> grind
      · by_cases heq : specs.key = key
        · simp only [Preference.settle, hkeys, heq, mem_singleton, if_true]
          constructor <;> grind
        · simp only [Preference.settle, hkeys, heq, mem_singleton, if_false]
          constructor <;> grind

/-- The result is right unless nodes without the labels are looked at, nodes with them too, and all
these after the first agree with it: a section that was still waiting for the lock when the search
was cancelled overwrites nil. -/
theorem preferred_iff {assigned visited : List String} (hassigned : assigned ≠ [])
    (hmatch : ∀ n ∈ assigned, (q.specsOf n).isSome) (h : q.Interleaving assigned visited) :
    (∃ result, q.getPreferAffinitySpecs visited = .ok result ∧ q.Preferred assigned result) ↔
      ¬ ((∃ n ∈ visited, q.keyOf n = none) ∧ (∃ n ∈ visited, q.keyOf n ≠ none) ∧
        q.Agreeing visited) := by
  obtain ⟨hsub, hall⟩ := h
  obtain ⟨herr, -, hresult, hfound, hcancelled⟩ := q.seen_foldl fun n hn => hmatch n (hsub n hn)
  unfold getPreferAffinitySpecs
  generalize visited.foldl q.preferAt {} = s at *
  have hvisited : ∀ key, (∀ n ∈ visited, q.keyOf n = some key) → ∀ n ∈ assigned, n ∈ visited := by
    intro key hkey
    apply hall
    grind
  simp only [herr, Except.ok.injEq, exists_eq_left']
  cases hs : s.result with
  | none =>
    rw [hs] at hfound
    refine iff_of_true ?_ fun hbad => Bool.false_ne_true (hfound.mpr hbad.2)
    rintro ⟨key, hkey⟩
    have hsame := fun n hn => hkey n (hsub n hn)
    obtain ⟨n, hn⟩ := exists_mem_of_ne_nil _ hassigned
    refine Bool.false_ne_true (hfound.mpr ⟨⟨n, hvisited key hsame n hn, by simp [hkey n hn]⟩, ?_⟩)
    exact pairwise_of_forall_mem_list fun a ha b hb _ => (hsame b hb).trans (hsame a ha).symm
  | some specs =>
    rw [hs] at hfound
    constructor
    · rintro hpreferred ⟨⟨n, hn, hnone⟩, -⟩
      rw [hpreferred n (hsub n hn)] at hnone
      cases hnone
    · intro hnot
      have hsame : ∀ n ∈ visited, q.keyOf n = some specs.key := fun n hn =>
        (hresult specs hs n hn).resolve_left fun hnone => hnot ⟨⟨n, hn, hnone⟩, hfound.mp rfl⟩
      exact fun n hn => hsame n (hvisited _ hsame n hn)

end Request

theorem preferred_labelled_first :
    ∃ result, halfLabelled.getPreferAffinitySpecs ["a", "b"] = .ok result ∧
      halfLabelled.Preferred ["a", "b"] result := by
  refine (halfLabelled.preferred_iff (by simp) (by decide) ⟨by simp, by simp⟩).mpr ?_
  rintro ⟨-, -, hagree⟩
  exact absurd hagree (by unfold Request.Agreeing; decide)

/-- The node without the label is looked at first and cancels the search, and then the other one. -/
theorem cancelled_search_overwritten :
    halfLabelled.Interleaving ["a", "b"] ["b", "a"] ∧
      ¬ ∃ result, halfLabelled.getPreferAffinitySpecs ["b", "a"] = .ok result ∧
        halfLabelled.Preferred ["a", "b"] result := by
  refine ⟨⟨by simp, by simp⟩, ?_⟩
  rintro ⟨result, hresult, hpreferred⟩
  cases hresult
  exact absurd (hpreferred "b" (by simp)) (by decide)

end

end GodelScheduler.JobLevelAffinity
