import GodelScheduler.Framework.NumaTopology

/-!
# The NUMA filter for pods that share their NUMAs

A pod with dedicated cores that does not ask for NUMAs of its own needs one NUMA with
enough of everything it requests, such that the others are enough for the pods with
shared cores. The filter takes the positions of a list of NUMAs for their ids: it tries
the ids from 0 on and follows a nil pointer at the first one that is no NUMA. The
shared pods are also denied what is not counted for them, such as ephemeral storage.
`fits_exact_iff` says when its answer is right all the same.
-/

namespace GodelScheduler

open Library

namespace Resource

variable (gates : FeatureGates) (r request : Resource)

/-- A request of nothing is covered by any amount. -/
def covers (available request : ℤ) : Bool := decide (0 < request → request ≤ available)

/-- What `Satisfy` compares besides CPU and memory. -/
def satisfyOthers : Bool :=
  (!gates.localStorageCapacityIsolation || covers r.ephemeralStorage request.ephemeralStorage) &&
    r.scalarResources.entries.all fun e => covers e.2 (request.getScalar e.1)

def satisfy : Bool :=
  covers r.milliCPU request.milliCPU && covers r.memory request.memory &&
    r.satisfyOthers gates request

end Resource

namespace NumaTopologyStatus

variable (gates : FeatureGates) (o : RangeOrder (Sigma fun _ : ResourceName => ResourceStatus))
  (n : NumaTopologyStatus) (requests : ResourceList)

def addAvailable (available : ResourceList)
    (e : Sigma fun _ : ResourceName => ResourceStatus) : ResourceList :=
  available.insert e.1 (((available.lookup e.1).getD .zero).add e.2.available)

def getFreeResourcesInNumaList (numas : List ℤ) : Option ResourceList :=
  numas.foldlM (fun available numa => do
    let numaStatus ← n.topology.lookup numa
    pure ((o.list numaStatus.resourceStatuses.entries).foldl addAvailable available)) ∅

/-- What no pod uses of a resource of a NUMA. -/
def unused (numaId : ℤ) (name : ResourceName) : Quantity :=
  ((n.status numaId name).map fun s => if s.users.len = 0 then s.allocatable else .zero).getD .zero

/-- Of the resources of a NUMA only CPU and memory count here. -/
def getResourcesAvailableForSharedCoresPods (unavailableNumaList : List ℤ) : Option Resource :=
  unavailableNumaList.foldlM (fun available numaId =>
    if numaId ∈ n.topology then
      some { available with
        milliCPU := available.milliCPU - (n.unused numaId "cpu").milliValue
        memory := available.memory - (n.unused numaId "memory").value }
    else none) n.availableOfSharedCores

def resourcesSufficientForCommingPod (numaList : List ℤ) : Option Bool := do
  let available ← n.getFreeResourcesInNumaList o numaList
  pure (available.entries.all fun e =>
    (requests.lookup e.1).all fun request => decide (request.nano ≤ e.2.nano))

/-- The check for the shared pods that are there. -/
def resourcesSufficientForSharedCoresPods (unavailableNumaList : List ℤ) : Option Bool := do
  let available ← n.getResourcesAvailableForSharedCoresPods unavailableNumaList
  pure (available.satisfy gates n.requestsOfSharedCores)

def fitsNuma (numa : ℤ) : Option Bool := do
  if ← n.resourcesSufficientForCommingPod o requests [numa] then
    n.resourcesSufficientForSharedCoresPods gates [numa]
  else pure false

def tryNumas : List ℕ → Option Bool
  | [] => some false
  | numa :: rest => do
    if ← n.fitsNuma gates o requests numa then pure true else tryNumas rest

def fitsNumaTopologyForNonExclusiveDedicatedQoS (numas : RangeOrder ℤ) : Option Bool :=
  n.tryNumas gates o requests (List.range (numas.list n.topology.keys).length)

/-- The NUMA has what is requested of the resources it reports, and the other NUMAs have CPU and
memory enough for the shared pods. -/
structure Serves (numaId : ℤ) : Prop where
  numa : numaId ∈ n.topology
  free : ∀ name s request, n.status numaId name = some s → requests.lookup name = some request →
    request.nano ≤ s.available.nano
  cpu : Resource.covers (n.availableOfSharedCores.milliCPU - (n.unused numaId "cpu").milliValue)
    n.requestsOfSharedCores.milliCPU
  memory : Resource.covers (n.availableOfSharedCores.memory - (n.unused numaId "memory").value)
    n.requestsOfSharedCores.memory

/-- The filter returns, and accepts just if some NUMA serves the pod. -/
def FilterExact (numas : RangeOrder ℤ) : Prop :=
  ∃ b, n.fitsNumaTopologyForNonExclusiveDedicatedQoS gates o requests numas = some b ∧
    (b = true ↔ ∃ numaId, n.Serves requests numaId)

theorem writesField_addAvailable :
    WritesField (fun l name => AList.lookup name l) some
      (fun _ s v => some ((v.getD Quantity.zero).add s.available)) addAvailable := by
  refine .of_some fun l e name => ?_
  simp only [addAvailable, GoMap.lookup_insert']
  split_ifs with h
  · rw [h]
  · rfl

variable {numaId : ℤ}

theorem sufficientForCommingPod_iff {numaStatus : NumaStatus}
    (h : n.topology.lookup numaId = some numaStatus) :
    ∃ b, n.resourcesSufficientForCommingPod o requests [numaId] = some b ∧
      (b = true ↔ ∀ name s request, n.status numaId name = some s →
        requests.lookup name = some request → request.nano ≤ s.available.nano) := by
  set available := (o.list numaStatus.resourceStatuses.entries).foldl addAvailable ∅ with ha
  have hlookup : ∀ name, available.lookup name = (n.status numaId name).map (·.available) := by
    intro name
    rw [ha, writesField_addAvailable.view_range _ _ rfl, status, h]
    cases hs : numaStatus.resourceStatuses.lookup name <;> simp [hs, Quantity.zero, Quantity.add]
  refine ⟨_, by simp [resourcesSufficientForCommingPod, getFreeResourcesInNumaList, h]; rfl, ?_⟩
  simp only [← ha, List.all_eq_true, Option.all_eq_true, decide_eq_true_eq]
  constructor
  · intro hall name s request hs hrequest
    refine hall ⟨name, s.available⟩ (AList.mem_lookup_iff.mp ?_) request hrequest
    rw [hlookup, hs]
    rfl
  · intro hall e he request hrequest
    have hsome : available.lookup e.1 = some e.2 := AList.mem_lookup_iff.mpr he
    rw [hlookup, Option.map_eq_some_iff] at hsome
    obtain ⟨s, hs, hav⟩ := hsome
    rw [← hav]
    exact hall e.1 s request hs hrequest

open Classical in
theorem fitsNuma_eq (numa : ℤ) : n.fitsNuma gates o requests numa =
    if numa ∈ n.topology then some (decide (n.Serves requests numa ∧
      n.availableOfSharedCores.satisfyOthers gates n.requestsOfSharedCores)) else none := by
  split_ifs with hmem
  · obtain ⟨numaStatus, hlookup⟩ := GoMap.mem_iff_lookup.mp hmem
    obtain ⟨b, hb, hfree⟩ := n.sufficientForCommingPod_iff o requests hlookup
    rw [fitsNuma, hb]
    cases b with
    | false =>
      have hnot : ¬ n.Serves requests numa := fun hs => Bool.false_ne_true (hfree.mpr hs.free)
      simp [hnot]
    | true =>
      have hserves : n.Serves requests numa ↔ Resource.covers
          (n.availableOfSharedCores.milliCPU - (n.unused numa "cpu").milliValue)
            n.requestsOfSharedCores.milliCPU ∧ Resource.covers
          (n.availableOfSharedCores.memory - (n.unused numa "memory").value)
            n.requestsOfSharedCores.memory :=
        ⟨fun hs => ⟨hs.cpu, hs.memory⟩, fun hs => ⟨hmem, hfree.mp rfl, hs.1, hs.2⟩⟩
      simp only [resourcesSufficientForSharedCoresPods, getResourcesAvailableForSharedCoresPods,
        hserves, List.foldlM_cons, List.foldlM_nil, if_pos hmem, Bool.decide_and,
        Bool.decide_eq_true]
      rfl
  · simp [fitsNuma, resourcesSufficientForCommingPod, getFreeResourcesInNumaList,
      AList.lookup_eq_none.mpr hmem]

/-- The loop ends at the first id for which the answer is not no. -/
theorem tryNumas_eq (l : List ℕ) : n.tryNumas gates o requests l =
    ((l.find? fun numa : ℕ => n.fitsNuma gates o requests numa ≠ some false).map fun numa : ℕ =>
      n.fitsNuma gates o requests numa).getD (some false) := by
  induction l with
  | nil => rfl
  | cons numa l ih =>
    rw [tryNumas, ih]
    cases h : n.fitsNuma gates o requests numa with
    | none => simp [h]
    | some b => cases b <;> simp [h]

/-- Ids as many as there are NUMAs, from 0 on, are all of them. -/
theorem exists_index (h : ∀ i < n.topology.len, (i : ℤ) ∈ n.topology) (hmem : numaId ∈ n.topology) :
    ∃ i < n.topology.len, ((i : ℕ) : ℤ) = numaId := by
  have hsub : (Finset.range n.topology.len).map Nat.castEmbedding ⊆ n.topology.keys.toFinset := by
    intro numa hnuma
    obtain ⟨i, hi, rfl⟩ := Finset.mem_map.mp hnuma
    exact List.mem_toFinset.mpr (AList.mem_keys.mp (h i (Finset.mem_range.mp hi)))
  have hcard : n.topology.keys.toFinset.card ≤
      ((Finset.range n.topology.len).map (Nat.castEmbedding (R := ℤ))).card := by
    rw [Finset.card_map, Finset.card_range]
    exact List.toFinset_card_le _
  have hnuma := List.mem_toFinset.mpr (AList.mem_keys.mp hmem)
  rw [← Finset.eq_of_subset_of_card_le hsub hcard, Finset.mem_map] at hnuma
  obtain ⟨i, hi, heq⟩ := hnuma
  exact ⟨i, Finset.mem_range.mp hi, heq⟩

/-- The filter is exact if it accepts before it comes to an id that is none, or if the ids are
those it tries and it rejects for want of CPU or memory only. -/
theorem fits_exact_iff (numas : RangeOrder ℤ) : n.FilterExact gates o requests numas ↔
    let others := n.availableOfSharedCores.satisfyOthers gates n.requestsOfSharedCores
    (others ∧ ∃ i : ℕ, n.Serves requests i ∧ ∀ j < i, (j : ℤ) ∈ n.topology) ∨
      (∀ i < n.topology.len, (i : ℤ) ∈ n.topology) ∧
        (others ∨ ∀ numaId, ¬ n.Serves requests numaId) := by
  classical
  extract_lets others
  have hfalse : ∀ i : ℕ, n.fitsNuma gates o requests i = some false ↔
      (i : ℤ) ∈ n.topology ∧ ¬ (n.Serves requests i ∧ others) := by
    intro i
    by_cases hi : (i : ℤ) ∈ n.topology <;> simp [fitsNuma_eq, hi, others]
  rw [FilterExact, fitsNumaTopologyForNonExclusiveDedicatedQoS, (numas.perm _).length_eq,
    tryNumas_eq]
  cases hfind : (List.range n.topology.keys.length).find? fun numa : ℕ =>
      n.fitsNuma gates o requests numa ≠ some false with
  | none =>
    simp only [List.find?_range_eq_none, decide_not, Bool.not_not, decide_eq_true_eq,
      hfalse] at hfind
    have hids : ∀ i < n.topology.len, (i : ℤ) ∈ n.topology := fun i hi => (hfind i hi).1
    have hnot : others → ∀ numaId, ¬ n.Serves requests numaId := by
      intro ho numaId hs
      obtain ⟨i, hi, rfl⟩ := n.exists_index hids hs.numa
      exact (hfind i hi).2 ⟨hs, ho⟩
    constructor
    · rintro ⟨b, hb, hiff⟩
      obtain rfl := Option.some_inj.mp hb
      exact Or.inr ⟨hids, Or.inr fun numaId hs => Bool.false_ne_true (hiff.mpr ⟨numaId, hs⟩)⟩
    · intro h
      refine ⟨false, rfl, iff_of_false Bool.false_ne_true fun ⟨numaId, hs⟩ => ?_⟩
      rcases h with ⟨ho, -⟩ | ⟨-, ho | hnone⟩
      · exact hnot ho numaId hs
      · exact hnot ho numaId hs
      · exact hnone numaId hs
  | some i =>
    simp only [List.find?_range_eq_some, decide_not, Bool.not_not, decide_eq_true_eq,
      Bool.not_eq_true', decide_eq_false_iff_not, List.mem_range, hfalse] at hfind
    obtain ⟨hne, hi, hbefore⟩ := hfind
    rw [Option.map_some, Option.getD_some, fitsNuma_eq]
    by_cases hmem : (i : ℤ) ∈ n.topology
    · have hs : n.Serves requests i ∧ others := by
        by_contra hnot
        exact hne ⟨hmem, hnot⟩
      rw [if_pos hmem, decide_eq_true hs]
      exact iff_of_true ⟨true, rfl, iff_of_true rfl ⟨i, hs.1⟩⟩
        (Or.inl ⟨hs.2, i, hs.1, fun j hj => (hbefore j hj).1⟩)
    · rw [if_neg hmem]
      refine iff_of_false (fun ⟨b, hb, _⟩ => by cases hb) ?_
      rintro (⟨ho, j, hs, hall⟩ | ⟨hids, -⟩)
      · rcases lt_trichotomy i j with hlt | rfl | hlt
        · exact hmem (hall i hlt)
        · exact hmem hs.numa
        · exact (hbefore j hlt).2 ⟨hs, ho⟩
      · exact hmem (hids i hi)

def numaOne : NumaTopologyStatus :=
  parseZones ⟨true, true⟩ .forward (.new {})
    { NumaExample.twoNumas with
      topologyZone := [{ name := "0", children := [NumaExample.numaWithCPU "1" 4] }] }

/-- The filter looks for NUMA 0 and follows a nil pointer. -/
theorem numaOne_not_exact : ¬ numaOne.FilterExact ⟨true, true⟩ .forward
    ((∅ : ResourceList).insert "cpu" ⟨2000000000⟩) .forward := by
  have hnone : numaOne.fitsNumaTopologyForNonExclusiveDedicatedQoS ⟨true, true⟩ .forward
      ((∅ : ResourceList).insert "cpu" ⟨2000000000⟩) .forward = none := by decide
  rintro ⟨b, hb, -⟩
  rw [hnone] at hb
  cases hb

end NumaTopologyStatus

end GodelScheduler
