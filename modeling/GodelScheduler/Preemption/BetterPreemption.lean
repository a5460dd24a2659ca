import GodelScheduler.Preemption.CandidateOrder
import GodelScheduler.Preemption.Dichotomy

/-!
# Better preemption

Nodes on which preemption can not help are left out of the list of nodes by an empty entry.
Better preemption looks for nodes by victim priority, in one of the two orders, and selects
the victims on the nodes it found. If no pod has a priority at which it may be a victim, it
asks the filters about every entry of the list instead.

Both orders pass over the empty entries, and the last case does not. What is handed to the
filters is recorded, with the nodes on which victims are selected; `betterPreemption_safe_iff`
says when an empty entry is never among them.
-/

namespace GodelScheduler.Preemption

open Library Round List Function

def podResourceTypeMissingErrorString : String :=
  "failed to get PodResourceType, supposed to be set in cycle state"

def reasonUnresolvableByPreemption : String := "preemption will not help schedule pod on any node"

abbrev NodeToStatusMap := GoMap (Option NodeName) FilterCode

/-- A node without a status counts as successful. -/
def NodeToStatusMap.code (m : NodeToStatusMap) (node : SearchNode) : FilterCode :=
  (m.lookup node.getNodeName).getD .success

/-- The nodes by index, without those whose status can not be resolved. -/
def prepareNodes (preemptNodeCandidates : List SearchNode) (m : NodeToStatusMap) :
    Except String (List (Option SearchNode)) :=
  let potentialCandidates := preemptNodeCandidates.map fun node =>
    if m.code node ≠ .unschedulableAndUnresolvable then some node else none
  if potentialCandidates.any Option.isSome then .ok potentialCandidates
  else .error reasonUnresolvableByPreemption

/-- The parts of the nominated nodes of a unit that are read here. -/
structure CachedNominatedNodes where
  podCount : ℤ := 1
  hasCrossNodeConstraints : Option Bool := none

def CachedNominatedNodes.expectedCount (cached : CachedNominatedNodes) : ℤ :=
  if cached.hasCrossNodeConstraints = some true then 1 else cached.podCount

inductive BetterError
  | message (text : String)
  /-- The source dereferences an empty entry. -/
  | nilNode

/-- The result, with the nodes that were handed to the filters to nominate nodes, and the nodes on
which victims were selected. -/
structure BetterOutcome (ψ : Type) where
  handed : List (Option SearchNode) := []
  used : List (Option SearchNode) := []
  result : Except BetterError (List (Candidate ψ))

namespace PodScheduler

variable {σ ψ υ : Type} (gs : PodScheduler σ ψ υ) (state : σ) (pod : Pod)

section

/-- The priorities of the pods that may be preempted, up to that of the preemptor, in ascending
order. -/
def prioritiesSlice (resourceType : PodResourceType) (nodesList : List (Option SearchNode)) :
    List ℤ :=
  let priorities := nodesList.flatMap fun node =>
    node.elim [] fun n => n.getPrioritiesForPodsMayBePreempted resourceType
  (priorities.dedup.insertionSort (· ≤ ·)).takeWhile (· ≤ pod.getPodPriority)

abbrev BetterSelectPolicy (σ ψ : Type) :=
  Option PodResourceType → List ℤ → List (Option SearchNode) → ℤ → (ℕ → List ℕ) → SearchResult σ ψ

def betterSelectPoliciesRegistry (policy : String) : Option (BetterSelectPolicy σ ψ) :=
  if policy = "Ascending" then some (gs.ascendingOrderPreemption state pod)
  else if policy = "Dichotomy" then some (gs.dichotomyPreemption state pod)
  else none

/-- One entry of the list if no priority is eligible. -/
def tryCheckNode (slot : Slot σ ψ) : Slot σ ψ × Bool :=
  ({ slot with handed := slot.handed ++ [slot.nodeInfo] },
    (podPassesFiltersOnNode gs.framework state pod slot.nodeInfo []).1)

/-- All entries of the list are handed to the filters, until enough nodes fit. -/
def tryNodes (nodesList : List (Option SearchNode)) (expectedCount : ℤ) (schedule : List ℕ) :
    SearchResult σ ψ :=
  let r := Round.run (gs.tryCheckNode state pod) expectedCount schedule searchWorkers
    nodesList.length ⟨newSlots nodesList, [], false⟩
  ⟨r.selected, -1, r.slots⟩

/-- The victims on the nominated nodes; a node on which there are none to be found is skipped. -/
def selectCandidates (nodesList : List (Option SearchNode)) :
    List ℕ → Except BetterError (List (Candidate ψ))
  | [] => .ok []
  | index :: rest =>
    match nodesList.getD index none with
    | none => .error .nilNode
    | some nodeInfo => do
      let candidates ← selectCandidates nodesList rest
      match gs.selectVictimsOnNode pod state gs.newPreemptionState nodeInfo with
      | (preemptionState, some victims) =>
        return ⟨nodeInfo.getNodeName, victims, preemptionState⟩ :: candidates
      | (_, none) => return candidates

def nominate (select : BetterSelectPolicy σ ψ) (resourceType : PodResourceType)
    (nodesList : List (Option SearchNode)) (expectedCount : ℤ) (schedules : ℕ → List ℕ) :
    SearchResult σ ψ :=
  let priorities := prioritiesSlice pod resourceType nodesList
  if priorities = [] then gs.tryNodes state pod nodesList expectedCount (schedules 0)
  else select (some resourceType) priorities nodesList expectedCount schedules

/-- `policy` is the policy kept for the owner of the pod, empty if there is none. -/
def preemptionPolicy (betterSelectPolicies : List String) (policy : String) : String :=
  if policy = "" then betterSelectPolicies.headD "" else policy

def betterPreemption (betterSelectPolicies : List String) (policy : String)
    (nodesList : List (Option SearchNode)) (cached : CachedNominatedNodes)
    (schedules : ℕ → List ℕ) : BetterOutcome ψ :=
  let preemptionPolicy := preemptionPolicy betterSelectPolicies policy
  match gs.betterSelectPoliciesRegistry state pod preemptionPolicy with
  | none => { result := .error (.message ("unexpected preemption policy: " ++ preemptionPolicy)) }
  | some select =>
    match gs.getPodResourceType state with
    | none => { result := .error (.message podResourceTypeMissingErrorString) }
    | some resourceType =>
      let found := gs.nominate state pod select resourceType nodesList cached.expectedCount
        schedules
      { handed := (List.range nodesList.length).flatMap fun i => (found.slots i).handed
        used := found.nominatedNodeIndex.map fun i => nodesList.getD i none
        result := gs.selectCandidates state pod nodesList found.nominatedNodeIndex }

end

variable {i : ℕ} {expectedCount : ℤ} {select : BetterSelectPolicy σ ψ}

section

/-- An index without a node has an empty slot, and no empty entry was handed to the filters. -/
def NilFree (node : Option SearchNode) (slot : Slot σ ψ) : Prop :=
  none ∉ slot.handed ∧ (node = none → slot.nodeInfo = none)

/-- An empty slot is passed over, and only nodes are handed to the filters. -/
structure SkipsNil (visit : Slot σ ψ → Slot σ ψ × Bool) : Prop where
  nil : ∀ slot, slot.nodeInfo = none → visit slot = (slot, false)
  handed : ∀ slot, (visit slot).1.handed = slot.handed ∨
    ∃ n, (visit slot).1.handed = slot.handed ++ [some n]

/-- A search has handed no empty entry to the filters, and nominated none. -/
def Clean (nodesList : List (Option SearchNode)) (slots : ℕ → Slot σ ψ) (nominated : List ℕ) :
    Prop :=
  (∀ i, NilFree (nodesList.getD i none) (slots i)) ∧
    ∀ i ∈ nominated, nodesList.getD i none ≠ none

variable {gs state pod} {nodesList : List (Option SearchNode)}

theorem clean_newSlots : Clean nodesList (newSlots nodesList : ℕ → Slot σ ψ) [] :=
  ⟨fun _ => ⟨by simp [newSlots], id⟩, by simp⟩

variable {visit : Slot σ ψ → Slot σ ψ × Bool}

theorem SkipsNil.nilFree (h : SkipsNil visit) {node : Option SearchNode} {slot : Slot σ ψ}
    (hslot : NilFree node slot) : NilFree node (visit slot).1 := by
  refine ⟨?_, fun hnode => ?_⟩
  · rcases h.handed slot with hsame | ⟨n, hmore⟩
    · rw [hsame]
      exact hslot.1
    · rw [hmore]
      simp [hslot.1]
  · rw [h.nil slot (hslot.2 hnode)]
    exact hslot.2 hnode

theorem SkipsNil.run (h : SkipsNil visit) (expected : ℤ) (schedule : List ℕ) {slots : ℕ → Slot σ ψ}
    {nominated : List ℕ} (hclean : Clean nodesList slots nominated) :
    let r := Round.run visit expected schedule searchWorkers nodesList.length
      ⟨slots, nominated, false⟩
    Clean nodesList r.slots r.selected := by
  refine run_invariant (fun i slot => h.nilFree) ?_ schedule
    (show 0 < searchWorkers by decide) nodesList.length hclean.1 hclean.2
  intro i slot hslot hselected hnode
  rw [h.nil slot (hslot.2 hnode)] at hselected
  cases hselected

variable (resourceType : Option PodResourceType)

variable (gs state pod) in
theorem skipsNil_ascendingCheckNode (previousPriority priority : ℤ) :
    SkipsNil (gs.ascendingCheckNode state pod resourceType previousPriority priority) where
  nil slot hnil := by rw [ascendingCheckNode, hnil]
  handed slot := by
    unfold ascendingCheckNode
    cases slot.nodeInfo with
    | none => exact .inl rfl
    | some n =>
      dsimp only
      split_ifs
      · exact .inl rfl
      all_goals exact .inr ⟨_, rfl⟩

variable (gs state pod) in
theorem skipsNil_dichotomyCheckNode (previousPriority priority : ℤ) :
    SkipsNil (gs.dichotomyCheckNode state pod resourceType previousPriority priority) where
  nil slot hnil := by rw [dichotomyCheckNode, hnil]
  handed slot := by
    unfold dichotomyCheckNode
    cases slot.nodeInfo with
    | none => exact .inl rfl
    | some n =>
      dsimp only
      split_ifs
      · exact .inl rfl
      all_goals exact .inr ⟨_, rfl⟩

theorem clean_ascendingRounds (expectedCount : ℤ) (schedules : ℕ → List ℕ) (rest : List ℤ)
    (priorityIndex : ℕ) (previousPriority : ℤ) {result : SearchResult σ ψ}
    (hclean : Clean nodesList result.slots result.nominatedNodeIndex) :
    let r := gs.ascendingRounds state pod resourceType nodesList.length expectedCount schedules rest
      priorityIndex previousPriority result
    Clean nodesList r.slots r.nominatedNodeIndex := by
  induction rest generalizing priorityIndex previousPriority result with
  | nil => exact hclean
  | cons priority rest ih =>
    have hround := (skipsNil_ascendingCheckNode gs state pod resourceType previousPriority
      priority).run expectedCount (schedules priorityIndex) hclean
    rw [ascendingRounds]
    cases hstop : (Round.run
        (gs.ascendingCheckNode state pod resourceType previousPriority priority)
        expectedCount (schedules priorityIndex) searchWorkers nodesList.length
        ⟨result.slots, result.nominatedNodeIndex, false⟩).stop with
    | true => simpa only [hstop, if_true] using hround
    | false => simpa only [hstop, Bool.false_eq_true, if_false] using ih _ _ hround

theorem NilFree.dropFailed {slots : ℕ → Slot σ ψ} {node : Option SearchNode}
    (h : NilFree node (slots i)) : NilFree node (dropFailed slots i) := by
  unfold PodScheduler.dropFailed
  split_ifs
  · exact ⟨h.1, fun _ => rfl⟩
  · exact h

theorem clean_dichotomyRound (prioritiesSlice : List ℤ) (expectedCount : ℤ) (schedules : ℕ → List ℕ)
    {b : Bisection σ ψ} (hclean : Clean nodesList b.slots b.selectedNodeIndexSlice.flatten) :
    let b := gs.dichotomyRound state pod resourceType prioritiesSlice nodesList.length expectedCount
      schedules b
    Clean nodesList b.slots b.selectedNodeIndexSlice.flatten := by
  obtain ⟨hslots, hselected⟩ := hclean
  have hstart : Clean nodesList (clearFailed b.slots) [] := ⟨hslots, by simp⟩
  unfold dichotomyRound
  dsimp only
  obtain ⟨hslots', hselected'⟩ := (skipsNil_dichotomyCheckNode gs state pod resourceType
    b.previousPriority (prioritiesSlice.getD ((b.left + b.right) / 2).toNat 0)).run expectedCount
      (schedules ((b.left + b.right) / 2).toNat) hstart
  split_ifs with hfound
  · refine ⟨fun i => (hslots' i).dropFailed, fun i hi => ?_⟩
    rw [flatten_append, flatten_singleton, mem_append] at hi
    exact hi.elim (hselected i) (hselected' i)
  · exact ⟨hslots', hselected⟩

variable (gs state pod) in
theorem clean_dichotomyRounds (prioritiesSlice : List ℤ) (expectedCount : ℤ)
    (schedules : ℕ → List ℕ) (fuel : ℕ) {b : Bisection σ ψ}
    (hclean : Clean nodesList b.slots b.selectedNodeIndexSlice.flatten) :
    let b := gs.dichotomyRounds state pod resourceType prioritiesSlice nodesList.length
      expectedCount schedules fuel b
    Clean nodesList b.slots b.selectedNodeIndexSlice.flatten := by
  induction fuel generalizing b with
  | zero => exact hclean
  | succ fuel ih =>
    rw [dichotomyRounds]
    split_ifs
    · exact ih (clean_dichotomyRound resourceType prioritiesSlice expectedCount schedules hclean)
    · exact hclean

theorem mem_appendIndexes {indexes order : List ℕ}
    (h : i ∈ appendIndexes expectedCount indexes order) : i ∈ order ∨ i ∈ indexes := by
  induction indexes generalizing order with
  | nil => exact .inl h
  | cons index rest ih =>
    rw [appendIndexes] at h
    have hnew : i ∈ order ++ [index] → i ∈ order ∨ i ∈ index :: rest := by
      rw [mem_append, mem_singleton, mem_cons]
      exact Or.imp_right .inl
    dsimp only at h
    split_ifs at h
    · exact (ih h).imp_right (mem_cons_of_mem _)
    · exact hnew h
    · exact (ih h).elim hnew fun h => .inr (mem_cons_of_mem _ h)

theorem mem_orderIndexes {slices : List (List ℕ)} {order : List ℕ}
    (h : i ∈ orderIndexes expectedCount slices order) : i ∈ order ∨ i ∈ slices.flatten := by
  induction slices generalizing order with
  | nil => exact .inl h
  | cons slice rest ih =>
    rw [orderIndexes] at h
    simp only [flatten_cons, mem_append]
    split_ifs at h
    · exact (mem_appendIndexes h).imp_right .inl
    · rcases ih h with h | h
      · exact (mem_appendIndexes h).imp_right .inl
      · exact .inr (.inr h)

/-- Both orders pass over the empty entries, for any number of nodes. -/
theorem clean_of_registered {policy : String}
    (h : gs.betterSelectPoliciesRegistry state pod policy = some select)
    (resourceType : Option PodResourceType) (priorities : List ℤ) (expectedCount : ℤ)
    (schedules : ℕ → List ℕ) :
    let r := select resourceType priorities nodesList expectedCount schedules
    Clean nodesList r.slots r.nominatedNodeIndex := by
  unfold betterSelectPoliciesRegistry at h
  split_ifs at h
  · obtain rfl := Option.some.inj h
    exact clean_ascendingRounds resourceType expectedCount schedules priorities 0 minInt64
      clean_newSlots
  · obtain rfl := Option.some.inj h
    obtain ⟨hslots, hselected⟩ := clean_dichotomyRounds gs state pod resourceType priorities
      expectedCount schedules priorities.length
      (b := { left := 0
              right := priorities.length - 1
              previousPriority := minInt64
              slots := newSlots nodesList }) clean_newSlots
    refine ⟨hslots, fun i hi => hselected i ?_⟩
    have hmem := (mem_orderIndexes hi).resolve_left not_mem_nil
    rw [mem_flatten] at hmem ⊢
    obtain ⟨slice, hslice, hi⟩ := hmem
    exact ⟨slice, mem_reverse.mp hslice, hi⟩

end

section Try

variable (nodesList : List (Option SearchNode)) (expectedCount : ℤ)

def fitting (indexes : List ℕ) : List ℕ :=
  indexes.filter fun j =>
    (nodesList.getD j none).any fun n => World.fits gs.framework pod ⟨state, n⟩ []

/-- The search stops when these indexes were looked at. -/
def Enough (indexes : List ℕ) : Prop :=
  gs.fitting state pod nodesList indexes ≠ [] ∧
    expectedCount ≤ (gs.fitting state pod nodesList indexes).length

/-- The entries before each empty one, in the chunk of its worker, are enough to stop. -/
def StopsBeforeNil : Prop :=
  ∀ w before i after, chunkOf searchWorkers nodesList.length w = before ++ i :: after →
    nodesList.getD i none = none → gs.Enough state pod nodesList expectedCount before

/-- What holds while no empty entry was handed to the filters. -/
structure TriesNodes (r : Round (Slot σ ψ)) : Prop where
  node : ∀ i, (r.slots i).nodeInfo = nodesList.getD i none
  nil : ∀ i, none ∉ (r.slots i).handed
  fits : ∀ i, (r.slots i).handed ≠ [] → (∃ n, nodesList.getD i none = some n ∧
    World.fits gs.framework pod ⟨state, n⟩ [] = true) → i ∈ r.selected
  stop : r.selected ≠ [] → expectedCount ≤ r.selected.length → r.stop = true

variable {gs state pod nodesList expectedCount}

theorem TriesNodes.check {r : Round (Slot σ ψ)}
    (h : gs.TriesNodes state pod nodesList expectedCount r) (hi : nodesList.getD i none ≠ none) :
    gs.TriesNodes state pod nodesList expectedCount
      (Round.check (gs.tryCheckNode state pod) expectedCount i r) := by
  have hslots := slots_check (gs.tryCheckNode state pod) expectedCount r i
  have hkeep : r.selected ⊆
      (Round.check (gs.tryCheckNode state pod) expectedCount i r).selected := by
    cases hfits : (gs.tryCheckNode state pod (r.slots i)).2 with
    | true =>
      rw [(check_of_fits expectedCount hfits).1]
      exact subset_append_left ..
    | false => rw [(check_of_not_fits expectedCount hfits).1]; exact List.Subset.refl _
  refine ⟨fun j => ?_, fun j => ?_, fun j => ?_, ?_⟩
  · rw [hslots, update_apply]
    split_ifs with hj
    · exact hj ▸ h.node i
    · exact h.node j
  · rw [hslots, update_apply]
    split_ifs with hj
    · simp only [tryCheckNode, h.node i, mem_append, mem_singleton, h.nil i, false_or]
      exact fun hnone => hi hnone.symm
    · exact h.nil j
  · rw [hslots]
    by_cases hj : j = i
    · subst hj
      rintro - ⟨n, hn, hfits⟩
      have hvisit : (gs.tryCheckNode state pod (r.slots j)).2 = true := by
        rw [tryCheckNode, h.node j, hn]
        exact hfits
      rw [(check_of_fits expectedCount hvisit).1]
      simp
    · rw [update_of_ne hj]
      exact fun hhanded hfits => hkeep (h.fits j hhanded hfits)
  · cases hfits : (gs.tryCheckNode state pod (r.slots i)).2 with
    | true =>
      obtain ⟨hselected, hstop⟩ := check_of_fits expectedCount hfits
      rw [hselected, hstop]
      intro _ henough
      simp only [length_append, length_singleton, Nat.cast_add, Nat.cast_one] at henough
      simp [henough]
    | false =>
      obtain ⟨hselected, hstop⟩ := check_of_not_fits expectedCount hfits
      rw [hselected, hstop]
      exact h.stop

theorem triesNodes_start : gs.TriesNodes state pod nodesList expectedCount
    (⟨newSlots nodesList, [], false⟩ : Round (Slot σ ψ)) :=
  ⟨fun _ => rfl, fun _ => by simp [newSlots], fun _ h => absurd rfl h, fun h => absurd rfl h⟩

variable {before : List ℕ}

/-- Entries that were handed to the filters and fit are selected. -/
theorem TriesNodes.not_enough {r : Round (Slot σ ψ)}
    (h : gs.TriesNodes state pod nodesList expectedCount r) (hnodup : before.Nodup)
    (hworked : ∀ j ∈ before, (r.slots j).handed ≠ []) (hstop : r.stop = false) :
    ¬ gs.Enough state pod nodesList expectedCount before := by
  rintro ⟨hne, henough⟩
  have hsub : gs.fitting state pod nodesList before ⊆ r.selected := by
    intro j hj
    obtain ⟨hj, hfits⟩ := mem_filter.mp hj
    cases hn : nodesList.getD j none with
    | none =>
      rw [hn] at hfits
      cases hfits
    | some n =>
      rw [hn] at hfits
      exact h.fits j (hworked j hj) ⟨n, hn, hfits⟩
  have hlength : (gs.fitting state pod nodesList before).length ≤ r.selected.length :=
    (subperm_of_subset (hnodup.filter _) hsub).length_le
  have hselected : r.selected ≠ [] := by
    rintro hnil
    rw [hnil] at hsub
    exact hne (subset_nil.mp hsub)
  rw [h.stop hselected (by omega)] at hstop
  cases hstop

theorem takenInOrder_tryNodes (h : gs.StopsBeforeNil state pod nodesList expectedCount) :
    TakenInOrder Round.stop (Round.check (gs.tryCheckNode state pod) expectedCount) searchWorkers
      nodesList.length (gs.TriesNodes state pod nodesList expectedCount)
      (fun r i => (r.slots i).handed ≠ []) (fun i => nodesList.getD i none ≠ none) where
  worked_self i r := by
    rw [slots_check, update_self]
    simp [tryCheckNode]
  worked_keep i j r hj := by
    rw [slots_check]
    by_cases hji : j = i
    · subst hji
      rw [update_self]
      simp [tryCheckNode]
    · rwa [update_of_ne hji]
  take r w before i after hr hstop hchunk hworked hnil := by
    have hnodup : (before ++ i :: after).Nodup := hchunk ▸ nodup_chunkOf w
    exact hr.not_enough (nodup_append.mp hnodup).1 hworked hstop
      (h w before i after hchunk hnil)
  keep i r hi hr := hr.check hi

/-- A prefix that is not enough does not set the flag. -/
theorem stop_foldl_check (hnodup : before.Nodup)
    (hsome : ∀ j ∈ before, nodesList.getD j none ≠ none)
    (hfew : ¬ gs.Enough state pod nodesList expectedCount before) :
    (before.foldl (fun r i => Round.check (gs.tryCheckNode state pod) expectedCount i r)
      (⟨newSlots nodesList, [], false⟩ : Round (Slot σ ψ))).stop = false := by
  obtain ⟨hselected, hstop⟩ := foldl_check (gs.tryCheckNode state pod) expectedCount
    (⟨newSlots nodesList, [], false⟩ : Round (Slot σ ψ)) hnodup
  have hfitting : (before.filter fun i => (gs.tryCheckNode state pod
      ((newSlots nodesList : ℕ → Slot σ ψ) i)).2) = gs.fitting state pod nodesList before := by
    refine filter_congr fun j hj => ?_
    obtain ⟨n, hn⟩ := Option.ne_none_iff_exists'.mp (hsome j hj)
    rw [tryCheckNode, newSlots, hn]
    rfl
  dsimp only at hselected hstop
  rw [hfitting, nil_append] at hselected
  rw [hselected, hfitting] at hstop
  rw [Bool.eq_false_iff]
  exact fun hset => hfew ((hstop.mp hset).resolve_left (by simp))

theorem Enough.append (h : gs.Enough state pod nodesList expectedCount before) (after : List ℕ) :
    gs.Enough state pod nodesList expectedCount (before ++ after) := by
  obtain ⟨hne, henough⟩ := h
  unfold Enough fitting at *
  rw [filter_append]
  refine ⟨fun hnil => hne (append_eq_nil_iff.mp hnil).1, ?_⟩
  rw [length_append]
  push_cast
  omega

theorem exists_first_nil (before after : List ℕ) (hi : nodesList.getD i none = none) :
    ∃ first tail j rest, before = first ++ tail ∧ before ++ i :: after = first ++ j :: rest ∧
      nodesList.getD j none = none ∧ ∀ k ∈ first, nodesList.getD k none ≠ none := by
  induction before with
  | nil => exact ⟨[], [], i, after, rfl, rfl, hi, by simp⟩
  | cons k before ih =>
    by_cases hk : nodesList.getD k none = none
    · exact ⟨[], k :: before, k, before ++ i :: after, rfl, rfl, hk, by simp⟩
    · obtain ⟨first, tail, j, rest, hbefore, hcut, hj, hfirst⟩ := ih
      refine ⟨k :: first, tail, j, rest, by rw [hbefore]; rfl, by rw [cons_append, hcut]; rfl,
        hj, ?_⟩
      intro k' hk'
      rcases mem_cons.mp hk' with rfl | hk'
      · exact hk
      · exact hfirst k' hk'

/-- An empty entry that is visited is handed to the filters. -/
theorem exists_schedule_nil {w j : ℕ} {first rest : List ℕ}
    (hchunk : chunkOf searchWorkers nodesList.length w = first ++ j :: rest)
    (hj : nodesList.getD j none = none) (hfirst : ∀ k ∈ first, nodesList.getD k none ≠ none)
    (hfew : ¬ gs.Enough state pod nodesList expectedCount first) :
    ∃ schedule, none ∈
      ((gs.tryNodes state pod nodesList expectedCount schedule).slots j).handed := by
  have hnodup : (first ++ j :: rest).Nodup := hchunk ▸ nodup_chunkOf w
  have hmem : j ∈ chunkOf searchWorkers nodesList.length w := by simp [hchunk]
  have hworkers : w < searchWorkers := lt_of_mem_chunkOf (by decide) hmem
  refine exists_schedule (Q := fun r : Round (Slot σ ψ) => none ∈ (r.slots j).handed) ?_ hworkers
    hchunk ?_ ?_
  · intro i r hr
    rw [slots_check]
    by_cases hji : j = i
    · subst hji
      rw [update_self]
      exact mem_append_left _ hr
    · rwa [update_of_ne hji]
  · intro first' tail hcut
    subst hcut
    refine stop_foldl_check (nodup_append.mp (nodup_append.mp hnodup).1).1
      (fun k hk => hfirst k (mem_append_left _ hk)) fun henough => hfew (henough.append tail)
  · have hnot : j ∉ first := notMem_done rfl hnodup
    rw [slots_check, update_self, slots_foldl_check _ (nodup_append.mp hnodup).1]
    simp only [hnot, if_false, tryCheckNode, newSlots, hj, nil_append, mem_singleton]

theorem tryNodes_nilFree_iff :
    (∀ schedule i,
      none ∉ ((gs.tryNodes state pod nodesList expectedCount schedule).slots i).handed) ↔
      gs.StopsBeforeNil state pod nodesList expectedCount := by
  constructor
  · intro h w before i after hchunk hi
    by_contra hfew
    obtain ⟨first, tail, j, rest, hbefore, hcut, hj, hfirst⟩ :=
      exists_first_nil before after hi
    have hfew' : ¬ gs.Enough state pod nodesList expectedCount first := fun henough =>
      hfew (hbefore ▸ henough.append tail)
    obtain ⟨schedule, hmem⟩ := exists_schedule_nil (hchunk.trans hcut) hj hfirst hfew'
    exact h schedule j hmem
  · intro h schedule i
    exact ((takenInOrder_tryNodes h).parallelizeUntil schedule triesNodes_start).nil i

theorem tryNodes_used {schedule : List ℕ}
    (h : ∀ i, none ∉ ((gs.tryNodes state pod nodesList expectedCount schedule).slots i).handed) :
    ∀ i ∈ (gs.tryNodes state pod nodesList expectedCount schedule).nominatedNodeIndex,
      nodesList.getD i none ≠ none := by
  obtain ⟨done, -, -, hslots, hselected, -⟩ := run_spec (gs.tryCheckNode state pod)
    expectedCount schedule (show 0 < searchWorkers by decide) nodesList.length
    (⟨newSlots nodesList, [], false⟩ : Round (Slot σ ψ))
  intro i hi hnil
  dsimp only [tryNodes] at h hi
  rw [hselected, nil_append] at hi
  refine h i ?_
  rw [hslots]
  simp only [(mem_filter.mp hi).1, if_true, tryCheckNode, newSlots, hnil, nil_append,
    mem_singleton]

theorem tryNodes_handed_of_le {schedule : List ℕ} (hi : nodesList.length ≤ i) :
    ((gs.tryNodes state pod nodesList expectedCount schedule).slots i).handed = [] := by
  obtain ⟨done, hpieces, -, hslots, -⟩ := run_spec (gs.tryCheckNode state pod)
    expectedCount schedule (show 0 < searchWorkers by decide) nodesList.length
    (⟨newSlots nodesList, [], false⟩ : Round (Slot σ ψ))
  have hnot : i ∉ done := fun hmem => absurd (hpieces i hmem) (not_lt.mpr hi)
  dsimp only [tryNodes]
  rw [hslots]
  simp only [hnot, if_false, newSlots]

end Try

section

variable {gs state pod} {preemptNodeCandidates : List SearchNode} {m : NodeToStatusMap}
  {nodesList : List (Option SearchNode)}

theorem prepareNodes_ok (h : prepareNodes preemptNodeCandidates m = .ok nodesList) :
    nodesList = preemptNodeCandidates.map fun node =>
      if m.code node ≠ .unschedulableAndUnresolvable then some node else none := by
  unfold prepareNodes at h
  dsimp only at h
  split_ifs at h
  exact (Except.ok.inj h).symm

theorem getD_prepareNodes (h : prepareNodes preemptNodeCandidates m = .ok nodesList)
    {node : SearchNode} (hnode : preemptNodeCandidates[i]? = some node) :
    nodesList.getD i none = none ↔ m.code node = .unschedulableAndUnresolvable := by
  rw [prepareNodes_ok h, getD_eq_getElem?_getD, List.getElem?_map, hnode]
  simp

variable (gs state pod preemptNodeCandidates m nodesList)

/-- The entries before each rejected node, in the chunk of its worker, are enough to stop. -/
def StopsBeforeRejected (expectedCount : ℤ) : Prop :=
  ∀ w before i after node,
    chunkOf searchWorkers preemptNodeCandidates.length w = before ++ i :: after →
    preemptNodeCandidates[i]? = some node → m.code node = .unschedulableAndUnresolvable →
    gs.Enough state pod nodesList expectedCount before

variable {gs state pod preemptNodeCandidates m nodesList}

theorem stopsBeforeRejected_iff (h : prepareNodes preemptNodeCandidates m = .ok nodesList) :
    gs.StopsBeforeRejected state pod preemptNodeCandidates m nodesList expectedCount ↔
      gs.StopsBeforeNil state pod nodesList expectedCount := by
  have hlength : nodesList.length = preemptNodeCandidates.length := by
    rw [prepareNodes_ok h, length_map]
  rw [StopsBeforeNil, hlength]
  constructor
  · intro hstops w before i after hchunk hnil
    have hmem : i ∈ chunkOf searchWorkers preemptNodeCandidates.length w := by simp [hchunk]
    have hlt : i < preemptNodeCandidates.length := by
      simpa using (mem_filter.mp hmem).2
    have hnode := List.getElem?_eq_getElem hlt
    exact hstops w before i after _ hchunk hnode ((getD_prepareNodes h hnode).mp hnil)
  · intro hstops w before i after node hchunk hnode hcode
    exact hstops w before i after hchunk ((getD_prepareNodes h hnode).mpr hcode)

theorem betterPreemption_of_registered {betterSelectPolicies : List String} {policy : String}
    {resourceType : PodResourceType}
    (hselect : gs.betterSelectPoliciesRegistry state pod
      (preemptionPolicy betterSelectPolicies policy) = some select)
    (htype : gs.getPodResourceType state = some resourceType) (cached : CachedNominatedNodes)
    (schedules : ℕ → List ℕ) :
    gs.betterPreemption state pod betterSelectPolicies policy nodesList cached schedules =
      let found := gs.nominate state pod select resourceType nodesList cached.expectedCount
        schedules
      { handed := (List.range nodesList.length).flatMap fun i => (found.slots i).handed
        used := found.nominatedNodeIndex.map fun i => nodesList.getD i none
        result := gs.selectCandidates state pod nodesList found.nominatedNodeIndex } := by
  unfold betterPreemption
  dsimp only
  rw [hselect, htype]

variable (gs state pod)

/-- A rejected node is never handed to the filters, and no victims are selected on one, exactly if
nothing is searched at all, some priority is eligible, or the search always stops before. -/
theorem betterPreemption_safe_iff (betterSelectPolicies : List String) (policy : String)
    (preemptNodeCandidates : List SearchNode) (m : NodeToStatusMap)
    (nodesList : List (Option SearchNode)) (cached : CachedNominatedNodes)
    (h : prepareNodes preemptNodeCandidates m = .ok nodesList) :
    (∀ schedules, none ∉ (gs.betterPreemption state pod betterSelectPolicies policy nodesList cached
        schedules).handed ∧
      none ∉ (gs.betterPreemption state pod betterSelectPolicies policy nodesList cached
        schedules).used) ↔
    gs.betterSelectPoliciesRegistry state pod (preemptionPolicy betterSelectPolicies policy) =
        none ∨
      gs.getPodResourceType state = none ∨
      (∃ resourceType, gs.getPodResourceType state = some resourceType ∧
        prioritiesSlice pod resourceType nodesList ≠ []) ∨
      gs.StopsBeforeRejected state pod preemptNodeCandidates m nodesList cached.expectedCount := by
  cases hselect : gs.betterSelectPoliciesRegistry state pod
    (preemptionPolicy betterSelectPolicies policy) with
  | none => simp [betterPreemption, hselect]
  | some select =>
    cases htype : gs.getPodResourceType state with
    | none => simp [betterPreemption, hselect, htype]
    | some resourceType =>
      simp only [betterPreemption_of_registered hselect htype, reduceCtorEq, Option.some.injEq,
        exists_eq_left', false_or]
      by_cases hnone : prioritiesSlice pod resourceType nodesList = []
      · rw [stopsBeforeRejected_iff h, ← tryNodes_nilFree_iff]
        simp only [nominate, hnone, if_true, ne_eq, not_true_eq_false, false_or]
        constructor
        · intro hsafe schedule i hmem
          rcases lt_or_ge i nodesList.length with hi | hi
          · exact (hsafe fun _ => schedule).1
              (mem_flatMap.mpr ⟨i, mem_range.mpr hi, hmem⟩)
          · rw [tryNodes_handed_of_le hi] at hmem
            cases hmem
        · intro hsafe schedules
          refine ⟨fun hmem => ?_, fun hmem => ?_⟩
          · obtain ⟨i, -, hi⟩ := mem_flatMap.mp hmem
            exact hsafe (schedules 0) i hi
          · obtain ⟨i, hi, hnil⟩ := mem_map.mp hmem
            exact tryNodes_used (hsafe (schedules 0)) i hi hnil
      · refine iff_of_true (fun schedules => ?_) (.inl hnone)
        have hclean : Clean nodesList _ _ := clean_of_registered hselect (some resourceType)
          (prioritiesSlice pod resourceType nodesList) cached.expectedCount schedules
        rw [nominate, if_neg hnone]
        refine ⟨fun hmem => ?_, fun hmem => ?_⟩
        · obtain ⟨i, -, hi⟩ := mem_flatMap.mp hmem
          exact (hclean.1 i).1 hi
        · obtain ⟨i, hi, hnil⟩ := mem_map.mp hmem
          exact hclean.2 i hi hnil

/-- A node with its name, and with the priorities kept by the last clone. -/
def namedNode (name : NodeName) (priorities : List ℤ) : SearchNode :=
  ⟨{ emptyNode 4 with node := some { name := name } }, PodInfoMaintainer.placed_new, priorities, []⟩

/-- The first node can not be helped by preemption. -/
def firstRejected : NodeToStatusMap :=
  (∅ : NodeToStatusMap).insert (some (nodeNamed "-1")) .unschedulableAndUnresolvable

/-- With an eligible priority the rejected node is passed over. -/
theorem rejected_node_passed_over :
    prepareNodes [namedNode (nodeNamed "-1") [], namedNode (nodeNamed "-2") [1]] firstRejected =
        .ok [none, some (namedNode (nodeNamed "-2") [1])] ∧
      ∀ schedules, none ∉ (hostPortScheduler.betterPreemption () (cpuPod "high" 5 1)
        ["Ascending"] "" [none, some (namedNode (nodeNamed "-2") [1])] {} schedules).handed := by
  have hprepare : prepareNodes
      [namedNode (nodeNamed "-1") [], namedNode (nodeNamed "-2") [1]] firstRejected =
        .ok [none, some (namedNode (nodeNamed "-2") [1])] := rfl
  refine ⟨hprepare, fun schedules => ?_⟩
  refine ((betterPreemption_safe_iff hostPortScheduler () (cpuPod "high" 5 1) ["Ascending"] ""
    _ firstRejected _ {} hprepare).mpr ?_ schedules).1
  exact .inr (.inr (.inl ⟨.guaranteed, rfl, by decide⟩))

/-- Without an eligible priority the empty entry of the rejected node is handed to the filters. -/
theorem rejected_node_filtered :
    prepareNodes [namedNode (nodeNamed "-1") [], namedNode (nodeNamed "-2") []] firstRejected =
        .ok [none, some (namedNode (nodeNamed "-2") [])] ∧
      none ∈ (hostPortScheduler.betterPreemption () (cpuPod "high" 5 1) ["Ascending"] ""
        [none, some (namedNode (nodeNamed "-2") [])] {} fun _ => []).handed := by
  have hnil : (hostPortScheduler.betterPreemption () (cpuPod "high" 5 1) ["Ascending"] ""
      [none, some (namedNode (nodeNamed "-2") [])] {} fun _ => []).handed.any Option.isNone =
        true := by decide
  obtain ⟨entry, hmem, hnone⟩ := any_eq_true.mp hnil
  exact ⟨rfl, Option.isNone_iff_eq_none.mp hnone ▸ hmem⟩

end

end PodScheduler

end GodelScheduler.Preemption
