import GodelScheduler.Preemption.PrioritySearch

/-!
# Victim priorities in ascending order

The rounds go through the priorities from the lowest one on. A node that fails a round goes
on to the next one with the filters it has passed for good left out, and a node that fits
is not looked at again. The search ends after the round in which enough nodes were found.

If one node is enough, the search ends with the lowest priority at which a node accepts the
preemptor, and with nodes that accept it there (`ascendingOrderPreemption_finds`).
-/

namespace GodelScheduler.Preemption

open Library List

namespace PodScheduler

variable {σ ψ υ : Type} (gs : PodScheduler σ ψ υ) (state : σ) (pod : Pod)
  (resourceType : Option PodResourceType)

/-- One node in one round: its slot, and whether the node was selected. -/
def ascendingCheckNode (previousPriority priority : ℤ) (slot : Slot σ ψ) : Slot σ ψ × Bool :=
  match slot.nodeInfo with
  | none => (slot, false)
  | some nodeInfo =>
    if slot.preemptionState.isNone && !gs.passesOccupiableResourcesCheck pod resourceType nodeInfo
    then ({ slot with nodeInfo := none }, false)
    else
      let (preemptionState, potentialVictims) :=
        gs.searchSlot state pod previousPriority priority slot nodeInfo
      let w := gs.removeVictims pod ⟨slot.state.getD state, nodeInfo⟩ potentialVictims
      let (fits, statusMap) :=
        podPassesFiltersOnNode gs.framework w.state pod (some w.node) slot.skipPlugins
      -- the state is cloned with the first victims, and shared by all nodes before
      let slot : Slot σ ψ :=
        { slot with
          nodeInfo := some w.node
          state := if potentialVictims = [] then slot.state else some w.state
          preemptionState := some preemptionState
          handed := slot.handed ++ [some w.node] }
      if fits then ({ slot with nodeInfo := none }, true)
      else ({ slot with skipPlugins := slot.skipPlugins ++ skippable statusMap }, false)

/-- The rounds from a priority on. The index of the priority is set by the first node selected. -/
def ascendingRounds (pieces : ℕ) (expectedCount : ℤ) (schedules : ℕ → List ℕ) :
    List ℤ → ℕ → ℤ → SearchResult σ ψ → SearchResult σ ψ
  | [], _, _, result => result
  | priority :: rest, priorityIndex, previousPriority, result =>
    let r := Round.run (gs.ascendingCheckNode state pod resourceType previousPriority priority)
      expectedCount (schedules priorityIndex) searchWorkers pieces
      ⟨result.slots, result.nominatedNodeIndex, false⟩
    let firstPriorityIndex : ℤ :=
      if result.maxVictimPriorityIndex < 0 ∧
        result.nominatedNodeIndex.length < r.selected.length then priorityIndex
      else result.maxVictimPriorityIndex
    let result : SearchResult σ ψ := ⟨r.selected, firstPriorityIndex, r.slots⟩
    if r.stop then result
    else ascendingRounds pieces expectedCount schedules rest (priorityIndex + 1) priority result

def ascendingOrderPreemption (prioritiesSlice : List ℤ) (nodesList : List (Option SearchNode))
    (expectedCount : ℤ) (schedules : ℕ → List ℕ) : SearchResult σ ψ :=
  gs.ascendingRounds state pod resourceType nodesList.length expectedCount schedules
    prioritiesSlice 0 minInt64 ⟨[], -1, newSlots nodesList⟩

section

/-- A node that has not been selected: it was dropped by the check of its resources, or it holds
what the last round left, and the filters that are left out accept the preemptor. -/
def AscendingSlot (node : Option SearchNode) (previous : Option ℤ) (slot : Slot σ ψ) : Prop :=
  (slot.nodeInfo = none ∧
      ∀ n ∈ node, gs.passesOccupiableResourcesCheck pod resourceType n = false) ∨
    ∃ n, node = some n ∧ gs.AtLevel state pod n previous slot ∧
      (previous ≠ none → gs.passesOccupiableResourcesCheck pod resourceType n = true) ∧
      (gs.level state pod n previous).2.Skips gs.framework pod slot.skipPlugins

variable {gs state pod resourceType} {node : Option SearchNode} {previous : Option ℤ} {priority : ℤ}
  {slot : Slot σ ψ}

theorem AtLevel.isNone_preemptionState {n : SearchNode} (h : gs.AtLevel state pod n previous slot) :
    slot.preemptionState.isNone = true ↔ previous = none := by
  rw [h.preemptionState]
  cases previous <;> simp [level]

/-- A node is selected exactly if it accepts the preemptor, and goes on to the next round
otherwise. -/
theorem AscendingSlot.checkNode (h : gs.AscendingSlot state pod resourceType node previous slot)
    (hprev : Precedes previous priority)
    (hsearch : ∀ n ∈ node, gs.Searchable state pod n) :
    let r := gs.ascendingCheckNode state pod resourceType (previous.getD minInt64) priority slot
    r.2 = node.any (fun n => gs.accepts state pod resourceType n priority) ∧
      (r.2 = false → gs.AscendingSlot state pod resourceType node (some priority) r.1) := by
  rcases h with ⟨hnil, hdropped⟩ | ⟨n, rfl, hlevel, hpassed, hskips⟩
  · have hnone : node.any (fun n => gs.accepts state pod resourceType n priority) = false := by
      cases node with
      | none => rfl
      | some n => simp [accepts, hdropped n rfl]
    unfold ascendingCheckNode
    rw [hnil, hnone]
    exact ⟨rfl, fun _ => .inl ⟨hnil, hdropped⟩⟩
  · have hfirst := hlevel.isNone_preemptionState
    have hdrop := dropped_eq state hfirst.mp fun h => hpassed fun hnone => by
      rw [hfirst.mpr hnone] at h
      cases h
    obtain ⟨potentialVictims, hfound, hw⟩ := hlevel.searchSlot (hsearch n rfl).prepares hprev
    unfold ascendingCheckNode
    simp only [hlevel.node, hfound, hw, hdrop]
    cases hpassed : gs.passesOccupiableResourcesCheck pod resourceType n with
    | false =>
      refine ⟨by simp [accepts, hpassed], fun _ => .inl ⟨rfl, ?_⟩⟩
      rintro _ ⟨⟩
      exact hpassed
    | true =>
      have hstate : (if potentialVictims = [] then slot.state
          else some (gs.reached state pod n priority).2.state).getD state =
            (gs.reached state pod n priority).2.state := by
        split_ifs with hvictims
        · rw [← hw, hvictims]
          rfl
        · rfl
      have hskips' := (hsearch n rfl).skips hprev hskips
      have hmore := World.skips_skippable gs.framework pod (gs.reached state pod n priority).2
        slot.skipPlugins
      rw [Option.any_some, accepts_eq _ hpassed hskips']
      generalize podPassesFiltersOnNode gs.framework (gs.reached state pod n priority).2.state pod
        (some (gs.reached state pod n priority).2.node) slot.skipPlugins = answer at hmore ⊢
      obtain ⟨fits, statusMap⟩ := answer
      cases fits with
      | true => exact ⟨rfl, fun h => by cases h⟩
      | false =>
        refine ⟨rfl, fun _ => .inr ⟨n, rfl, ⟨rfl, hstate, rfl⟩,
          fun _ => hpassed, hskips'.append hmore⟩⟩

end

section

variable {gs state pod resourceType} {nodesList : List (Option SearchNode)}

theorem precedes_getLast? {earlier rest : List ℤ} {priority : ℤ}
    (hascending : (earlier ++ priority :: rest).Pairwise (· ≤ ·))
    (hint64 : ∀ q ∈ earlier ++ priority :: rest, minInt64 ≤ q) :
    Precedes earlier.getLast? priority := by
  intro q hq
  have hmem : q ∈ earlier := mem_of_getLast? hq
  exact ⟨hint64 q (mem_append_left _ hmem),
    (pairwise_append.mp hascending).2.2 q hmem priority mem_cons_self⟩

theorem ascendingSlot_newSlots (i : ℕ) :
    gs.AscendingSlot state pod resourceType (nodesList.getD i none) none
      (newSlots nodesList i) := by
  cases hnode : nodesList.getD i none with
  | none =>
    refine .inl ⟨hnode, ?_⟩
    rintro _ ⟨⟩
  | some n =>
    refine .inr ⟨n, rfl, ⟨hnode, rfl, rfl⟩, fun h => absurd rfl h, ?_⟩
    intro pl hpl hskip
    cases hskip

variable (hsearch : ∀ n, some n ∈ nodesList → gs.Searchable state pod n)
include hsearch

theorem ascending_round {slots : ℕ → Slot σ ψ} {previous : Option ℤ} {priority : ℤ}
    (hslots : ∀ i < nodesList.length, gs.AscendingSlot state pod resourceType
      (nodesList.getD i none) previous (slots i))
    (hprev : Precedes previous priority) (schedule : List ℕ) :
    let r := Round.run (gs.ascendingCheckNode state pod resourceType (previous.getD minInt64)
      priority) 1 schedule searchWorkers nodesList.length ⟨slots, [], false⟩
    (r.stop = true ∧ r.selected ≠ [] ∧
        ∀ i ∈ r.selected, gs.nodeAccepts state pod resourceType nodesList priority i = true) ∨
      (r.stop = false ∧ r.selected = [] ∧
        (∀ i, gs.nodeAccepts state pod resourceType nodesList priority i = false) ∧
        ∀ i < nodesList.length, gs.AscendingSlot state pod resourceType
          (nodesList.getD i none) (some priority) (r.slots i)) := by
  have hvisit : ∀ i < nodesList.length, _ := fun i hi =>
    (hslots i hi).checkNode hprev fun n hn => hsearch n (mem_of_getD hn)
  obtain ⟨-, hstop, haccept, hnone⟩ := Round.run_one_spec
    (gs.ascendingCheckNode state pod resourceType (previous.getD minInt64) priority) schedule
    (show 0 < searchWorkers by decide) nodesList.length slots fun i hi => (hvisit i hi).1
  dsimp only at *
  generalize Round.run _ _ _ _ _ _ = r at *
  by_cases hnil : r.selected = []
  · have hreject := nodeAccepts_eq_false fun i hi => (hnone hnil i hi).1
    refine .inr ⟨Bool.eq_false_iff.mpr fun hset => hstop.mp hset hnil, hnil, hreject,
      fun i hi => ?_⟩
    rw [(hnone hnil i hi).2]
    exact (hvisit i hi).2 ((hvisit i hi).1.trans (hreject i))
  · exact .inl ⟨hstop.mpr hnil, hnil, haccept⟩

theorem ascendingRounds_finds (schedules : ℕ → List ℕ) (earlier rest : List ℤ)
    (hascending : (earlier ++ rest).Pairwise (· ≤ ·)) (hint64 : ∀ q ∈ earlier ++ rest, minInt64 ≤ q)
    {slots : ℕ → Slot σ ψ}
    (hslots : ∀ i < nodesList.length, gs.AscendingSlot state pod resourceType
      (nodesList.getD i none) earlier.getLast? (slots i))
    (hreject : ∀ q ∈ earlier, ∀ i, gs.nodeAccepts state pod resourceType nodesList q i = false) :
    gs.Finds state pod resourceType (earlier ++ rest) nodesList
      (gs.ascendingRounds state pod resourceType nodesList.length 1 schedules rest earlier.length
        (earlier.getLast?.getD minInt64) ⟨[], -1, slots⟩) := by
  induction rest generalizing earlier slots with
  | nil =>
    rw [append_nil]
    exact .inl ⟨rfl, rfl, hreject⟩
  | cons priority rest ih =>
    have hprev := precedes_getLast? hascending hint64
    have hround := ascending_round hsearch hslots hprev (schedules earlier.length)
    rw [ascendingRounds]
    dsimp only at hround ⊢
    generalize Round.run _ _ _ _ _ _ = r at hround ⊢
    rcases hround with ⟨hstop, hne, haccept⟩ | ⟨hstop, hnil, hnone, hnext⟩
    · have hlength := length_pos_iff.mpr hne
      rw [if_pos hstop, if_pos ⟨by decide, hlength⟩]
      exact .inr ⟨earlier, priority, rest, rfl, rfl, hne, haccept, hreject⟩
    · rw [if_neg (by simp [hstop]), hnil, if_neg (by simp)]
      rw [append_cons] at hascending hint64 ⊢
      have hlast : (earlier ++ [priority]).getLast? = some priority := by simp
      have hrest := @ih (earlier ++ [priority]) hascending hint64 r.slots
        (by rwa [hlast]) (fun q hq => (mem_append.mp hq).elim (hreject q) fun hq =>
          mem_singleton.mp hq ▸ hnone)
      rw [hlast, length_append] at hrest
      exact hrest

/-- One round after the other finds the first priority at which a node accepts the preemptor. -/
theorem ascendingOrderPreemption_finds {prioritiesSlice : List ℤ}
    (hascending : prioritiesSlice.Pairwise (· ≤ ·))
    (hint64 : ∀ q ∈ prioritiesSlice, minInt64 ≤ q) (schedules : ℕ → List ℕ) :
    gs.Finds state pod resourceType prioritiesSlice nodesList
      (gs.ascendingOrderPreemption state pod resourceType prioritiesSlice nodesList 1 schedules) :=
  ascendingRounds_finds hsearch schedules [] prioritiesSlice hascending hint64
    (fun i _ => ascendingSlot_newSlots i) (by simp)

end

end PodScheduler

end GodelScheduler.Preemption
