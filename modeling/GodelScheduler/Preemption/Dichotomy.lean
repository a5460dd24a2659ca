import GodelScheduler.Preemption.AscendingOrder

/-!
# Victim priorities by bisection

Each round looks at the middle one of the priorities that are left. If a node fits, the
nodes that failed are given up and the search goes on below; otherwise it goes on above,
with what the round left of the nodes.

A node that is given up fails at all lower priorities, since fewer pods on a node make no
filter reject the preemptor. If one node is enough and every node is prepared without an
error, the search therefore finds the same priority as the one in ascending order
(`dichotomy_agrees_with_ascending`).
-/

namespace GodelScheduler.Preemption

open Library List

structure Bisection (σ ψ : Type) where
  left : ℤ
  right : ℤ
  previousPriority : ℤ
  slots : ℕ → Slot σ ψ
  selectedNodeIndexSlice : List (List ℕ) := []
  firstMaxVictimPriorityIndex : ℤ := -1

section

variable (expectedCount : ℤ)

/-- Append the indexes that are not there yet, until there are enough. -/
def appendIndexes : List ℕ → List ℕ → List ℕ
  | [], order => order
  | index :: rest, order =>
    if index ∈ order then appendIndexes rest order
    else
      let order := order ++ [index]
      if expectedCount ≤ order.length then order else appendIndexes rest order

def orderIndexes : List (List ℕ) → List ℕ → List ℕ
  | [], order => order
  | selectedNodeIndex :: rest, order =>
    let order := appendIndexes expectedCount selectedNodeIndex order
    if expectedCount ≤ order.length then order else orderIndexes rest order

end

theorem orderIndexes_one (index : ℕ) (rest : List ℕ) (slices : List (List ℕ)) :
    orderIndexes 1 ((index :: rest) :: slices) [] = [index] := by
  simp [orderIndexes, appendIndexes]

namespace PodScheduler

variable {σ ψ υ : Type} (gs : PodScheduler σ ψ υ) (state : σ) (pod : Pod)
  (resourceType : Option PodResourceType)

/-- One node in one round. Nothing is kept of a node that fits. -/
def dichotomyCheckNode (previousPriority priority : ℤ) (slot : Slot σ ψ) : Slot σ ψ × Bool :=
  match slot.nodeInfo with
  | none => (slot, false)
  | some nodeInfo =>
    if slot.state.isNone && !gs.passesOccupiableResourcesCheck pod resourceType nodeInfo
    then ({ slot with nodeInfo := none }, false)
    else
      let (preemptionState, potentialVictims) :=
        gs.searchSlot state pod previousPriority priority slot nodeInfo
      let w := gs.removeVictims pod ⟨slot.state.getD state, nodeInfo⟩ potentialVictims
      let (fits, statusMap) := podPassesFiltersOnNode gs.framework w.state pod (some w.node) []
      let slot : Slot σ ψ :=
        { slot with
          state := some (slot.state.getD state)
          handed := slot.handed ++ [some w.node] }
      if fits then (slot, true)
      else
        ({ slot with
          nodeInfo := some w.node
          state := some w.state
          preemptionState := some preemptionState
          skipPlugins := slot.skipPlugins ++ skippable statusMap
          failed := true }, false)

def clearFailed (slots : ℕ → Slot σ ψ) : ℕ → Slot σ ψ := fun i =>
  { slots i with failed := false }

def dropFailed (slots : ℕ → Slot σ ψ) : ℕ → Slot σ ψ := fun i =>
  if (slots i).failed then { slots i with nodeInfo := none, skipPlugins := [] } else slots i

def dichotomyRound (prioritiesSlice : List ℤ) (pieces : ℕ) (expectedCount : ℤ)
    (schedules : ℕ → List ℕ) (b : Bisection σ ψ) : Bisection σ ψ :=
  let mid := (b.left + b.right) / 2
  let priority := prioritiesSlice.getD mid.toNat 0
  let r := Round.run (gs.dichotomyCheckNode state pod resourceType b.previousPriority priority)
    expectedCount (schedules mid.toNat) searchWorkers pieces ⟨clearFailed b.slots, [], false⟩
  if r.selected ≠ [] then
    { b with
      right := mid - 1
      slots := dropFailed r.slots
      selectedNodeIndexSlice := b.selectedNodeIndexSlice ++ [r.selected]
      firstMaxVictimPriorityIndex := mid }
  else { b with left := mid + 1, previousPriority := priority, slots := r.slots }

/-- The rounds, of which there are at most as many as priorities. -/
def dichotomyRounds (prioritiesSlice : List ℤ) (pieces : ℕ) (expectedCount : ℤ)
    (schedules : ℕ → List ℕ) : ℕ → Bisection σ ψ → Bisection σ ψ
  | 0, b => b
  | fuel + 1, b =>
    if b.left ≤ b.right then
      dichotomyRounds prioritiesSlice pieces expectedCount schedules fuel
        (gs.dichotomyRound state pod resourceType prioritiesSlice pieces expectedCount schedules b)
    else b

def dichotomyPreemption (prioritiesSlice : List ℤ) (nodesList : List (Option SearchNode))
    (expectedCount : ℤ) (schedules : ℕ → List ℕ) : SearchResult σ ψ :=
  let b := gs.dichotomyRounds state pod resourceType prioritiesSlice nodesList.length expectedCount
    schedules prioritiesSlice.length
    { left := 0
      right := prioritiesSlice.length - 1
      previousPriority := minInt64
      slots := newSlots nodesList }
  ⟨orderIndexes expectedCount b.selectedNodeIndexSlice.reverse [], b.firstMaxVictimPriorityIndex,
    b.slots⟩

variable {slots : ℕ → Slot σ ψ} {i : ℕ}

section

/-- A node that was given up rejects the preemptor at the priorities that are left; any other node
holds what the last round without a fit left. -/
def DichotomySlot (node : Option SearchNode) (previous : Option ℤ) (undecided : List ℤ)
    (slot : Slot σ ψ) : Prop :=
  (slot.nodeInfo = none ∧ ∀ n ∈ node, ∀ q ∈ undecided,
      gs.accepts state pod resourceType n q = false) ∨
    ∃ n, node = some n ∧ gs.AtLevel state pod n previous slot ∧
      (slot.state.isSome = true → gs.passesOccupiableResourcesCheck pod resourceType n = true) ∧
      (slot.state = none → previous = none)

variable {gs state pod resourceType} {node : Option SearchNode} {previous : Option ℤ} {priority : ℤ}
  {undecided : List ℤ} {slot : Slot σ ψ}

theorem DichotomySlot.subset {undecided' : List ℤ}
    (h : gs.DichotomySlot state pod resourceType node previous undecided slot)
    (hsub : undecided' ⊆ undecided) :
    gs.DichotomySlot state pod resourceType node previous undecided' slot :=
  h.imp (fun h => ⟨h.1, fun n hn q hq => h.2 n hn q (hsub hq)⟩) id

/-- A node is selected exactly if it accepts the preemptor, and is then as before; otherwise it is
at the next level or given up. -/
theorem DichotomySlot.checkNode
    (h : gs.DichotomySlot state pod resourceType node previous undecided slot)
    (hpriority : priority ∈ undecided) (hprev : Precedes previous priority)
    (hsearch : ∀ n ∈ node, gs.Searchable state pod n) :
    let r := gs.dichotomyCheckNode state pod resourceType (previous.getD minInt64) priority slot
    r.2 = node.any (fun n => gs.accepts state pod resourceType n priority) ∧
      (r.2 = true → r.1.failed = slot.failed ∧
        gs.DichotomySlot state pod resourceType node previous undecided r.1) ∧
      (r.2 = false → (r.1.nodeInfo = none ∨ r.1.failed = true) ∧
        gs.DichotomySlot state pod resourceType node (some priority) undecided r.1) := by
  rcases h with ⟨hnil, hrejects⟩ | ⟨n, rfl, hlevel, hpassed, hfirst⟩
  · have hnone : node.any (fun n => gs.accepts state pod resourceType n priority) = false := by
      cases node with
      | none => rfl
      | some n => exact hrejects n rfl priority hpriority
    unfold dichotomyCheckNode
    rw [hnil, hnone]
    exact ⟨rfl, (by intro h; cases h), fun _ => ⟨.inl hnil, .inl ⟨hnil, hrejects⟩⟩⟩
  · have hdrop := dropped_eq state (fun h : slot.state.isNone = true => hfirst (by simpa using h))
      fun h => hpassed (by simpa using h)
    obtain ⟨potentialVictims, hfound, hw⟩ := hlevel.searchSlot (hsearch n rfl).prepares hprev
    unfold dichotomyCheckNode
    simp only [hlevel.node, hfound, hw, hdrop]
    cases hpassed : gs.passesOccupiableResourcesCheck pod resourceType n with
    | false =>
      refine ⟨by simp [accepts, hpassed], (by intro h; cases h),
        fun _ => ⟨.inl rfl, .inl ⟨rfl, ?_⟩⟩⟩
      rintro _ ⟨⟩ q -
      simp [accepts, hpassed]
    | true =>
      rw [Option.any_some, accepts_eq [] hpassed fun _ _ h => by cases h]
      generalize podPassesFiltersOnNode gs.framework (gs.reached state pod n priority).2.state pod
        (some (gs.reached state pod n priority).2.node) [] = answer
      obtain ⟨fits, statusMap⟩ := answer
      cases fits with
      | true =>
        exact ⟨rfl, fun _ => ⟨rfl, .inr ⟨n, rfl, ⟨rfl, hlevel.worldState,
          hlevel.preemptionState⟩, fun _ => hpassed, fun h => by cases h⟩⟩, fun h => by cases h⟩
      | false =>
        exact ⟨rfl, (by intro h; cases h), fun _ => ⟨.inr rfl, .inr ⟨n, rfl, ⟨rfl, rfl, rfl⟩,
          fun _ => hpassed, fun h => by cases h⟩⟩⟩

theorem DichotomySlot.clearFailed
    (h : gs.DichotomySlot state pod resourceType node previous undecided (slots i)) :
    gs.DichotomySlot state pod resourceType node previous undecided (clearFailed slots i) :=
  h.imp id fun ⟨n, hn, hlevel, hpassed, hfirst⟩ =>
    ⟨n, hn, ⟨hlevel.node, hlevel.worldState, hlevel.preemptionState⟩, hpassed, hfirst⟩

end

section Search

/-- The last round with a fit looked at the first one of these priorities, which are above those
that are left. -/
def FoundAt (nodesList : List (Option SearchNode)) (b : Bisection σ ψ) (position : ℕ) :
    List ℤ → Prop
  | [] => b.selectedNodeIndexSlice = [] ∧ b.firstMaxVictimPriorityIndex = -1
  | priority :: _ => b.firstMaxVictimPriorityIndex = position ∧
      ∃ selected, b.selectedNodeIndexSlice.getLast? = some selected ∧ selected ≠ [] ∧
        ∀ i ∈ selected, gs.nodeAccepts state pod resourceType nodesList priority i = true

/-- The priorities are cut into those at which every node rejects the preemptor, those that are
left, and those at which some node accepts it. -/
structure Bisects (nodesList : List (Option SearchNode)) (earlier middle later : List ℤ)
    (b : Bisection σ ψ) : Prop where
  left : b.left = earlier.length
  right : b.right = earlier.length + middle.length - 1
  previousPriority : b.previousPriority = earlier.getLast?.getD minInt64
  slots : ∀ i < nodesList.length, gs.DichotomySlot state pod resourceType (nodesList.getD i none)
    earlier.getLast? middle (b.slots i)
  rejected : ∀ q ∈ earlier, ∀ i, gs.nodeAccepts state pod resourceType nodesList q i = false
  found : gs.FoundAt state pod resourceType nodesList b (earlier.length + middle.length) later

variable {gs state pod resourceType} {nodesList : List (Option SearchNode)}
  {earlier below above later : List ℤ} {priority : ℤ} {b : Bisection σ ψ}

/-- What a round with a fit leaves of a node that did not fit is given up. -/
theorem dropFailed_of_not_fits (h : (slots i).nodeInfo = none ∨ (slots i).failed = true) :
    (dropFailed slots i).nodeInfo = none := by
  unfold dropFailed
  split_ifs with hfailed
  · rfl
  · exact h.resolve_right hfailed

theorem dropFailed_of_not_failed (h : (slots i).failed = false) : dropFailed slots i = slots i := by
  rw [dropFailed, if_neg (by simp [h])]

theorem middle_eq (hbelow : below.length = (below.length + above.length) / 2)
    (h : gs.Bisects state pod resourceType nodesList earlier (below ++ priority :: above) later b) :
    (b.left + b.right) / 2 = earlier.length + below.length := by
  rw [h.left, h.right, length_append, length_cons]
  omega

theorem exists_middle {middle : List ℤ} (h : middle ≠ []) :
    ∃ below priority above, middle = below ++ priority :: above ∧
      below.length = (below.length + above.length) / 2 := by
  have hlength := length_pos_iff.mpr h
  refine ⟨middle.take ((middle.length - 1) / 2), middle[(middle.length - 1) / 2],
    middle.drop ((middle.length - 1) / 2 + 1), ?_, ?_⟩
  · rw [← drop_eq_getElem_cons, take_append_drop]
  · simp only [length_take, length_drop]
    omega

theorem dichotomySlot_newSlots (undecided : List ℤ) (i : ℕ) :
    gs.DichotomySlot state pod resourceType (nodesList.getD i none) none undecided
      (newSlots nodesList i) := by
  cases hnode : nodesList.getD i none with
  | none =>
    refine .inl ⟨hnode, ?_⟩
    rintro _ ⟨⟩
  | some n => exact .inr ⟨n, rfl, ⟨hnode, rfl, rfl⟩, nofun, fun _ => rfl⟩

section Monotone

variable (hsearch : ∀ n, some n ∈ nodesList → gs.Searchable state pod n)
include hsearch

theorem nodeAccepts_eq_false_of_le {q : ℤ} (hint64 : minInt64 ≤ q) (hle : q ≤ priority)
    (h : gs.nodeAccepts state pod resourceType nodesList priority i = false) :
    gs.nodeAccepts state pod resourceType nodesList q i = false := by
  unfold nodeAccepts at h ⊢
  cases hn : nodesList.getD i none with
  | none => rfl
  | some n =>
    rw [hn, Option.any_some, Bool.eq_false_iff] at h
    rw [Option.any_some, Bool.eq_false_iff]
    exact fun haccepts => h ((hsearch n (mem_of_getD hn)).accepts hint64 hle haccepts)

/-- The slots after a round, with the nodes that failed given up if one did fit. -/
theorem dichotomy_round {previous : Option ℤ}
    (hslots : ∀ i < nodesList.length, gs.DichotomySlot state pod resourceType
      (nodesList.getD i none) previous (below ++ priority :: above) (slots i))
    (hprev : Precedes previous priority) (hlower : ∀ q ∈ below, minInt64 ≤ q ∧ q ≤ priority)
    (schedule : List ℕ) :
    let r := Round.run (gs.dichotomyCheckNode state pod resourceType (previous.getD minInt64)
      priority) 1 schedule searchWorkers nodesList.length ⟨clearFailed slots, [], false⟩
    (r.selected ≠ [] ∧
        (∀ i ∈ r.selected, gs.nodeAccepts state pod resourceType nodesList priority i = true) ∧
        ∀ i < nodesList.length, gs.DichotomySlot state pod resourceType
          (nodesList.getD i none) previous below (dropFailed r.slots i)) ∨
      (r.selected = [] ∧ (∀ i, gs.nodeAccepts state pod resourceType nodesList priority i = false) ∧
        ∀ i < nodesList.length, gs.DichotomySlot state pod resourceType
          (nodesList.getD i none) (some priority) above (r.slots i)) := by
  have hsubBelow : below ⊆ below ++ priority :: above := subset_append_left ..
  have hsubAbove : above ⊆ below ++ priority :: above := fun q hq =>
    mem_append_right _ (mem_cons_of_mem _ hq)
  have hvisit : ∀ i < nodesList.length, _ := fun i hi => (hslots i hi).clearFailed.checkNode
    (mem_append_right _ mem_cons_self) hprev fun n hn => hsearch n (mem_of_getD hn)
  obtain ⟨hrslots, -, haccept, hnone⟩ := Round.run_one_spec
    (gs.dichotomyCheckNode state pod resourceType (previous.getD minInt64) priority) schedule
    (show 0 < searchWorkers by decide) nodesList.length (clearFailed slots)
    fun i hi => (hvisit i hi).1
  dsimp only at *
  generalize Round.run _ _ _ _ _ _ = r at *
  by_cases hnil : r.selected = []
  · have hreject := nodeAccepts_eq_false fun i hi => (hnone hnil i hi).1
    refine .inr ⟨hnil, hreject, fun i hi => ?_⟩
    obtain ⟨hfits, -, hfails⟩ := hvisit i hi
    rw [(hnone hnil i hi).2]
    exact (hfails (hfits.trans (hreject i))).2.subset hsubAbove
  · refine .inl ⟨hnil, haccept, fun i hi => ?_⟩
    obtain ⟨hfits, hkeeps, hfails⟩ := hvisit i hi
    rcases hrslots i with hslot | hslot
    swap
    · -- the node was not looked at
      rw [dropFailed_of_not_failed (by rw [hslot]; rfl), hslot]
      exact (hslots i hi).clearFailed.subset hsubBelow
    cases haccepts : gs.nodeAccepts state pod resourceType nodesList priority i with
    | true =>
      obtain ⟨hfailed, hkeeps⟩ := hkeeps (hfits.trans haccepts)
      rw [dropFailed_of_not_failed (by rw [hslot, hfailed]; rfl), hslot]
      exact hkeeps.subset hsubBelow
    | false =>
      refine .inl ⟨dropFailed_of_not_fits ?_, fun n hn q hq => ?_⟩
      · rw [hslot]
        exact (hfails (hfits.trans haccepts)).1
      · have hn : nodesList.getD i none = some n := hn
        have hlow := nodeAccepts_eq_false_of_le hsearch (hlower q hq).1 (hlower q hq).2 haccepts
        rwa [nodeAccepts, hn] at hlow

variable {prioritiesSlice : List ℤ} (hascending : prioritiesSlice.Pairwise (· ≤ ·))
  (hint64 : ∀ q ∈ prioritiesSlice, minInt64 ≤ q)
include hascending hint64

/-- A round cuts the priorities that are left at the middle one. -/
theorem Bisects.round (hslice : prioritiesSlice = earlier ++ (below ++ priority :: above) ++ later)
    (hbelow : below.length = (below.length + above.length) / 2) (schedules : ℕ → List ℕ)
    (h : gs.Bisects state pod resourceType nodesList earlier (below ++ priority :: above) later b) :
    let b' := gs.dichotomyRound state pod resourceType prioritiesSlice nodesList.length 1
      schedules b
    gs.Bisects state pod resourceType nodesList earlier below (priority :: above ++ later) b' ∨
      gs.Bisects state pod resourceType nodesList (earlier ++ below ++ [priority]) above later
        b' := by
  have hcut : prioritiesSlice = (earlier ++ below) ++ priority :: (above ++ later) := by
    simp [hslice]
  have hprevious : ∀ q ∈ earlier ++ below, minInt64 ≤ q ∧ q ≤ priority := fun q hq =>
    ⟨hint64 q (hcut ▸ mem_append_left _ hq),
      (pairwise_append.mp (hcut ▸ hascending)).2.2 q hq priority mem_cons_self⟩
  have hprev : Precedes earlier.getLast? priority := fun q hq =>
    hprevious q (mem_append_left _ (mem_of_getLast? hq))
  have hmid := middle_eq hbelow h
  have hpriority : prioritiesSlice.getD ((b.left + b.right) / 2).toNat 0 = priority := by
    rw [hmid, hcut, ← Nat.cast_add, Int.toNat_natCast, ← length_append,
      getD_eq_getElem?_getD]
    simp
  have hround := dichotomy_round hsearch h.slots hprev
    (fun q hq => hprevious q (mem_append_right _ hq))
    (schedules ((b.left + b.right) / 2).toNat)
  unfold dichotomyRound
  dsimp only at hround ⊢
  rw [hpriority, h.previousPriority]
  generalize Round.run _ _ _ _ _ _ = r at hround ⊢
  rcases hround with ⟨hne, haccept, hslots⟩ | ⟨hnil, hreject, hslots⟩
  · rw [if_pos hne]
    refine .inl ⟨h.left, ?_, rfl, hslots, h.rejected, ?_⟩
    · rw [hmid]
    · exact ⟨hmid, r.selected, List.getLast?_concat .., hne, haccept⟩
  · rw [if_neg (not_not.mpr hnil)]
    have hlast : (earlier ++ below ++ [priority]).getLast? = some priority :=
      List.getLast?_concat ..
    refine .inr ⟨?_, ?_, ?_, ?_, ?_, ?_⟩
    · rw [hmid, length_append, length_append, length_singleton]
      push_cast
      rfl
    · have hright := h.right
      simp only [length_append, length_cons, length_nil] at hright ⊢
      omega
    · rw [hlast]
      rfl
    · rwa [hlast]
    · intro q hq i
      rcases mem_append.mp hq with hq | hq
      · exact nodeAccepts_eq_false_of_le hsearch (hprevious q hq).1 (hprevious q hq).2 (hreject i)
      · exact mem_singleton.mp hq ▸ hreject i
    · have hfound := h.found
      have hposition : (earlier ++ below ++ [priority]).length + above.length =
          earlier.length + (below ++ priority :: above).length := by
        simp
        omega
      rw [hposition]
      exact hfound

variable (schedules : ℕ → List ℕ)

theorem Bisects.rounds {fuel : ℕ} {middle : List ℤ}
    (hslice : prioritiesSlice = earlier ++ middle ++ later) (hfuel : middle.length ≤ fuel)
    (h : gs.Bisects state pod resourceType nodesList earlier middle later b) :
    ∃ earlier' later', prioritiesSlice = earlier' ++ later' ∧
      gs.Bisects state pod resourceType nodesList earlier' [] later'
        (gs.dichotomyRounds state pod resourceType prioritiesSlice nodesList.length 1 schedules
          fuel b) := by
  induction fuel generalizing earlier middle later b with
  | zero =>
    obtain rfl := length_eq_zero_iff.mp (Nat.le_zero.mp hfuel)
    rw [append_nil] at hslice
    exact ⟨earlier, later, hslice, h⟩
  | succ fuel ih =>
    rw [dichotomyRounds]
    by_cases hnil : middle = []
    · subst hnil
      have hdone : ¬ b.left ≤ b.right := by
        rw [h.left, h.right, length_nil]
        omega
      rw [if_neg hdone]
      rw [append_nil] at hslice
      exact ⟨earlier, later, hslice, h⟩
    · obtain ⟨below, priority, above, rfl, hbelow⟩ := exists_middle hnil
      have hleft : b.left ≤ b.right := by
        rw [h.left, h.right, length_append, length_cons]
        omega
      rw [if_pos hleft]
      rw [length_append, length_cons] at hfuel
      rcases h.round hsearch hascending hint64 hslice hbelow schedules with h | h
      · exact ih (by simp [hslice]) (by omega) h
      · exact ih (by simp [hslice]) (by omega) h

/-- The bisection finds the first priority at which a node accepts the preemptor. -/
theorem dichotomyPreemption_finds :
    gs.Finds state pod resourceType prioritiesSlice nodesList
      (gs.dichotomyPreemption state pod resourceType prioritiesSlice nodesList 1 schedules) := by
  have hstart : gs.Bisects state pod resourceType nodesList [] prioritiesSlice []
      { left := 0
        right := prioritiesSlice.length - 1
        previousPriority := minInt64
        slots := newSlots nodesList } :=
    ⟨rfl, by simp, rfl, fun i _ => dichotomySlot_newSlots prioritiesSlice i, by simp, rfl, rfl⟩
  obtain ⟨earlier, later, hslice, h⟩ := hstart.rounds hsearch hascending hint64 schedules
    (by simp) le_rfl
  unfold dichotomyPreemption
  dsimp only
  generalize gs.dichotomyRounds state pod resourceType prioritiesSlice nodesList.length 1 schedules
    prioritiesSlice.length _ = b at h ⊢
  cases later with
  | nil =>
    obtain ⟨hselected, hfirst⟩ := h.found
    rw [append_nil] at hslice
    refine .inl ⟨?_, hfirst, hslice ▸ h.rejected⟩
    rw [hselected]
    rfl
  | cons priority later =>
    obtain ⟨hfirst, selected, hlast, hne, haccept⟩ := h.found
    obtain ⟨slices, hslices⟩ := List.getLast?_eq_some_iff.mp hlast
    obtain ⟨index, rest, rfl⟩ := exists_cons_of_ne_nil hne
    have horder : orderIndexes 1 b.selectedNodeIndexSlice.reverse [] = [index] := by
      rw [hslices, reverse_append]
      exact orderIndexes_one index rest slices.reverse
    refine .inr ⟨earlier, priority, later, hslice, hfirst, ?_, ?_, h.rejected⟩
    · rw [horder]
      simp
    · rw [horder]
      intro i hi
      exact haccept i (mem_singleton.mp hi ▸ mem_cons_self ..)

end Monotone

variable {prioritiesSlice : List ℤ} {result : SearchResult σ ψ}

/-- The indexes of the priorities at which some node accepts the preemptor. -/
def acceptingIndexes (gs : PodScheduler σ ψ υ) (state : σ) (pod : Pod)
    (resourceType : Option PodResourceType) (prioritiesSlice : List ℤ)
    (nodesList : List (Option SearchNode)) : Set ℕ :=
  {j : ℕ | ∃ priority i, prioritiesSlice[j]? = some priority ∧
    gs.nodeAccepts state pod resourceType nodesList priority i = true}

theorem Finds.isLeast (h : gs.Finds state pod resourceType prioritiesSlice nodesList result)
    (hne : result.nominatedNodeIndex ≠ []) :
    ∃ m, IsLeast (gs.acceptingIndexes state pod resourceType prioritiesSlice nodesList) m ∧
      result.maxVictimPriorityIndex = m ∧
      ∃ priority, prioritiesSlice[m]? = some priority ∧ ∀ i ∈ result.nominatedNodeIndex,
        gs.nodeAccepts state pod resourceType nodesList priority i = true := by
  obtain ⟨earlier, priority, later, hslice, hindex, -, haccepts, hrejected⟩ :=
    h.resolve_left fun hnone => hne hnone.1
  have hat : prioritiesSlice[earlier.length]? = some priority := by simp [hslice]
  refine ⟨earlier.length, ⟨?_, ?_⟩, hindex, priority, hat, haccepts⟩
  · obtain ⟨i, hi⟩ := exists_mem_of_ne_nil _ hne
    exact ⟨priority, i, hat, haccepts i hi⟩
  · rintro j ⟨q, i, hj, hq⟩
    by_contra hlt
    rw [hslice, List.getElem?_append_left (not_le.mp hlt)] at hj
    rw [hrejected q (mem_of_getElem? hj) i] at hq
    cases hq

theorem Finds.acceptingIndexes_eq_empty
    (h : gs.Finds state pod resourceType prioritiesSlice nodesList result)
    (hnil : result.nominatedNodeIndex = []) :
    result.maxVictimPriorityIndex = -1 ∧
      gs.acceptingIndexes state pod resourceType prioritiesSlice nodesList = ∅ := by
  rcases h with ⟨-, hindex, hnone⟩ | ⟨-, -, -, -, -, hne, -⟩
  · refine ⟨hindex, Set.eq_empty_iff_forall_notMem.mpr ?_⟩
    rintro j ⟨q, i, hj, hq⟩
    rw [hnone q (mem_of_getElem? hj) i] at hq
    cases hq
  · exact absurd hnil hne

variable (gs state pod resourceType)

/-- On nodes that are prepared without an error, both orders find no node, or they report the same
index, the least one whose priority makes a node accept the preemptor, with nodes that accept it
there. -/
theorem dichotomy_agrees_with_ascending (prioritiesSlice : List ℤ)
    (nodesList : List (Option SearchNode)) (linear binary : ℕ → List ℕ)
    (hprepares : ∀ n, some n ∈ nodesList → gs.Prepares state pod n)
    (hmono : ∀ n, some n ∈ nodesList → gs.MonotoneUnderRemoval pod ⟨state, n⟩)
    (hascending : prioritiesSlice.Pairwise (· ≤ ·))
    (hint64 : ∀ q ∈ prioritiesSlice, minInt64 ≤ q) :
    let ascending := gs.ascendingOrderPreemption state pod resourceType prioritiesSlice nodesList 1
      linear
    let dichotomy := gs.dichotomyPreemption state pod resourceType prioritiesSlice nodesList 1
      binary
    (ascending.nominatedNodeIndex = [] ∧ dichotomy.nominatedNodeIndex = [] ∧
        ascending.maxVictimPriorityIndex = -1 ∧ dichotomy.maxVictimPriorityIndex = -1 ∧
        gs.acceptingIndexes state pod resourceType prioritiesSlice nodesList = ∅) ∨
      ∃ m, IsLeast (gs.acceptingIndexes state pod resourceType prioritiesSlice nodesList) m ∧
        ascending.maxVictimPriorityIndex = m ∧ dichotomy.maxVictimPriorityIndex = m ∧
        ascending.nominatedNodeIndex ≠ [] ∧ dichotomy.nominatedNodeIndex ≠ [] ∧
        ∃ priority, prioritiesSlice[m]? = some priority ∧
          ∀ i ∈ ascending.nominatedNodeIndex ++ dichotomy.nominatedNodeIndex,
            gs.nodeAccepts state pod resourceType nodesList priority i = true := by
  intro ascending dichotomy
  have hsearch : ∀ n, some n ∈ nodesList → gs.Searchable state pod n := fun n hn =>
    ⟨hprepares n hn, hmono n hn⟩
  have hlinear : gs.Finds state pod resourceType prioritiesSlice nodesList ascending :=
    ascendingOrderPreemption_finds hsearch hascending hint64 linear
  have hbinary : gs.Finds state pod resourceType prioritiesSlice nodesList dichotomy :=
    dichotomyPreemption_finds hsearch hascending hint64 binary
  by_cases hnil : ascending.nominatedNodeIndex = []
  · obtain ⟨hindex, hempty⟩ := hlinear.acceptingIndexes_eq_empty hnil
    have hnil' : dichotomy.nominatedNodeIndex = [] := by
      by_contra hne
      obtain ⟨m, hm, -⟩ := hbinary.isLeast hne
      exact (hempty ▸ hm.1 : m ∈ (∅ : Set ℕ))
    exact .inl ⟨hnil, hnil', hindex, (hbinary.acceptingIndexes_eq_empty hnil').1, hempty⟩
  · obtain ⟨m, hm, hindex, priority, hat, haccepts⟩ := hlinear.isLeast hnil
    have hne : dichotomy.nominatedNodeIndex ≠ [] := by
      intro hnil'
      exact ((hbinary.acceptingIndexes_eq_empty hnil').2 ▸ hm.1 : m ∈ (∅ : Set ℕ))
    obtain ⟨m', hm', hindex', priority', hat', haccepts'⟩ := hbinary.isLeast hne
    obtain rfl := hm.unique hm'
    obtain rfl := Option.some.inj (hat.symm.trans hat')
    refine .inr ⟨m, hm, hindex, hindex', hnil, hne, priority, hat, fun i hi => ?_⟩
    exact (mem_append.mp hi).elim (haccepts i) (haccepts' i)

end Search

section

theorem pods_removePod (gs : PodScheduler σ ψ υ) (pod : Pod) (w : World σ) (rp : Pod) :
    (removePod gs.gates gs.orders gs.framework pod w rp).1.node.pods ⊆ w.node.pods := by
  rcases removePod_cases gs pod w rp with hsame | ⟨p, node, hp, hnode, hpods, -⟩
  · rw [hsame]
    exact List.Subset.refl _
  · intro q hq
    have hq :
        q ∈ (removePod gs.gates gs.orders gs.framework pod w rp).1.node.podInfoMaintainer.pods :=
      hq
    rw [hnode, hpods] at hq
    exact (w.node.placed.perm_pods_removePodInfo hp).mem_iff.mpr (mem_cons_of_mem _ hq)

theorem monotoneUnderRemoval_hostPort (pod : Pod) (w₀ : World Unit) :
    hostPortScheduler.MonotoneUnderRemoval pod w₀ := by
  intro gone rp pl hpl w w' haccepts
  obtain rfl := mem_singleton.mp hpl
  have hsub : w'.node.pods ⊆ w.node.pods := pods_removePod hostPortScheduler pod w rp
  simp only [FilterPlugin.Accepts, hostPortFilter, Option.map_some, Option.getD_some,
    any_eq_true, ite_eq_right_iff, reduceCtorEq, imp_false, not_exists, not_and]
    at haccepts ⊢
  exact fun p hp => haccepts p (hsub hp)

/-- A node with the host port taken by a pod of the priority. -/
def portNode (priority : ℤ) : SearchNode :=
  SearchNode.addPod NodeResources.allGates .forward
    ⟨emptyNode 4, PodInfoMaintainer.placed_new, [], []⟩ (cpuPod "port" priority 1)

/-- The port is free first on the node with the pod of priority 2. -/
theorem search_portNodes :
    let ascending := hostPortScheduler.ascendingOrderPreemption () (cpuPod "high" 5 1)
      (some .guaranteed) [1, 2, 3] [some (portNode 3), none, some (portNode 2)] 1 fun _ => []
    let dichotomy := hostPortScheduler.dichotomyPreemption () (cpuPod "high" 5 1)
      (some .guaranteed) [1, 2, 3] [some (portNode 3), none, some (portNode 2)] 1 fun _ => []
    ascending.nominatedNodeIndex = [2] ∧ dichotomy.nominatedNodeIndex = [2] ∧
      IsLeast (hostPortScheduler.acceptingIndexes () (cpuPod "high" 5 1) (some .guaranteed)
        [1, 2, 3] [some (portNode 3), none, some (portNode 2)]) 1 ∧
      ascending.maxVictimPriorityIndex = 1 ∧ dichotomy.maxVictimPriorityIndex = 1 := by
  intro ascending dichotomy
  have hascending : ascending.nominatedNodeIndex = [2] := by decide
  have hdichotomy : dichotomy.nominatedNodeIndex = [2] := by decide
  have hindex : ascending.maxVictimPriorityIndex = 1 := by decide
  rcases dichotomy_agrees_with_ascending hostPortScheduler () (cpuPod "high" 5 1)
    (some .guaranteed) [1, 2, 3] [some (portNode 3), none, some (portNode 2)] (fun _ => [])
    (fun _ => []) (fun _ _ => rfl) (fun n _ => monotoneUnderRemoval_hostPort _ _) (by decide)
    (by decide) with
    ⟨hnil, -⟩ | ⟨m, hm, hindex', hindex'', -⟩
  · rw [hnil] at hascending
    cases hascending
  · obtain rfl : m = 1 := by
      have heq : ((m : ℕ) : ℤ) = 1 := hindex'.symm.trans hindex
      omega
    exact ⟨hascending, hdichotomy, hm, hindex', hindex''⟩

/-- A plugin returns an error for every node. -/
def unpreparedScheduler : PodScheduler Unit Unit Unit :=
  { hostPortScheduler with
    preemptionFramework :=
      { hostPortScheduler.preemptionFramework with
        nodePrePreemptingPlugins := [fun _ _ _ preemptionState => (preemptionState, false)] } }

/-- The error costs a node the victims of its first round. This is the round of priority 1 in
ascending order, but that of priority 2 in the bisection, which then misses the node. -/
theorem bisection_misses_unprepared :
    let pod := cpuPod "high" 5 1
    let nodesList := [some (portNode 2)]
    (∀ w₀, unpreparedScheduler.MonotoneUnderRemoval pod w₀) ∧
      (unpreparedScheduler.ascendingOrderPreemption () pod (some .guaranteed) [1, 2, 3] nodesList 1
        fun _ => []).maxVictimPriorityIndex = 1 ∧
      (unpreparedScheduler.dichotomyPreemption () pod (some .guaranteed) [1, 2, 3] nodesList 1
        fun _ => []).maxVictimPriorityIndex = -1 := by
  refine ⟨fun w₀ => monotoneUnderRemoval_hostPort _ w₀, ?_, ?_⟩
  · decide
  · decide

end

end PodScheduler

end GodelScheduler.Preemption
