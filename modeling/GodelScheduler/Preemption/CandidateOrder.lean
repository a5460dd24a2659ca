import GodelScheduler.Preemption.SelectVictims

/-!
# Candidates by their highest victim

`MinHighestPriority` compares two candidates by the priorities of their first victims.
Victims are found from the highest priority down, except that the pods let through by a
quick pass only are all tried before the others. The first victim of a candidate is
therefore the highest of these, if one of them is a victim, and the highest of all
otherwise (`head_eq_leading`); a higher victim behind it is overlooked. The comparison is
right about candidates that are led by their highest victims, and about no other candidate
(`compare_right_iff_ledByHighest`).
-/

namespace GodelScheduler.Preemption

open PodInfoMaintainer List

structure Candidate (ψ : Type) where
  name : Option NodeName
  victims : List Pod
  preemptionState : PreemptionState ψ
  deriving DecidableEq

/-- Compare the first victims; `none` where a candidate has none and the source panics. -/
def minHighestPriorityCompare {ψ : Type} (c1 c2 : Candidate ψ) : Option ℤ :=
  match c1.victims, c2.victims with
  | p1 :: _, p2 :: _ =>
    let highestPodPriority1 := p1.getPodPriority
    let highestPodPriority2 := p2.getPodPriority
    some (if highestPodPriority1 < highestPodPriority2 then 1
      else if highestPodPriority1 > highestPodPriority2 then -1
      else 0)
  | _, _ => none

section

def highestPriority (pods : List Pod) : Option ℤ := (pods.map Pod.getPodPriority).max?

def Descending (pods : List Pod) : Prop :=
  pods.Pairwise fun p q => q.getPodPriority ≤ p.getPodPriority

theorem Descending.highestPriority_cons {p : Pod} {rest : List Pod} (h : Descending (p :: rest)) :
    highestPriority (p :: rest) = some p.getPodPriority := by
  rw [highestPriority, List.max?_eq_some_iff]
  refine ⟨by simp, fun a ha => ?_⟩
  obtain ⟨q, hq, rfl⟩ := mem_map.mp ha
  rcases mem_cons.mp hq with rfl | hq
  · exact le_rfl
  · exact (pairwise_cons.mp h).1 q hq

end

section FirstVictim

variable {σ ψ υ : Type} {c : Candidate ψ}

/-- The candidate is a node with the victims selected on it. -/
def Produced (gs : PodScheduler σ ψ υ) (c : Candidate ψ) : Prop :=
  ∃ (pod : Pod) (state : σ) (nodeInfo : SearchNode), c.name = nodeInfo.getNodeName ∧
    gs.selectVictimsOnNode pod state gs.newPreemptionState nodeInfo =
      (c.preemptionState, some c.victims)

/-- The victims that were let through by a quick pass only. -/
def quickPassed (c : Candidate ψ) : List Pod :=
  c.victims.filter (canNotBePreempted c.preemptionState.podsCanNotBePreempted)

/-- The victims among which the first one is the highest. -/
def leading (c : Candidate ψ) : List Pod := if quickPassed c = [] then c.victims else quickPassed c

/-- Potential victims are found from the lowest priority up. -/
theorem ascending_filterVictimsPods (gs : PodScheduler σ ψ υ) (pod : Pod) (state : σ)
    (preemptionState : PreemptionState ψ) (nodeInfo : SearchNode) (lower upper : ℤ)
    (checked : Bool) :
    (gs.filterVictimsPods state pod preemptionState nodeInfo lower upper checked).2.Pairwise
      fun p q => p.getPodPriority ≤ q.getPodPriority := by
  rcases gs.filterVictimsPods_sublist state pod preemptionState nodeInfo lower upper checked with
    hnil | ⟨type, hsub⟩
  · rw [hnil]
    exact List.Pairwise.nil
  · refine List.Pairwise.sublist hsub (pairwise_map.mpr ?_)
    refine (sorted_getVictimCandidates nodeInfo.podInfoMaintainer lower
      upper).imp_of_mem fun {a b} ha hb hab => ?_
    obtain ⟨⟨k, p, -, rfl⟩, -⟩ := mem_getVictimCandidates.mp ha
    obtain ⟨⟨k', q, -, rfl⟩, -⟩ := mem_getVictimCandidates.mp hb
    exact hab

variable {gs : PodScheduler σ ψ υ}

/-- The quick-passed victims come first, both parts from the highest priority down. -/
theorem Produced.exists_parts (h : Produced gs c) :
    ∃ rest, c.victims = quickPassed c ++ rest ∧ Descending (quickPassed c) ∧ Descending rest := by
  obtain ⟨pod, state, nodeInfo, -, hselect⟩ := h
  have hstate := congrArg Prod.fst hselect
  rcases gs.selectVictimsOnNode_cases pod (congrArg Prod.snd hselect) with
    ⟨-, hnil⟩ | ⟨skipPlugins, potentialVictims, w, w', -, hpotential, -, -, hreprieve⟩
  · have hnil : c.victims = [] := hnil
    exact ⟨[], by simp [quickPassed, hnil], by simp [quickPassed, hnil, Descending],
      List.Pairwise.nil⟩
  · rw [hstate] at hpotential
    have hsub := Library.reprieve_sublist hreprieve
    rw [← hpotential, sortPotentialVictims_eq, reverse_append] at hsub
    obtain ⟨first, rest, hvictims, hfirst, hrest⟩ := sublist_append_iff.mp hsub
    have hascending := ascending_filterVictimsPods gs pod state gs.newPreemptionState nodeInfo
      minInt64 (getPodPartitionPriority pod) false
    have hdescending : ∀ (keep : Pod → Bool) (part : List Pod),
        part.Sublist ((gs.filterVictimsPods state pod gs.newPreemptionState nodeInfo minInt64
          (getPodPartitionPriority pod) false).2.filter keep).reverse → Descending part :=
      fun keep part hpart => List.Pairwise.sublist hpart
        (pairwise_reverse.mpr (hascending.filter keep))
    have hquick : quickPassed c = first := by
      have hvictims : c.victims = first ++ rest := hvictims
      have hall : ∀ p ∈ first,
          canNotBePreempted c.preemptionState.podsCanNotBePreempted p = true := fun p hp =>
        (mem_filter.mp (mem_reverse.mp (hfirst.subset hp))).2
      have hnone : ∀ p ∈ rest,
          ¬ canNotBePreempted c.preemptionState.podsCanNotBePreempted p = true := fun p hp => by
        simpa using (mem_filter.mp (mem_reverse.mp (hrest.subset hp))).2
      rw [quickPassed, hvictims, filter_append, filter_eq_self.mpr hall,
        filter_eq_nil_iff.mpr hnone, append_nil]
    rw [hquick]
    exact ⟨rest, hvictims, hdescending _ _ hfirst, hdescending _ _ hrest⟩

theorem Produced.head_eq_leading (h : Produced gs c) {p : Pod} {rest : List Pod}
    (hvictims : c.victims = p :: rest) : highestPriority (leading c) = some p.getPodPriority := by
  obtain ⟨others, hparts, hquick, hothers⟩ := h.exists_parts
  unfold leading
  split_ifs with hnil
  · rw [hnil, nil_append] at hparts
    rw [← hparts, hvictims] at hothers
    rw [hvictims, hothers.highestPriority_cons]
  · obtain ⟨q, quick, hcons⟩ := exists_cons_of_ne_nil hnil
    rw [hcons] at hquick hparts ⊢
    rw [hvictims] at hparts
    obtain rfl : p = q := (List.cons.inj hparts).1
    exact hquick.highestPriority_cons

/-- The first victim is the highest one. -/
def HeadHighest (c : Candidate ψ) : Prop :=
  ∃ p rest, c.victims = p :: rest ∧ highestPriority c.victims = some p.getPodPriority

/-- The candidate has no quick-passed victim, or the highest one of them is its highest victim. -/
def LedByHighest (c : Candidate ψ) : Prop :=
  quickPassed c = [] ∨ highestPriority (quickPassed c) = highestPriority c.victims

theorem Produced.headHighest_iff (h : Produced gs c) (hne : c.victims ≠ []) :
    HeadHighest c ↔ LedByHighest c := by
  obtain ⟨p, rest, hcons⟩ := exists_cons_of_ne_nil hne
  have hlead := h.head_eq_leading hcons
  have hled : LedByHighest c ↔ highestPriority c.victims = some p.getPodPriority := by
    unfold LedByHighest
    unfold leading at hlead
    split_ifs at hlead with hnil
    · simp [hnil, hlead]
    · simp only [hnil, false_or, hlead, eq_comm]
  rw [hled]
  constructor
  · rintro ⟨q, _, hq, hmax⟩
    rwa [(List.cons.inj (hcons.symm.trans hq)).1]
  · exact fun hmax => ⟨p, rest, hcons, hmax⟩

/-- The first candidate is preferred exactly if its highest victim is strictly lower. -/
def ComparedRight (c1 c2 : Candidate ψ) : Prop :=
  minHighestPriorityCompare c1 c2 = some 1 ↔
    highestPriority c1.victims < highestPriority c2.victims

theorem compare_eq_one_iff {p1 p2 : Pod} {rest1 rest2 : List Pod} {c1 c2 : Candidate ψ}
    (h1 : c1.victims = p1 :: rest1) (h2 : c2.victims = p2 :: rest2) :
    minHighestPriorityCompare c1 c2 = some 1 ↔ p1.getPodPriority < p2.getPodPriority := by
  rw [minHighestPriorityCompare, h1, h2]
  dsimp only
  split_ifs with hlt hgt
  · simp [hlt]
  · simp [hlt]
  · simp [hlt]

theorem HeadHighest.comparedRight {c1 c2 : Candidate ψ} (h1 : HeadHighest c1)
    (h2 : HeadHighest c2) :
    ComparedRight c1 c2 := by
  obtain ⟨p1, rest1, hcons1, hmax1⟩ := h1
  obtain ⟨p2, rest2, hcons2, hmax2⟩ := h2
  rw [ComparedRight, compare_eq_one_iff hcons1 hcons2, hmax1, hmax2, Option.some_lt_some]

/-- The comparison is right about a candidate against all candidates that are led by their highest
victims and all that have one victim, exactly if it is led by its highest victim too. -/
theorem compare_right_iff_ledByHighest (gs : PodScheduler σ ψ υ) (c : Candidate ψ)
    (h : Produced gs c) (hne : c.victims ≠ []) :
    (∀ c' : Candidate ψ, c'.victims ≠ [] →
        (Produced gs c' ∧ LedByHighest c' ∨ c'.victims.length = 1) →
        ComparedRight c c' ∧ ComparedRight c' c) ↔ LedByHighest c := by
  rw [← h.headHighest_iff hne]
  constructor
  · intro hright
    obtain ⟨p, rest, hcons⟩ := exists_cons_of_ne_nil hne
    obtain ⟨a, hmax⟩ : ∃ a, highestPriority c.victims = some a := by
      rw [← Option.ne_none_iff_exists']
      simpa [highestPriority] using hne
    obtain ⟨v, -, rfl⟩ := mem_map.mp (List.max?_mem hmax)
    refine ⟨p, rest, hcons, ?_⟩
    -- a rival with one victim, as high as the highest one of the candidate
    have hrival := (hright { c with victims := [v] } (by simp) (.inr rfl)).1
    have hrivalMax : highestPriority [v] = some v.getPodPriority := rfl
    rw [ComparedRight, compare_eq_one_iff hcons rfl, hmax, hrivalMax,
      Option.some_lt_some] at hrival
    have hle : p.getPodPriority ≤ v.getPodPriority :=
      (List.max?_eq_some_iff.mp hmax).2 _ (mem_map_of_mem (by simp [hcons]))
    have hnot : ¬ p.getPodPriority < v.getPodPriority := fun hlt => lt_irrefl _ (hrival.mp hlt)
    rw [hmax, le_antisymm hle (not_lt.mp hnot)]
  · intro hhead c' hne' hled
    have hhead' : HeadHighest c' := by
      rcases hled with ⟨h', hled⟩ | hone
      · exact (h'.headHighest_iff hne').mpr hled
      · obtain ⟨v, hv⟩ := length_eq_one_iff.mp hone
        exact ⟨v, [], hv, by rw [hv]; rfl⟩
    exact ⟨hhead.comparedRight hhead', hhead'.comparedRight hhead⟩

/-- A pod that tolerates no other pod on its node. -/
def exclusiveFilter : FilterPlugin Unit where
  name := "InterPodAffinity"
  filter _ _ nodeInfo :=
    if (nodeInfo.map fun n => n.pods.isEmpty).getD false then .success else .unschedulable

/-- The pod named `quick` passes the first collection quickly and fails the second one, where all
other pods succeed. -/
def quickPassScheduler : PodScheduler Unit Unit Unit where
  gates := NodeResources.allGates
  orders := .forward
  framework :=
    { filterPlugins := [exclusiveFilter]
      distinct := by decide
      runPreFilterExtensionAddPod := fun _ _ _ _ => ((), true)
      runPreFilterExtensionRemovePod := fun _ _ _ _ => ((), true)
      fitLabelFlag := fun _ _ => false }
  preemptionFramework :=
    { victimSearchingPlugins :=
        [{ enableQuickPass := true
           plugins := [fun _ pi _ _ _ => ((), (),
             if pi.pod.name = "quick" then .preemptionSucceed else .preemptionNotSure)] },
          { plugins := [fun _ pi _ _ _ => ((), (),
             if pi.pod.name = "quick" then .preemptionFail else .preemptionSucceed)] }]
      newVictimState := () }
  newCycleState := ()
  getPodResourceType _ := some .guaranteed
  getPreemptorsByVictim _ _ := []

def nodeWithPods (name : NodeName) (pods : List Pod) : SearchNode :=
  pods.foldl (SearchNode.addPod NodeResources.allGates .forward)
    ⟨{ emptyNode 4 with node := some { name := name } }, placed_new, [], []⟩

/-- The candidate for a node that holds the given pods, if it is one. -/
def candidateOn (name : NodeName) (pods : List Pod) : Option (Candidate Unit) :=
  let nodeInfo := nodeWithPods name pods
  match quickPassScheduler.selectVictimsOnNode (cpuPod "high" 20 1) ()
      quickPassScheduler.newPreemptionState nodeInfo with
  | (preemptionState, some victims) => some ⟨nodeInfo.getNodeName, victims, preemptionState⟩
  | (_, none) => none

theorem produced_candidateOn (name : NodeName) (pods : List Pod) {c : Candidate Unit}
    (h : candidateOn name pods = some c) : Produced quickPassScheduler c := by
  refine ⟨cpuPod "high" 20 1, (), nodeWithPods name pods, ?_⟩
  unfold candidateOn at h
  dsimp only at h
  split at h
  next preemptionState victims hselect =>
    obtain rfl := Option.some.inj h
    exact ⟨rfl, hselect⟩
  next => cases h

def highestQuickCandidate : Candidate Unit :=
  ⟨some (nodeNamed "-1"), [cpuPod "quick" 9 1, cpuPod "other" 1 1], ⟨(), ["default/quick/quick"]⟩⟩

def midCandidate : Candidate Unit :=
  ⟨some (nodeNamed "-2"), [cpuPod "mid" 5 1], ⟨(), []⟩⟩

def quickCandidate : Candidate Unit :=
  ⟨some (nodeNamed "-1"), [cpuPod "quick" 1 1, cpuPod "other" 9 1], ⟨(), ["default/quick/quick"]⟩⟩

theorem produced_highestQuickCandidate : Produced quickPassScheduler highestQuickCandidate :=
  produced_candidateOn (nodeNamed "-1") [cpuPod "quick" 9 1, cpuPod "other" 1 1] (by decide)

theorem produced_midCandidate : Produced quickPassScheduler midCandidate :=
  produced_candidateOn (nodeNamed "-2") [cpuPod "mid" 5 1] (by decide)

theorem produced_quickCandidate : Produced quickPassScheduler quickCandidate :=
  produced_candidateOn (nodeNamed "-1") [cpuPod "quick" 1 1, cpuPod "other" 9 1] (by decide)

/-- The quick-passed victim is the highest one. -/
theorem compare_highestQuick :
    ComparedRight highestQuickCandidate midCandidate ∧
      ComparedRight midCandidate highestQuickCandidate :=
  (compare_right_iff_ledByHighest quickPassScheduler highestQuickCandidate
    produced_highestQuickCandidate (by decide)).mpr (.inr (by decide)) midCandidate (by decide)
    (.inl ⟨produced_midCandidate, .inl (by decide)⟩)

/-- The victims have priorities 1 and 9 on one node and 5 on the other, and the first one is
preferred. -/
theorem higher_victim_overlooked :
    Produced quickPassScheduler quickCandidate ∧ Produced quickPassScheduler midCandidate ∧
      minHighestPriorityCompare quickCandidate midCandidate = some 1 ∧
      ¬ highestPriority quickCandidate.victims < highestPriority midCandidate.victims := by
  refine ⟨produced_quickCandidate, produced_midCandidate, by decide, ?_⟩
  rw [show highestPriority quickCandidate.victims = some 9 by decide,
    show highestPriority midCandidate.victims = some 5 by decide, Option.some_lt_some]
  decide

end FirstVictim

end GodelScheduler.Preemption
