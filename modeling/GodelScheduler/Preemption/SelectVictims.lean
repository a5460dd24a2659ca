import GodelScheduler.Library.Reprieve
import GodelScheduler.Preemption.VictimSearch

/-!
# Selecting victims on a node

All potential victims are taken off a copy of the node. If the preemptor then passes the
filters, the potential victims are put back one after the other, those that should not be
preempted first and the higher priorities first, and a pod whose return makes the preemptor
fail is taken off again: it is a victim.

With filters to which fewer pods on the node are never worse, the victims are enough and
none of them is too many (`selectVictimsOnNode_sound_and_minimal`).
-/

namespace GodelScheduler.Preemption

open Library PodInfoMaintainer NodeInfoImpl List
open Binder.Preemption (generatePodKey)

section

variable (podsCanNotBePreempted : List String)

/-- The pod is one that a quick pass let through. -/
def canNotBePreempted (pod : Pod) : Bool := podsCanNotBePreempted.contains (generatePodKey pod)

def moreImportantPod (pi1 pi2 : Pod) : Bool :=
  !canNotBePreempted podsCanNotBePreempted pi1 && canNotBePreempted podsCanNotBePreempted pi2

/-- `sort.SliceStable` by `moreImportantPod`. -/
def sortPotentialVictims (potentialVictims : List Pod) : List Pod :=
  potentialVictims.insertionSort fun p q => moreImportantPod podsCanNotBePreempted q p = false

variable {podsCanNotBePreempted}

/-- A pod is inserted before the first one that it is not less important than. -/
theorem orderedInsert_eq {p : Pod} {l l' : List Pod}
    (hl : ∀ q ∈ l, moreImportantPod podsCanNotBePreempted q p = true)
    (hl' : ∀ q ∈ l', moreImportantPod podsCanNotBePreempted q p = false) :
    (l ++ l').orderedInsert (fun p q => moreImportantPod podsCanNotBePreempted q p = false) p =
      l ++ p :: l' := by
  induction l with
  | nil =>
    cases l' with
    | nil => rfl
    | cons q l' => exact if_pos (hl' q mem_cons_self)
  | cons q l ih =>
    obtain ⟨hq, hl⟩ := forall_mem_cons.mp hl
    rw [cons_append, orderedInsert_cons, if_neg (by rw [hq]; simp), ih hl]
    rfl

variable (podsCanNotBePreempted)

/-- The pods that a quick pass let through come last; otherwise the order is kept. -/
theorem sortPotentialVictims_eq (l : List Pod) :
    sortPotentialVictims podsCanNotBePreempted l =
      (l.filter fun p => !canNotBePreempted podsCanNotBePreempted p) ++
        l.filter (canNotBePreempted podsCanNotBePreempted) := by
  induction l with
  | nil => rfl
  | cons p l ih =>
    rw [sortPotentialVictims] at ih ⊢
    rw [insertionSort_cons, ih]
    cases hp : canNotBePreempted podsCanNotBePreempted p with
    | false =>
      have hall : ∀ q, moreImportantPod podsCanNotBePreempted q p = false := by
        simp [moreImportantPod, hp]
      rw [← nil_append (List.filter _ l ++ _), orderedInsert_eq (by simp) fun q _ => hall q]
      simp [hp]
    | true =>
      rw [orderedInsert_eq]
      · simp [hp]
      · intro q hq
        simpa [moreImportantPod, hp] using (mem_filter.mp hq).2
      · intro q hq
        simp [moreImportantPod, (mem_filter.mp hq).2]

theorem perm_sortPotentialVictims (l : List Pod) :
    (sortPotentialVictims podsCanNotBePreempted l).Perm l := perm_insertionSort _ _

end

namespace PodScheduler

variable {σ ψ υ : Type} (gs : PodScheduler σ ψ υ) (pod : Pod)

/-- `none` for an error. -/
def tryRemovePod (w : World σ) (rp : Pod) : Option (World σ) :=
  let (w, ok) := removePod gs.gates gs.orders gs.framework pod w rp
  if ok then some w else none

def tryAddPod (w : World σ) (ap : Pod) : Option (World σ) :=
  let (w, ok) := addPod gs.gates gs.orders gs.framework pod w ap
  if ok then some w else none

/-- The preemption state, and the victims; `none` where the source returns `false`. -/
def selectVictimsOnNode (state : σ) (preemptionState : PreemptionState ψ) (nodeInfo : SearchNode) :
    PreemptionState ψ × Option (List Pod) :=
  let (fits, statusMap) := podPassesFiltersOnNode gs.framework state pod (some nodeInfo) []
  if fits then (preemptionState, some [])
  else
    let skipPlugins := skippable statusMap
    let (preemptionState, potentialVictims) :=
      gs.filterVictimsPods state pod preemptionState nodeInfo minInt64
        (getPodPartitionPriority pod) false
    if potentialVictims = [] then (preemptionState, none)
    else
      let potentialVictims :=
        sortPotentialVictims preemptionState.podsCanNotBePreempted potentialVictims
      (preemptionState, do
        let w ← takeAway (gs.tryRemovePod pod) potentialVictims ⟨state, nodeInfo⟩
        if w.fits gs.framework pod skipPlugins then
          let (victims, _) ← reprieve (gs.tryAddPod pod) (gs.tryRemovePod pod)
            (fun w => w.fits gs.framework pod skipPlugins) potentialVictims.reverse w
          some victims
        else none)

/-- A selection of victims that goes beyond the first filter. -/
theorem selectVictimsOnNode_cases {state : σ} {preemptionState : PreemptionState ψ}
    {nodeInfo : SearchNode} {victims : List Pod}
    (h : (gs.selectVictimsOnNode pod state preemptionState nodeInfo).2 = some victims) :
    (World.fits gs.framework pod ⟨state, nodeInfo⟩ [] = true ∧ victims = []) ∨
    ∃ skipPlugins potentialVictims w w',
      World.Skips gs.framework pod ⟨state, nodeInfo⟩ skipPlugins ∧
      sortPotentialVictims
          (gs.selectVictimsOnNode pod state preemptionState nodeInfo).1.podsCanNotBePreempted
          (gs.filterVictimsPods state pod preemptionState nodeInfo minInt64
            (getPodPartitionPriority pod) false).2 = potentialVictims ∧
      takeAway (gs.tryRemovePod pod) potentialVictims ⟨state, nodeInfo⟩ = some w ∧
      w.fits gs.framework pod skipPlugins = true ∧
      reprieve (gs.tryAddPod pod) (gs.tryRemovePod pod)
        (fun w => w.fits gs.framework pod skipPlugins) potentialVictims.reverse w =
          some (victims, w') := by
  have hskips := World.skips_skippable gs.framework pod ⟨state, nodeInfo⟩ []
  unfold selectVictimsOnNode at h ⊢
  dsimp only at h ⊢
  by_cases hfits : (podPassesFiltersOnNode gs.framework state pod (some nodeInfo) []).1 = true
  · rw [if_pos hfits] at h
    exact .inl ⟨hfits, (Option.some_inj.mp h).symm⟩
  · rw [if_neg hfits] at h ⊢
    by_cases hnone : (gs.filterVictimsPods state pod preemptionState nodeInfo minInt64
        (getPodPartitionPriority pod) false).2 = []
    · rw [if_pos hnone] at h
      cases h
    · rw [if_neg hnone] at h ⊢
      obtain ⟨w, hw, h⟩ := Option.bind_eq_some_iff.mp h
      split_ifs at h with hfits'
      obtain ⟨⟨victims', w'⟩, hreprieve, heq⟩ := Option.bind_eq_some_iff.mp h
      cases heq
      exact .inr ⟨_, _, w, w', hskips, rfl, hw, hfits', hreprieve⟩

section Minimal

def shown (w : World σ) : Set Pod := {p | p ∈ w.node.pods}

/-- The worlds reached by taking pods off the copy of a node and putting them back. -/
inductive Reach (w₀ : World σ) : World σ → Prop
  | refl : Reach w₀ w₀
  | add {w w' : World σ} {p : Pod} : Reach w₀ w → p ∈ shown w₀ → p ∉ shown w →
    gs.tryAddPod pod w p = some w' → Reach w₀ w'
  | remove {w w' : World σ} {p : Pod} : Reach w₀ w → p ∈ shown w →
    gs.tryRemovePod pod w p = some w' → Reach w₀ w'

/-- The filters depend on the pods on the node only, and never reject the preemptor for fewer of
them. -/
def MonotoneFilters (w₀ : World σ) : Prop :=
  ∀ w w', gs.Reach pod w₀ w → gs.Reach pod w₀ w' → shown w' ⊆ shown w →
    ∀ pl ∈ gs.framework.filterPlugins, pl.Accepts w.state pod (some w.node) →
      pl.Accepts w'.state pod (some w'.node)

variable {gs pod} {w₀ w w' : World σ} {p : Pod}

theorem node_tryRemovePod (h : gs.tryRemovePod pod w p = some w') :
    w.node.removePod gs.gates gs.orders p = .ok w'.node := by
  unfold tryRemovePod removePod at h
  cases hremove : w.node.removePod gs.gates gs.orders p with
  | error err =>
    rw [hremove] at h
    cases h
  | ok node =>
    rw [hremove] at h
    simp only at h
    split_ifs at h
    cases h
    rfl

theorem node_tryAddPod (h : gs.tryAddPod pod w p = some w') :
    w'.node = w.node.addPod gs.gates gs.orders p := by
  unfold tryAddPod addPod at h
  simp only at h
  split_ifs at h
  cases h
  rfl

theorem filed_tryRemovePod (hfiled : w.node.podInfoMaintainer.Filed) (hp : p ∈ shown w)
    (h : gs.tryRemovePod pod w p = some w') :
    w'.node.podInfoMaintainer.Filed ∧ shown w' = shown w \ {p} := by
  obtain ⟨-, q, hq, hm⟩ := removePod_ok gs.gates gs.orders
    (SearchNode.removePod_ok (node_tryRemovePod h))
  obtain rfl : p = q := Option.some_inj.mp ((hfiled.getPodInfo_uid hp).symm.trans hq)
  have hmaintainer : w'.node.podInfoMaintainer = w.node.podInfoMaintainer.removePodInfo p := by
    rw [hm, toNodeInfo_update]
  rw [hmaintainer]
  refine ⟨hfiled.removePodInfo hq, Set.ext fun q => ?_⟩
  change q ∈ w'.node.podInfoMaintainer.pods ↔ _
  rw [hmaintainer]
  exact hfiled.mem_pods_removePodInfo hp

theorem filed_tryAddPod (hfiled : w.node.podInfoMaintainer.Filed)
    (habsent : w.node.podInfoMaintainer.getPodInfo p.uid = none)
    (h : gs.tryAddPod pod w p = some w') :
    w'.node.podInfoMaintainer.Filed ∧ shown w' = insert p (shown w) := by
  have hmaintainer : w'.node.podInfoMaintainer = w.node.podInfoMaintainer.addPodInfo p := by
    rw [node_tryAddPod h]
    exact congrArg NodeInfo.podInfoMaintainer (toNodeInfo_addPod _ _ _ _)
  rw [hmaintainer]
  refine ⟨hfiled.addPodInfo habsent, Set.ext fun q => ?_⟩
  change q ∈ w'.node.podInfoMaintainer.pods ↔ _
  rw [hmaintainer, (perm_pods_addPodInfo habsent).mem_iff, mem_cons]
  rfl

/-- A pod that was taken off can be put back: no other pod has its UID. -/
theorem absent_of_notMem (hfiled₀ : w₀.node.podInfoMaintainer.Filed)
    (hfiled : w.node.podInfoMaintainer.Filed) (hsub : shown w ⊆ shown w₀) (hp : p ∈ shown w₀)
    (hnot : p ∉ shown w) : w.node.podInfoMaintainer.getPodInfo p.uid = none := by
  by_contra hne
  obtain ⟨q, hq⟩ := Option.ne_none_iff_exists'.mp hne
  obtain ⟨hmem, huid⟩ := hfiled.toPlaced.mem_pods_of_getPodInfo hq
  have hsame := hfiled₀.getPodInfo_uid (hsub hmem)
  rw [huid, hfiled₀.getPodInfo_uid hp] at hsame
  cases hsame
  exact hnot hmem

theorem Reach.filed (h : gs.Reach pod w₀ w) (hfiled₀ : w₀.node.podInfoMaintainer.Filed) :
    w.node.podInfoMaintainer.Filed ∧ shown w ⊆ shown w₀ := by
  induction h with
  | refl => exact ⟨hfiled₀, subset_rfl⟩
  | add hw hp hnot hadd ih =>
    obtain ⟨hfiled, hshown⟩ :=
      filed_tryAddPod ih.1 (absent_of_notMem hfiled₀ ih.1 ih.2 hp hnot) hadd
    exact ⟨hfiled, hshown ▸ Set.insert_subset hp ih.2⟩
  | remove hw hp hremove ih =>
    obtain ⟨hfiled, hshown⟩ := filed_tryRemovePod ih.1 hp hremove
    exact ⟨hfiled, hshown ▸ Set.sdiff_subset.trans ih.2⟩

theorem shows_of_filed (hfiled₀ : w₀.node.podInfoMaintainer.Filed) :
    Shows (gs.tryAddPod pod) (gs.tryRemovePod pod) (shown w₀) (gs.Reach pod w₀) shown where
  add hw hp hnot hadd :=
    ⟨hw.add hp hnot hadd, (filed_tryAddPod (hw.filed hfiled₀).1
      (absent_of_notMem hfiled₀ (hw.filed hfiled₀).1 (hw.filed hfiled₀).2 hp hnot) hadd).2⟩
  remove hw hp hremove :=
    ⟨hw.remove hp hremove, (filed_tryRemovePod (hw.filed hfiled₀).1 hp hremove).2⟩

theorem MonotoneFilters.fits (h : gs.MonotoneFilters pod w₀) (hw : gs.Reach pod w₀ w)
    (hw' : gs.Reach pod w₀ w') (hsub : shown w' ⊆ shown w) {skipPlugins : List String}
    (hfits : w.fits gs.framework pod skipPlugins = true) :
    w'.fits gs.framework pod skipPlugins = true := by
  rw [World.fits_iff] at hfits ⊢
  exact fun pl hpl hskip => h w w' hw hw' hsub pl hpl (hfits pl hpl hskip)

variable (gs pod)

theorem potentialVictims_spec (state : σ) (preemptionState : PreemptionState ψ)
    (nodeInfo : SearchNode) (lower upper : ℤ) :
    (gs.filterVictimsPods state pod preemptionState nodeInfo lower upper false).2.Nodup ∧
      ∀ p ∈ (gs.filterVictimsPods state pod preemptionState nodeInfo lower upper false).2,
        p ∈ nodeInfo.pods := by
  rcases filterVictimsPods_sublist gs state pod preemptionState nodeInfo lower upper false with
    hnil | ⟨type, hsub⟩
  · rw [hnil]
    simp
  · constructor
    · refine hsub.nodup ((nodeInfo.placed.nodup_getVictimCandidates lower upper).map_on ?_)
      intro a ha b hb heq
      obtain ⟨⟨k, q, -, rfl⟩, -⟩ := mem_getVictimCandidates.mp ha
      obtain ⟨⟨k', q', -, rfl⟩, -⟩ := mem_getVictimCandidates.mp hb
      obtain rfl : q = q' := heq
      rfl
    · intro p hp
      obtain ⟨pi, hpi, rfl⟩ := mem_map.mp (hsub.subset hp)
      obtain ⟨⟨k, q, hq, rfl⟩, -⟩ := mem_getVictimCandidates.mp hpi
      exact mem_pods.mpr ⟨some type, k, hq⟩

/-- The preemptor passes the filters on the node without the victims, and fails them if any single
one of the victims is put back. -/
theorem selectVictimsOnNode_sound_and_minimal (state : σ) (preemptionState : PreemptionState ψ)
    (nodeInfo : SearchNode) (victims : List Pod) (hfiled : nodeInfo.podInfoMaintainer.Filed)
    (hmono : gs.MonotoneFilters pod ⟨state, nodeInfo⟩)
    (h : (gs.selectVictimsOnNode pod state preemptionState nodeInfo).2 = some victims) :
    (∀ v ∈ victims, v ∈ nodeInfo.pods) ∧
    (∃ w, gs.Reach pod ⟨state, nodeInfo⟩ w ∧ shown w = {p | p ∈ nodeInfo.pods ∧ p ∉ victims}) ∧
    (∀ w, gs.Reach pod ⟨state, nodeInfo⟩ w → shown w = {p | p ∈ nodeInfo.pods ∧ p ∉ victims} →
      w.fits gs.framework pod [] = true) ∧
    ∀ v ∈ victims, ∀ w, gs.Reach pod ⟨state, nodeInfo⟩ w →
      shown w = insert v {p | p ∈ nodeInfo.pods ∧ p ∉ victims} →
      w.fits gs.framework pod [] = false := by
  rcases gs.selectVictimsOnNode_cases pod h with
    ⟨hfits, rfl⟩ | ⟨skipPlugins, potentialVictims, w, w', hskips, hpotential, htake, hfits,
      hreprieve⟩
  · have hall : shown (⟨state, nodeInfo⟩ : World σ) = {p | p ∈ nodeInfo.pods ∧ p ∉ []} := by
      simp [shown]
    refine ⟨by simp, ⟨_, .refl, hall⟩, fun w hw hshown => ?_, by simp⟩
    exact hmono.fits .refl hw (hshown.trans hall.symm).subset hfits
  · have hshows : Shows (gs.tryAddPod pod) (gs.tryRemovePod pod) (shown ⟨state, nodeInfo⟩)
        (gs.Reach pod ⟨state, nodeInfo⟩) shown := shows_of_filed hfiled
    obtain ⟨hnodup, hmem⟩ := potentialVictims_spec gs pod state preemptionState nodeInfo minInt64
      (getPodPartitionPriority pod)
    have hperm := perm_sortPotentialVictims
      (gs.selectVictimsOnNode pod state preemptionState nodeInfo).1.podsCanNotBePreempted
      (gs.filterVictimsPods state pod preemptionState nodeInfo minInt64
        (getPodPartitionPriority pod) false).2
    rw [hpotential] at hperm
    have hnodup' : potentialVictims.Nodup := hperm.nodup_iff.mpr hnodup
    have hmem' : ∀ p ∈ potentialVictims, p ∈ nodeInfo.pods := fun p hp =>
      hmem p (hperm.mem_iff.mp hp)
    obtain ⟨hw, hshown⟩ := hshows.takeAway hnodup' .refl hmem' htake
    obtain ⟨hw', hfits', hshown', hneeded⟩ := reprieve_spec hshows
      (fun u u' hu hu' hsub hok => hmono.fits hu hu' hsub hok) hw hfits
      (nodup_reverse.mpr hnodup')
      (fun p hp => by
        rw [mem_reverse] at hp
        exact ⟨hmem' p hp, by simp [hshown, hp]⟩) hreprieve
    have hvictims : ∀ v ∈ victims, v ∈ potentialVictims := fun v hv =>
      mem_reverse.mp ((reprieve_sublist hreprieve).subset hv)
    have hfinal : shown w' = {p | p ∈ nodeInfo.pods ∧ p ∉ victims} := by
      rw [hshown', hshown]
      ext p
      simp only [shown, Set.mem_union, Set.mem_sdiff, Set.mem_ofPred_eq, mem_reverse]
      constructor
      · rintro (⟨hp, hnot⟩ | ⟨hp, hnot⟩)
        · exact ⟨hp, fun hv => hnot (hvictims p hv)⟩
        · exact ⟨hmem' p hp, hnot⟩
      · rintro ⟨hp, hnot⟩
        by_cases hpot : p ∈ potentialVictims
        · exact .inr ⟨hpot, hnot⟩
        · exact .inl ⟨hp, hpot⟩
    have hskips' : w'.Skips gs.framework pod skipPlugins := fun pl hpl hskip =>
      hmono _ w' .refl hw' (hw'.filed hfiled).2 pl hpl (hskips pl hpl hskip)
    rw [hskips'.fits_eq] at hfits'
    refine ⟨fun v hv => hmem' v (hvictims v hv), ⟨w', hw', hfinal⟩, ?_, ?_⟩
    · intro u hu hshownu
      exact hmono.fits hw' hu (hshownu.trans hfinal.symm).subset hfits'
    · intro v hv u hu hshownu
      have hfail := hneeded v hv u hu (by rw [hshownu, hfinal])
      rw [← Bool.not_eq_true, World.fits_iff] at hfail ⊢
      exact fun hall => hfail fun pl hpl _ => hall pl hpl not_mem_nil

def hostPortFilter : FilterPlugin Unit where
  name := "NodePorts"
  filter _ _ nodeInfo :=
    if (nodeInfo.map fun n => n.pods.any fun p => p.name == "port").getD true then .unschedulable
    else .success

/-- A scheduler with one filter, whose victims are accepted by one collection. -/
def hostPortScheduler : PodScheduler Unit Unit Unit where
  gates := NodeResources.allGates
  orders := .forward
  framework :=
    { filterPlugins := [hostPortFilter]
      distinct := by decide
      runPreFilterExtensionAddPod := fun _ _ _ _ => ((), true)
      runPreFilterExtensionRemovePod := fun _ _ _ _ => ((), true)
      fitLabelFlag := fun _ _ => false }
  preemptionFramework :=
    { victimSearchingPlugins := [{ plugins := [fun _ _ _ _ _ => ((), (), .preemptionSucceed)] }]
      newVictimState := () }
  newCycleState := ()
  getPodResourceType _ := some .guaranteed
  getPreemptorsByVictim _ _ := []

def hostPortNode : SearchNode :=
  SearchNode.addPod NodeResources.allGates .forward
    (SearchNode.addPod NodeResources.allGates .forward
      ⟨emptyNode 4, placed_new, [], []⟩ (cpuPod "port" 1 1)) (cpuPod "other" 2 1)

theorem filed_hostPortNode : hostPortNode.podInfoMaintainer.Filed := by
  have hfirst := filed_new.addPodInfo (p := cpuPod "port" 1 1) (by decide)
  have hsecond := hfirst.addPodInfo (p := cpuPod "other" 2 1) (by decide)
  rw [hostPortNode, SearchNode.addPod, SearchNode.addPod, toNodeInfo_addPod, toNodeInfo_addPod]
  exact hsecond

theorem monotone_hostPortFilter (pod : Pod) (w₀ : World Unit) :
    hostPortScheduler.MonotoneFilters pod w₀ := by
  intro w w' _ _ hsub pl hpl haccepts
  obtain rfl := mem_singleton.mp hpl
  simp only [FilterPlugin.Accepts, hostPortFilter, Option.map_some, Option.getD_some,
    any_eq_true, ite_eq_right_iff, reduceCtorEq, imp_false, not_exists, not_and] at haccepts ⊢
  exact fun p hp => haccepts p (hsub hp)

/-- Only the pod with the host port has to go. -/
theorem hostPort_victim :
    (hostPortScheduler.selectVictimsOnNode (cpuPod "high" 5 1) () ⟨(), []⟩ hostPortNode).2 =
        some [cpuPod "port" 1 1] ∧
      ∀ w, hostPortScheduler.Reach (cpuPod "high" 5 1) ⟨(), hostPortNode⟩ w →
        shown w = {p | p ∈ hostPortNode.pods ∧ p ∉ [cpuPod "port" 1 1]} →
        w.fits hostPortScheduler.framework (cpuPod "high" 5 1) [] = true := by
  refine ⟨by decide, ?_⟩
  exact (selectVictimsOnNode_sound_and_minimal hostPortScheduler (cpuPod "high" 5 1) () ⟨(), []⟩
    hostPortNode [cpuPod "port" 1 1] filed_hostPortNode (monotone_hostPortFilter _ _)
    (by decide)).2.2.1

end Minimal

end PodScheduler

end GodelScheduler.Preemption
