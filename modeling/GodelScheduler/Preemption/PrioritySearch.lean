import GodelScheduler.Library.WorkerPool
import GodelScheduler.Preemption.SelectVictims

/-!
# Searching the nodes by victim priority

Both orders of better preemption look for the lowest priority such that some node accepts
the preemptor once its victims up to this priority are gone. They go through the nodes
round by round, each round with one priority. What a node looked like after its last round
is kept in a slot: the victims of the next round are searched above the priority of the
last one only, with the preemption state it left, and are taken off the copy of the node
on which the earlier victims are gone already.

`reached` is a node after all victims up to a priority were searched at once. A round that
starts from what another priority reached ends in what its own priority reaches
(`reached_step`), so the rounds that came before do not matter. This needs plugins that
prepare the node without an error: after an error the first round has no victims, and the
next ones do not look below its priority again.
-/

namespace GodelScheduler.Preemption

open Library List

/-- What the rounds keep for one index of the list of nodes. -/
structure Slot (σ ψ : Type) where
  nodeInfo : Option SearchNode
  state : Option σ := none
  preemptionState : Option (PreemptionState ψ) := none
  skipPlugins : List String := []
  /-- The preemptor failed the filters in the current round. -/
  failed : Bool := false
  /-- All nodes that were handed to the filters for this index. -/
  handed : List (Option SearchNode) := []

/-- The indexes of the nominated nodes, the index of the priority, and the slots at the end. -/
structure SearchResult (σ ψ : Type) where
  nominatedNodeIndex : List ℕ
  maxVictimPriorityIndex : ℤ
  slots : ℕ → Slot σ ψ

def searchWorkers : ℕ := 32

namespace PodScheduler

variable {σ ψ υ : Type} (gs : PodScheduler σ ψ υ) (state : σ) (pod : Pod)
  (resourceType : Option PodResourceType)

/-- Take the victims off; an error is logged only. -/
def removeVictims (w : World σ) (potentialVictims : List Pod) : World σ :=
  potentialVictims.foldl (fun w rp => (removePod gs.gates gs.orders gs.framework pod w rp).1) w

variable (nodeInfo : SearchNode)

def passesOccupiableResourcesCheck : Bool :=
  occupiableResourcesCheck gs.gates gs.orders (getPodPartitionPriority pod) resourceType
    (calculateResource gs.gates gs.orders pod).1 nodeInfo.toNodeInfoImpl

/-- Search the victims of a slot above the previous priority, up to and including this one. -/
def searchSlot (previousPriority priority : ℤ) (slot : Slot σ ψ) (nodeInfo : SearchNode) :
    PreemptionState ψ × List Pod :=
  gs.filterVictimsPods state pod (slot.preemptionState.getD gs.newPreemptionState) nodeInfo
    previousPriority (priority + 1) slot.preemptionState.isSome

def newSlots (nodesList : List (Option SearchNode)) : ℕ → Slot σ ψ := fun i =>
  { nodeInfo := nodesList.getD i none }

section

variable {w : World σ} {rp : Pod} {type : PodResourceType}

variable {gs pod} in
theorem removeVictims_append (w : World σ) (l l' : List Pod) :
    gs.removeVictims pod w (l ++ l') = gs.removeVictims pod (gs.removeVictims pod w l) l' :=
  foldl_append

variable (w rp) in
theorem removePod_cases : (removePod gs.gates gs.orders gs.framework pod w rp).1.node = w.node ∨
    ∃ p node, w.node.podInfoMaintainer.getPodInfo rp.uid = some p ∧
      (removePod gs.gates gs.orders gs.framework pod w rp).1.node = node ∧
      node.podInfoMaintainer = w.node.podInfoMaintainer.removePodInfo p ∧
      node.getNodeName = w.node.getNodeName := by
  unfold removePod
  cases hremove : w.node.removePod gs.gates gs.orders rp with
  | error err => exact Or.inl rfl
  | ok node =>
    obtain ⟨-, p, hp, hnode⟩ := NodeInfoImpl.removePod_ok gs.gates gs.orders
      (SearchNode.removePod_ok hremove)
    refine Or.inr ⟨p, node, hp, rfl, ?_, ?_⟩
    · rw [hnode, NodeInfoImpl.toNodeInfo_update]
    · rw [hnode, NodeInfoImpl.toNodeInfo_update]
      rfl

/-- No pod of the list is a candidate above a priority. -/
def Below (node : SearchNode) (type : PodResourceType) (lower : ℤ) (gone : List Pod) : Prop :=
  ∀ rp ∈ gone, ∀ p, (node.podInfoMaintainer.mayBePreempted type).lookup rp.uid = some p →
    p.getPodPriority ≤ lower

theorem Below.removeVictims {lower : ℤ} {gone : List Pod} (h : Below w.node type lower gone)
    (upper : ℤ) :
    (gs.removeVictims pod w gone).node.getVictimCandidates gs.gates gs.orders lower upper type =
        w.node.getVictimCandidates gs.gates gs.orders lower upper type ∧
      (gs.removeVictims pod w gone).node.getNodeName = w.node.getNodeName := by
  induction gone generalizing w with
  | nil => exact ⟨rfl, rfl⟩
  | cons rp gone ih =>
    rcases removePod_cases gs pod w rp with hsame | ⟨p, node, hp, hnode, hpods, hname⟩
    · have hrest := @ih (removePod gs.gates gs.orders gs.framework pod w rp).1 (by
        rw [hsame]
        exact fun rp' hrp' => h rp' (mem_cons_of_mem _ hrp'))
      rw [hsame] at hrest
      exact hrest
    · have hkept : node.getVictimCandidates gs.gates gs.orders lower upper type =
          w.node.getVictimCandidates gs.gates gs.orders lower upper type := by
        rw [SearchNode.getVictimCandidates, hpods]
        exact w.node.placed.getVictimCandidates_removePodInfo hp (h rp (mem_cons_self ..))
      have hrest := @ih (removePod gs.gates gs.orders gs.framework pod w rp).1 (by
        rw [hnode]
        intro rp' hrp' q hq
        rw [hpods] at hq
        exact h rp' (mem_cons_of_mem _ hrp') q
          (w.node.placed.lookup_of_removePodInfo (c := some type) hp hq))
      rw [hnode, hkept, hname] at hrest
      exact hrest

end

section

/-- The preemption state and the copy of the node after the victims up to a priority were searched
at once and taken off. -/
def reached (priority : ℤ) : PreemptionState ψ × World σ :=
  let (preemptionState, potentialVictims) := gs.filterVictimsPods state pod gs.newPreemptionState
    nodeInfo minInt64 (priority + 1) false
  (preemptionState, gs.removeVictims pod ⟨state, nodeInfo⟩ potentialVictims)

/-- The node is not dropped by the check of its resources, and accepts the preemptor once the
victims up to the priority are gone. -/
def accepts (priority : ℤ) : Bool :=
  gs.passesOccupiableResourcesCheck pod resourceType nodeInfo &&
    (gs.reached state pod nodeInfo priority).2.fits gs.framework pod []

theorem below_filterVictims (type : PodResourceType) (lower mid : ℤ)
    (preemptionState : PreemptionState ψ) :
    Below nodeInfo type mid (gs.filterVictims state pod nodeInfo.getNodeName
      (nodeInfo.getVictimCandidates gs.gates gs.orders lower (mid + 1) type)
      preemptionState).2 := by
  intro rp hrp p hp
  obtain ⟨pi, hpi, rfl⟩ := mem_map.mp ((filterVictims_sublist _ _ _).subset hrp)
  obtain ⟨⟨k, q, hq, rfl⟩, -, hupper⟩ := PodInfoMaintainer.mem_getVictimCandidates.mp hpi
  have huid : q.uid = k := nodeInfo.placed.uid_eq (c := some type) hq
  change (nodeInfo.podInfoMaintainer.mayBePreempted type).lookup q.uid = some p at hp
  rw [huid, hq] at hp
  obtain rfl := Option.some.inj hp
  change q.getPodPriority < mid + 1 at hupper
  omega

/-- The plugins that prepare the preemption state of the node return no error. -/
def Prepares : Prop := (gs.prepare state pod nodeInfo gs.newPreemptionState).2 = true

variable {gs state pod nodeInfo} in
theorem reached_step (hprepares : gs.Prepares state pod nodeInfo) {previousPriority priority : ℤ}
    (hint64 : minInt64 ≤ previousPriority) (hle : previousPriority ≤ priority) :
    gs.reached state pod nodeInfo priority =
      let before := gs.reached state pod nodeInfo previousPriority
      let found := gs.filterVictimsPods state pod before.1 before.2.node previousPriority
        (priority + 1) true
      (found.1, gs.removeVictims pod before.2 found.2) := by
  unfold reached filterVictimsPods
  cases gs.getPodResourceType state with
  | none => rfl
  | some type =>
    have happend : nodeInfo.getVictimCandidates gs.gates gs.orders minInt64 (priority + 1) type =
        nodeInfo.getVictimCandidates gs.gates gs.orders minInt64 (previousPriority + 1) type ++
          nodeInfo.getVictimCandidates gs.gates gs.orders previousPriority (priority + 1) type :=
      nodeInfo.podInfoMaintainer.getVictimCandidates_append hint64 hle
    have hbelow : Below (⟨state, nodeInfo⟩ : World σ).node type previousPriority _ :=
      below_filterVictims gs state pod nodeInfo type minInt64 previousPriority
        (gs.prepare state pod nodeInfo gs.newPreemptionState).1
    obtain ⟨hcandidates, hname⟩ := hbelow.removeVictims gs pod (priority + 1)
    dsimp only at hcandidates hname ⊢
    simp only [Bool.false_eq_true, if_false, if_true, show (gs.prepare state pod nodeInfo
      gs.newPreemptionState).2 = true from hprepares, Bool.not_true]
    rw [happend, filterVictims_append, hcandidates, hname, removeVictims_append]

end

section

/-- No filter that accepts the preemptor rejects it after a pod was taken off the copy of the
node. -/
def MonotoneUnderRemoval (w₀ : World σ) : Prop :=
  ∀ (gone : List Pod) (rp : Pod), ∀ pl ∈ gs.framework.filterPlugins,
    let w := gs.removeVictims pod w₀ gone
    let w' := (removePod gs.gates gs.orders gs.framework pod w rp).1
    pl.Accepts w.state pod (some w.node) → pl.Accepts w'.state pod (some w'.node)

variable {gs pod} in
theorem MonotoneUnderRemoval.append {w₀ : World σ} (h : gs.MonotoneUnderRemoval pod w₀)
    (gone more : List Pod) {pl : FilterPlugin σ} (hpl : pl ∈ gs.framework.filterPlugins)
    (haccepts : pl.Accepts (gs.removeVictims pod w₀ gone).state pod
      (some (gs.removeVictims pod w₀ gone).node)) :
    pl.Accepts (gs.removeVictims pod w₀ (gone ++ more)).state pod
      (some (gs.removeVictims pod w₀ (gone ++ more)).node) := by
  induction more generalizing gone with
  | nil => rwa [append_nil]
  | cons rp more ih =>
    rw [append_cons]
    apply ih
    rw [removeVictims_append]
    exact h gone rp pl hpl haccepts

/-- The preemption state and the copy of a node before the first round, or after a round with a
priority. -/
def level (nodeInfo : SearchNode) : Option ℤ → Option (PreemptionState ψ) × World σ
  | none => (none, ⟨state, nodeInfo⟩)
  | some priority =>
    (some (gs.reached state pod nodeInfo priority).1, (gs.reached state pod nodeInfo priority).2)

/-- The slot holds what the last round left of the node. -/
structure AtLevel (nodeInfo : SearchNode) (previous : Option ℤ) (slot : Slot σ ψ) : Prop where
  node : slot.nodeInfo = some (gs.level state pod nodeInfo previous).2.node
  worldState : slot.state.getD state = (gs.level state pod nodeInfo previous).2.state
  preemptionState : slot.preemptionState = (gs.level state pod nodeInfo previous).1

/-- The priority of the last round is at most this one, and a 64-bit number. -/
def Precedes (previous : Option ℤ) (priority : ℤ) : Prop :=
  ∀ q ∈ previous, minInt64 ≤ q ∧ q ≤ priority

variable {gs state pod resourceType} {nodeInfo : SearchNode} {previous : Option ℤ} {priority : ℤ}
  {slot : Slot σ ψ}

theorem AtLevel.searchSlot (h : gs.AtLevel state pod nodeInfo previous slot)
    (hprepares : gs.Prepares state pod nodeInfo) (hprev : Precedes previous priority) :
    ∃ potentialVictims, gs.searchSlot state pod (previous.getD minInt64) priority slot
        (gs.level state pod nodeInfo previous).2.node =
          ((gs.reached state pod nodeInfo priority).1, potentialVictims) ∧
      gs.removeVictims pod ⟨slot.state.getD state, (gs.level state pod nodeInfo previous).2.node⟩
        potentialVictims = (gs.reached state pod nodeInfo priority).2 := by
  rw [PodScheduler.searchSlot, h.worldState, h.preemptionState]
  cases previous with
  | none => exact ⟨_, rfl, rfl⟩
  | some q =>
    obtain ⟨hint64, hle⟩ := hprev q rfl
    rw [reached_step hprepares hint64 hle]
    exact ⟨_, rfl, rfl⟩

/-- A node that went through a round has passed the check of its resources, so that it is dropped
exactly if it fails the check at all. -/
theorem dropped_eq (state : σ) {first : Bool} (hfirst : first = true → previous = none)
    (hpassed : first = false → gs.passesOccupiableResourcesCheck pod resourceType nodeInfo = true) :
    (first && !gs.passesOccupiableResourcesCheck pod resourceType
        (gs.level state pod nodeInfo previous).2.node) =
      !gs.passesOccupiableResourcesCheck pod resourceType nodeInfo := by
  cases first with
  | false =>
    rw [hpassed rfl]
    rfl
  | true =>
    rw [hfirst rfl]
    rfl

/-- The filters that are left out do not matter if they accept the preemptor. -/
theorem accepts_eq (skipPlugins : List String)
    (hpassed : gs.passesOccupiableResourcesCheck pod resourceType nodeInfo = true)
    (hskips : (gs.reached state pod nodeInfo priority).2.Skips gs.framework pod skipPlugins) :
    gs.accepts state pod resourceType nodeInfo priority =
      (podPassesFiltersOnNode gs.framework (gs.reached state pod nodeInfo priority).2.state pod
        (some (gs.reached state pod nodeInfo priority).2.node) skipPlugins).1 := by
  rw [accepts, hpassed, Bool.true_and, ← hskips.fits_eq]
  rfl

variable (gs state pod nodeInfo) in
/-- What the rounds need of a node. -/
structure Searchable : Prop where
  prepares : gs.Prepares state pod nodeInfo
  monotone : gs.MonotoneUnderRemoval pod ⟨state, nodeInfo⟩

variable (h : gs.Searchable state pod nodeInfo)
include h

theorem Searchable.level (hprev : Precedes previous priority) {pl : FilterPlugin σ}
    (hpl : pl ∈ gs.framework.filterPlugins)
    (haccepts : pl.Accepts (gs.level state pod nodeInfo previous).2.state pod
      (some (gs.level state pod nodeInfo previous).2.node)) :
    pl.Accepts (gs.reached state pod nodeInfo priority).2.state pod
      (some (gs.reached state pod nodeInfo priority).2.node) := by
  cases previous with
  | none => exact h.monotone.append [] _ hpl haccepts
  | some q =>
    obtain ⟨hint64, hle⟩ := hprev q rfl
    rw [reached_step h.prepares hint64 hle]
    dsimp only
    rw [reached, ← removeVictims_append]
    exact h.monotone.append _ _ hpl haccepts

theorem Searchable.skips (hprev : Precedes previous priority) {skipPlugins : List String}
    (hskips : (gs.level state pod nodeInfo previous).2.Skips gs.framework pod skipPlugins) :
    (gs.reached state pod nodeInfo priority).2.Skips gs.framework pod skipPlugins :=
  fun pl hpl hskip => h.level hprev hpl (hskips pl hpl hskip)

theorem Searchable.accepts {q : ℤ} (hint64 : minInt64 ≤ q) (hle : q ≤ priority)
    (haccepts : gs.accepts state pod resourceType nodeInfo q = true) :
    gs.accepts state pod resourceType nodeInfo priority = true := by
  have hprev : Precedes (some q) priority := by
    rintro _ ⟨⟩
    exact ⟨hint64, hle⟩
  rw [PodScheduler.accepts, Bool.and_eq_true, World.fits_iff] at haccepts ⊢
  exact ⟨haccepts.1, fun pl hpl hskip => h.level hprev hpl (haccepts.2 pl hpl hskip)⟩

end

section

/-- The node at an index, if there is one, accepts the preemptor. -/
def nodeAccepts (nodesList : List (Option SearchNode)) (priority : ℤ) (i : ℕ) : Bool :=
  (nodesList.getD i none).any fun n => gs.accepts state pod resourceType n priority

/-- A search found nothing because no node ever accepts the preemptor; or it found nodes that accept
it at the first priority at which any node does. -/
def Finds (prioritiesSlice : List ℤ) (nodesList : List (Option SearchNode))
    (result : SearchResult σ ψ) : Prop :=
  (result.nominatedNodeIndex = [] ∧ result.maxVictimPriorityIndex = -1 ∧
      ∀ priority ∈ prioritiesSlice, ∀ i,
        gs.nodeAccepts state pod resourceType nodesList priority i = false) ∨
    ∃ earlier priority later, prioritiesSlice = earlier ++ priority :: later ∧
      result.maxVictimPriorityIndex = earlier.length ∧ result.nominatedNodeIndex ≠ [] ∧
      (∀ i ∈ result.nominatedNodeIndex,
        gs.nodeAccepts state pod resourceType nodesList priority i = true) ∧
      ∀ q ∈ earlier, ∀ i, gs.nodeAccepts state pod resourceType nodesList q i = false

variable {gs state pod resourceType} {nodesList : List (Option SearchNode)} {priority : ℤ}

theorem mem_of_getD {i : ℕ} {n : SearchNode} (h : nodesList.getD i none = some n) :
    some n ∈ nodesList := by
  rw [getD_eq_getElem?_getD] at h
  cases hi : nodesList[i]? with
  | none =>
    rw [hi] at h
    cases h
  | some node =>
    rw [hi] at h
    exact h ▸ mem_of_getElem? hi

theorem nodeAccepts_eq_false (h : ∀ i < nodesList.length,
    gs.nodeAccepts state pod resourceType nodesList priority i = false) (i : ℕ) :
    gs.nodeAccepts state pod resourceType nodesList priority i = false := by
  rcases lt_or_ge i nodesList.length with hi | hi
  · exact h i hi
  · rw [nodeAccepts, getD_eq_getElem?_getD, List.getElem?_eq_none hi]
    rfl

end

end PodScheduler

end GodelScheduler.Preemption
