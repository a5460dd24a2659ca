import GodelScheduler.Binder.VictimChecking
import GodelScheduler.Preemption.Filters
import GodelScheduler.Preemption.OccupiableResources

/-!
# The search for victims on a node

The pods of a node that may be preempted are asked about one after the other, from the
lowest priority on. The plugins of the preemption framework decide, with the preemption
state of the node as their memory; they are arbitrary functions here. A pod that only a
quick-pass collection lets through is a victim all the same, but is remembered as one that
should not be preempted.

The search over two adjacent ranges of priorities, the second with the state the first one
left, is the search over both (`filterVictims_append`).
-/

namespace GodelScheduler.Preemption

open Library
open Binder.Preemption (Code generatePodKey)

section

/-- The preemption state, and whether the plugin returned no error. -/
abbrev NodePrePreemptingPlugin (σ ψ : Type) := Pod → SearchNode → σ → ψ → ψ × Bool

/-- The preemption state, the victim state and the plugin's answer. -/
abbrev VictimSearchingPlugin (σ ψ υ : Type) := Pod → PodInfo → σ → ψ → υ → ψ × υ × Code

/-- The preemption state, and whether the plugin succeeded. -/
abbrev PostVictimSearchingPlugin (σ ψ υ : Type) := Pod → PodInfo → σ → ψ → υ → ψ × Bool

structure VictimSearchingPluginCollection (σ ψ υ : Type) where
  forceQuickPass : Bool := false
  enableQuickPass : Bool := false
  rejectNotSure : Bool := false
  plugins : List (VictimSearchingPlugin σ ψ υ)

structure PreemptionFramework (σ ψ υ : Type) where
  /-- What the plugins write to a new preemption state; the PDB checker writes its copy of the
  budgets. -/
  nodePrePreemptingPlugins : List (NodePrePreemptingPlugin σ ψ) := []
  victimSearchingPlugins : List (VictimSearchingPluginCollection σ ψ υ)
  postVictimSearchingPlugins : List (PostVictimSearchingPlugin σ ψ υ) := []
  newVictimState : υ

variable {σ ψ υ : Type} (preemptor : Pod) (podInfo : PodInfo) (state : σ)

/-- The plugins run until one returns an error. -/
def runNodePrePreemptingPlugins (nodeInfo : SearchNode) :
    List (NodePrePreemptingPlugin σ ψ) → ψ → ψ × Bool
  | [], preemptionState => (preemptionState, true)
  | pl :: rest, preemptionState =>
    match pl preemptor nodeInfo state preemptionState with
    | (preemptionState, false) => (preemptionState, false)
    | (preemptionState, true) => runNodePrePreemptingPlugins nodeInfo rest preemptionState

def runVictimSearchingPluginCollection : List (VictimSearchingPlugin σ ψ υ) → ψ → υ → ψ × υ × Code
  | [], preemptionState, victimState => (preemptionState, victimState, .preemptionNotSure)
  | plugin :: rest, preemptionState, victimState =>
    match plugin preemptor podInfo state preemptionState victimState with
    | (preemptionState, victimState, .preemptionFail) =>
      (preemptionState, victimState, .preemptionFail)
    | (preemptionState, victimState, .preemptionSucceed) =>
      (preemptionState, victimState, .preemptionSucceed)
    | (preemptionState, victimState, .preemptionNotSure) =>
      runVictimSearchingPluginCollection rest preemptionState victimState
    | (preemptionState, victimState, .other _) =>
      (preemptionState, victimState, .preemptionFail)

/-- The outcome for one pod: the two states, the code, and whether the pod was let through by a
quick pass only, so that it joins the pods that can not be preempted. -/
structure VictimOutcome (ψ υ : Type) where
  preemptionState : ψ
  victimState : υ
  code : Code
  canNotBePreempted : Bool := false

/-- The collections from one on. After a quick pass a failure no longer counts. -/
def runVictimSearchingPlugins (pass quickPass : Bool) :
    List (VictimSearchingPluginCollection σ ψ υ) → ψ → υ → VictimOutcome ψ υ
  | [], preemptionState, victimState =>
    if quickPass then ⟨preemptionState, victimState, .preemptionSucceed, true⟩
    else if pass then ⟨preemptionState, victimState, .preemptionSucceed, false⟩
    else ⟨preemptionState, victimState, .preemptionFail, false⟩
  | collection :: rest, preemptionState, victimState =>
    match runVictimSearchingPluginCollection preemptor podInfo state collection.plugins
        preemptionState victimState with
    | (preemptionState, victimState, .preemptionFail) =>
      if quickPass then ⟨preemptionState, victimState, .preemptionSucceed, true⟩
      else ⟨preemptionState, victimState, .preemptionFail, false⟩
    | (preemptionState, victimState, .preemptionSucceed) =>
      if collection.forceQuickPass then ⟨preemptionState, victimState, .preemptionSucceed, false⟩
      else if collection.enableQuickPass then
        runVictimSearchingPlugins pass true rest preemptionState victimState
      else runVictimSearchingPlugins true quickPass rest preemptionState victimState
    | (preemptionState, victimState, .preemptionNotSure) =>
      if collection.rejectNotSure then
        if quickPass then ⟨preemptionState, victimState, .preemptionSucceed, true⟩
        else ⟨preemptionState, victimState, .preemptionFail, false⟩
      else runVictimSearchingPlugins pass quickPass rest preemptionState victimState
    | (preemptionState, victimState, .other _) =>
      runVictimSearchingPlugins pass quickPass rest preemptionState victimState

/-- The plugins run until one does not succeed. -/
def runPostVictimSearchingPlugins (victimState : υ) :
    List (PostVictimSearchingPlugin σ ψ υ) → ψ → ψ × Bool
  | [], preemptionState => (preemptionState, true)
  | pl :: rest, preemptionState =>
    match pl preemptor podInfo state preemptionState victimState with
    | (preemptionState, false) => (preemptionState, false)
    | (preemptionState, true) => runPostVictimSearchingPlugins victimState rest preemptionState

end

/-- The preemption state of one node: the plugins' part and the keys of the pods that a quick pass
let through. -/
structure PreemptionState (ψ : Type) where
  plugins : ψ
  podsCanNotBePreempted : List String := []
  deriving DecidableEq

/-- The scheduler of pods, with what it reads from its caches. -/
structure PodScheduler (σ ψ υ : Type) where
  gates : FeatureGates
  orders : ResourceOrders
  framework : SchedulerFramework σ
  preemptionFramework : PreemptionFramework σ ψ υ
  newCycleState : ψ
  /-- The resource type written to the cycle state, `none` if there is none. -/
  getPodResourceType : σ → Option PodResourceType
  getPreemptorsByVictim : Option NodeName → String → List String

def isPodInSpecifiedVictimList (pod : Pod) : Option (List String) → Bool
  | none => true
  | some specifiedVictimList =>
    let podAppName := pod.getBestEffortPodAppName
    podAppName == "" || specifiedVictimList.contains podAppName

def minInt64 : ℤ := -9223372036854775808

namespace PodScheduler

variable {σ ψ υ : Type} (gs : PodScheduler σ ψ υ) (state : σ) (preemptor : Pod)

def newPreemptionState : PreemptionState ψ := { plugins := gs.newCycleState }

/-- Ask about one pod: the preemption state, and whether the pod is a potential victim. -/
def filterVictim (nodeName : Option NodeName) (preemptionState : PreemptionState ψ)
    (pi : PodInfo) : PreemptionState ψ × Bool :=
  let podKey := generatePodKey pi.pod
  if (gs.getPreemptorsByVictim nodeName podKey).length > 0 then (preemptionState, false)
  else if !isPodInSpecifiedVictimList pi.pod preemptor.potentialVictims then
    (preemptionState, false)
  else
    let pf := gs.preemptionFramework
    let r := runVictimSearchingPlugins preemptor pi state false false pf.victimSearchingPlugins
      preemptionState.plugins pf.newVictimState
    let podsCanNotBePreempted :=
      if r.canNotBePreempted then preemptionState.podsCanNotBePreempted ++ [podKey]
      else preemptionState.podsCanNotBePreempted
    match r.code with
    | .preemptionSucceed =>
      let (plugins, ok) := runPostVictimSearchingPlugins preemptor pi state r.victimState
        pf.postVictimSearchingPlugins r.preemptionState
      (⟨plugins, podsCanNotBePreempted⟩, ok)
    | _ => (⟨r.preemptionState, podsCanNotBePreempted⟩, false)

def filterVictims (nodeName : Option NodeName) :
    List PodInfo → PreemptionState ψ → PreemptionState ψ × List Pod
  | [], preemptionState => (preemptionState, [])
  | pi :: rest, preemptionState =>
    let (preemptionState, isVictim) := gs.filterVictim state preemptor nodeName preemptionState pi
    let (preemptionState, potentialVictims) := filterVictims nodeName rest preemptionState
    (preemptionState, if isVictim then pi.pod :: potentialVictims else potentialVictims)

/-- The preemption state of a node before the first pod is asked about, and whether there was no
error. -/
def prepare (nodeInfo : SearchNode) (preemptionState : PreemptionState ψ) :
    PreemptionState ψ × Bool :=
  let (plugins, ok) := runNodePrePreemptingPlugins preemptor state nodeInfo
    gs.preemptionFramework.nodePrePreemptingPlugins preemptionState.plugins
  ({ preemptionState with plugins }, ok)

def filterVictimsPods (preemptionState : PreemptionState ψ) (nodeInfo : SearchNode)
    (priorityLower priorityUpper : ℤ) (checked : Bool) : PreemptionState ψ × List Pod :=
  match gs.getPodResourceType state with
  | none => (preemptionState, [])
  | some podResourceType =>
    let (preemptionState, ok) :=
      if checked then (preemptionState, true)
      else gs.prepare state preemptor nodeInfo preemptionState
    if !ok then (preemptionState, [])
    else
      gs.filterVictims state preemptor nodeInfo.getNodeName (nodeInfo.getVictimCandidates gs.gates
        gs.orders priorityLower priorityUpper podResourceType) preemptionState

variable {gs state preemptor}

theorem filterVictims_append (nodeName : Option NodeName) (l l' : List PodInfo)
    (preemptionState : PreemptionState ψ) :
    gs.filterVictims state preemptor nodeName (l ++ l') preemptionState =
      let first := gs.filterVictims state preemptor nodeName l preemptionState
      let second := gs.filterVictims state preemptor nodeName l' first.1
      (second.1, first.2 ++ second.2) := by
  induction l generalizing preemptionState with
  | nil => rfl
  | cons pi rest ih =>
    simp only [List.cons_append, filterVictims, ih]
    split_ifs <;> rfl

theorem filterVictims_sublist (nodeName : Option NodeName) (l : List PodInfo)
    (preemptionState : PreemptionState ψ) :
    (gs.filterVictims state preemptor nodeName l preemptionState).2.Sublist
      (l.map PodInfo.pod) := by
  induction l generalizing preemptionState with
  | nil => exact List.Sublist.slnil
  | cons pi rest ih =>
    simp only [filterVictims, List.map_cons]
    split_ifs
    · exact (ih _).cons_cons _
    · exact (ih _).cons _

variable (gs state preemptor) in
theorem filterVictimsPods_sublist (preemptionState : PreemptionState ψ) (nodeInfo : SearchNode)
    (lower upper : ℤ) (checked : Bool) :
    (gs.filterVictimsPods state preemptor preemptionState nodeInfo lower upper checked).2 = [] ∨
    ∃ type, (gs.filterVictimsPods state preemptor preemptionState nodeInfo lower upper
      checked).2.Sublist
        ((nodeInfo.getVictimCandidates gs.gates gs.orders lower upper type).map PodInfo.pod) := by
  unfold filterVictimsPods
  cases gs.getPodResourceType state with
  | none => exact .inl rfl
  | some type =>
    dsimp only
    split_ifs
    · exact .inl rfl
    · exact .inr ⟨type, filterVictims_sublist _ _ _⟩
    · exact .inl rfl
    · exact .inr ⟨type, filterVictims_sublist _ _ _⟩

end PodScheduler

end GodelScheduler.Preemption
