import GodelScheduler.SchedulerCache.PdbStore
import Mathlib.Data.List.DropRight

/-!
# The PDB checker of the victim search

For a victim the checker first asks the PDB store for the budgets of the victim's
owner, then a cache by the victim's labels, and only then goes through all budgets.
A victim fails if one of the budgets found has nothing left.

What is left is copied for each node that is searched, and the copy is decremented for
each victim found there. When a candidate is chosen, what is left is decremented for
its victims.

The plugins of the search are run in collections. Of these the PDB checker is
modelled; another plugin is its answer for the victim.
-/

namespace GodelScheduler.Searching

open Library SchedulerCache Binder.Preemption Option

/-- The labels in the order of their keys. -/
def formatLabels (labels : GoMap String String) : String :=
  let keys := labels.keys.insertionSort (· ≤ ·)
  let s := keys.foldl (fun s k => s ++ k ++ ":" ++ (labels.lookup k).getD "" ++ "&") ""
  String.ofList (s.toList.rdropWhile (· == '&'))

/-- What the preemptors of a unit share. The checker's own fields are the same slices. -/
structure PDBCommonState where
  pdbsNameToIndexes : GoMap String ℕ
  pdbItems : List PDBItemImpl
  pdbsAllowed : List ℤ

/-- The matched indexes by formatted labels. -/
abbrev PDBState := GoMap String (List ℕ)

variable (store : PdbStore)

section

/-- Later items overwrite earlier ones. -/
def indexByName (pdbItems : List PDBItemImpl) : GoMap String ℕ :=
  pdbItems.zipIdx.foldl (fun m e => m.insert e.1.key e.2) ∅

def newPDBCommonState (o : RangeOrder PDBItemImpl) : PDBCommonState :=
  let pdbItems := store.getPDBItemList o
  { pdbsNameToIndexes := indexByName pdbItems
    pdbItems := pdbItems
    pdbsAllowed := pdbItems.map fun pdbItem => pdbItem.pdb.disruptionsAllowed }

/-- The first preemptor of a unit sets the common state. The PDB state is new for each one. -/
def clusterPrePreempting (o : RangeOrder PDBItemImpl)
    (commonState : Option PDBCommonState) : PDBCommonState × PDBState :=
  (commonState.getD (newPDBCommonState store o), ∅)

variable (store : PdbStore) (common : PDBCommonState) (o : RangeOrder String) (pod : Pod)

/-- `none` if the indexes are not found through the owner. -/
def getMatchedPDBIndexesFromOwner : Option (List ℕ) := do
  let owner ← pod.getOwnerInfo
  let (pdbUpdated, matchedPDBNames) ← store.getPDBsForOwner o owner
  if pdbUpdated && !equalMap (store.getOwnerLabels owner) pod.labels then none
  else some (matchedPDBNames.map fun pdbName => (common.pdbsNameToIndexes.lookup pdbName).getD 0)

def checkPodDisruptionBudgetViolation (pdbsAllowed : List ℤ) (matchedPDBIndexes : List ℕ) : Bool :=
  matchedPDBIndexes.any fun index => decide (pdbsAllowed.getD index 0 ≤ 0)

/-- The budgets as the full scan reads them. -/
def scan (pdbsAllowed : List ℤ) : Bool × List ℕ :=
  Binder.Preemption.checkPodDisruptionBudgetViolation pod pdbsAllowed
    (common.pdbItems.map PDBItemImpl.toPDBItem)

def answer (violating : Bool) : Code × String :=
  if violating then (.preemptionFail, "violating pdb") else (.preemptionNotSure, "")

/-- The PDB state and the matched indexes of the victim state, then the result. -/
def victimSearching (pdbsAllowed : List ℤ) (s : PDBState) : PDBState × List ℕ × Code × String :=
  match getMatchedPDBIndexesFromOwner store common o pod with
  | some matchedPDBIndexes =>
    (s, matchedPDBIndexes, answer (checkPodDisruptionBudgetViolation pdbsAllowed matchedPDBIndexes))
  | none =>
    let labels := formatLabels pod.labels
    match s.lookup labels with
    | some matchedPDBIndexes =>
      (s, matchedPDBIndexes,
        answer (checkPodDisruptionBudgetViolation pdbsAllowed matchedPDBIndexes))
    | none =>
      let (violating, matchedPDBIndexes) := scan common pod pdbsAllowed
      (s.insert labels matchedPDBIndexes, matchedPDBIndexes, answer violating)

/-- Decrement the node's copy. The victim state is `none` if the checker was not asked. -/
def postVictimSearching (s : PDBState) (victimState : Option (List ℕ)) (pdbsAllowed : List ℤ) :
    List ℤ :=
  let matchedPDBIndexes :=
    match victimState with
    | some matchedPDBIndexes => matchedPDBIndexes
    | none =>
      match getMatchedPDBIndexesFromOwner store common o pod with
      | some matchedPDBIndexes => matchedPDBIndexes
      | none => (s.lookup (formatLabels pod.labels)).getD (scan common pod pdbsAllowed).2
  decrement pdbsAllowed matchedPDBIndexes

def commitVictim (pdbItems : List PDBItemImpl) (pdbsAllowed : List ℤ) (victim : Pod) : List ℤ :=
  pdbItems.zipIdx.foldl
    (fun allowed e =>
      if pdbMatched victim e.1.toPDBItem then allowed.modify e.2 (· - 1) else allowed) pdbsAllowed

def nodePostPreempting (victims : List Pod) : PDBCommonState :=
  { common with pdbsAllowed := victims.foldl (commitVictim common.pdbItems) common.pdbsAllowed }

end

section

inductive Plugin
  | pdbChecker
  /-- The answers of another plugin for the victim. -/
  | other (victimSearching : Code × String) (postVictimSearching : Option String)

structure VictimSearchingPluginCollection where
  forceQuickPass : Bool := false
  enableQuickPass : Bool := false
  rejectNotSure : Bool := false
  plugins : List Plugin

abbrev PreemptionFramework := List VictimSearchingPluginCollection

def PreemptionFramework.plugins (f : PreemptionFramework) : List Plugin :=
  f.flatMap fun collection => collection.plugins

variable (store : PdbStore) (common : PDBCommonState) (o : RangeOrder String) (pod : Pod)
  (pdbsAllowed : List ℤ)

/-- The PDB state and the victim state while the plugins are asked about one victim. -/
structure VictimRun where
  pdbState : PDBState
  victimState : Option (List ℕ) := none

def Plugin.victimSearching (run : VictimRun) : Plugin → VictimRun × Code × String
  | .pdbChecker =>
    let (pdbState, indexes, result) := Searching.victimSearching store common o pod pdbsAllowed
      run.pdbState
    ({ pdbState := pdbState, victimState := some indexes }, result)
  | .other result _ => (run, result)

def runVictimSearchingPluginCollection : List Plugin → VictimRun → VictimRun × Code × String
  | [], run => (run, .preemptionNotSure, "")
  | plugin :: rest, run =>
    match plugin.victimSearching store common o pod pdbsAllowed run with
    | (run, .preemptionFail, msg) => (run, .preemptionFail, msg)
    | (run, .preemptionSucceed, msg) => (run, .preemptionSucceed, msg)
    | (run, .preemptionNotSure, _) => runVictimSearchingPluginCollection rest run
    | (run, .other code, _) =>
      (run, .preemptionFail, s!"unknown preemption result {code} for plugin")

/-- The collections from number `i` on. After a quick pass a failure no longer counts. -/
def runVictimSearchingPlugins (i : ℕ) (pass quickPass : Bool) :
    PreemptionFramework → VictimRun → VictimRun × Code × String
  | [], run =>
    if quickPass || pass then (run, .preemptionSucceed, "")
    else (run, .preemptionFail, "all plugins return not sure")
  | collection :: rest, run =>
    match runVictimSearchingPluginCollection store common o pod pdbsAllowed collection.plugins run
      with
    | (run, .preemptionFail, msg) =>
      if quickPass then (run, .preemptionSucceed, "") else (run, .preemptionFail, msg)
    | (run, .preemptionSucceed, _) =>
      if collection.forceQuickPass then (run, .preemptionSucceed, "")
      else if collection.enableQuickPass then
        runVictimSearchingPlugins (i + 1) pass true rest run
      else runVictimSearchingPlugins (i + 1) true quickPass rest run
    | (run, .preemptionNotSure, _) =>
      if collection.rejectNotSure then
        if quickPass then (run, .preemptionSucceed, "")
        else (run, .preemptionFail, s!"reject not sure result for collection {i}")
      else runVictimSearchingPlugins (i + 1) pass quickPass rest run
    | (run, .other _, _) => runVictimSearchingPlugins (i + 1) pass quickPass rest run

/-- The node's copy of the budgets after the plugins, and an error. -/
def runPostVictimSearchingPlugins (run : VictimRun) : List Plugin → List ℤ → List ℤ × Option String
  | [], pdbsAllowed => (pdbsAllowed, none)
  | .pdbChecker :: rest, pdbsAllowed =>
    runPostVictimSearchingPlugins run rest
      (postVictimSearching store common o pod run.pdbState run.victimState pdbsAllowed)
  | .other _ (some err) :: _, pdbsAllowed => (pdbsAllowed, some err)
  | .other _ none :: rest, pdbsAllowed => runPostVictimSearchingPlugins run rest pdbsAllowed

end

section

/-- A pod of a node that is asked about, with the plugins' answers for it. -/
structure Candidate where
  pod : Pod
  framework : PreemptionFramework
  order : RangeOrder String := .forward

/-- The preemption state of a node and the potential victims found on it. -/
structure NodeSearch where
  pdbsAllowed : List ℤ
  potentialVictims : List Pod := []

/-- The body of the loop of `FilterVictimsPods`. -/
def filterVictim (common : PDBCommonState) (candidate : Candidate)
    (pdbState : PDBState) (search : NodeSearch) : PDBState × NodeSearch :=
  match runVictimSearchingPlugins store common candidate.order candidate.pod search.pdbsAllowed 0
      false false candidate.framework { pdbState := pdbState } with
  | (run, .preemptionSucceed, _) =>
    match runPostVictimSearchingPlugins store common candidate.order candidate.pod run
        candidate.framework.plugins search.pdbsAllowed with
    | (pdbsAllowed, none) =>
      (run.pdbState, ⟨pdbsAllowed, search.potentialVictims ++ [candidate.pod]⟩)
    | (pdbsAllowed, some _) => (run.pdbState, { search with pdbsAllowed := pdbsAllowed })
  | (run, _, _) => (run.pdbState, search)

/-- The preemptions of a unit. The searches are those since the last candidate was chosen. -/
structure UnitRun where
  common : Option PDBCommonState := none
  pdbState : PDBState := ∅
  searches : GoMap ℕ NodeSearch := ∅
  /-- The victims of all chosen candidates. -/
  chosen : List Pod := []

/-- Nodes are searched side by side; a search has a number. -/
inductive Event
  | clusterPrePreempting
  | nodePrePreempting (n : ℕ)
  | victimSearching (n : ℕ) (candidate : Candidate)
  | nodePostPreempting (n : ℕ) (victims : List Pod)

namespace UnitRun

def clusterPrePreempting (store : PdbStore) (o : RangeOrder PDBItemImpl) (s : UnitRun) : UnitRun :=
  let (common, pdbState) := Searching.clusterPrePreempting store o s.common
  { s with
    common := some common
    pdbState := pdbState
    searches := ∅ }

def nodePrePreempting (s : UnitRun) (common : PDBCommonState) (n : ℕ) : UnitRun :=
  { s with searches := s.searches.insert n { pdbsAllowed := common.pdbsAllowed } }

def victimSearching (s : UnitRun) (common : PDBCommonState) (n : ℕ)
    (search : NodeSearch) (candidate : Candidate) : UnitRun :=
  let (pdbState, search) := filterVictim store common candidate s.pdbState search
  { s with
    pdbState := pdbState
    searches := s.searches.insert n search }

/-- A candidate's victims are some of the potential victims of its search. -/
def nodePostPreempting (s : UnitRun) (common : PDBCommonState) (search : NodeSearch)
    (victims : List Pod) : UnitRun :=
  if victims.Subperm search.potentialVictims then
    { s with
      common := some (Searching.nodePostPreempting common victims)
      searches := ∅
      chosen := s.chosen ++ victims }
  else s

end UnitRun

/-- Nothing is searched before the first preemptor, or without a search. -/
def step (o : RangeOrder PDBItemImpl) (s : UnitRun) : Event → UnitRun
  | .clusterPrePreempting => s.clusterPrePreempting store o
  | .nodePrePreempting n =>
    match s.common with
    | none => s
    | some common => s.nodePrePreempting common n
  | .victimSearching n candidate =>
    match s.common, s.searches.lookup n with
    | some common, some search => s.victimSearching store common n search candidate
    | _, _ => s
  | .nodePostPreempting n victims =>
    match s.common, s.searches.lookup n with
    | some common, some search => s.nodePostPreempting common search victims
    | _, _ => s

end

section

variable (store : PdbStore) (common : PDBCommonState) (o : RangeOrder String) (pod : Pod)
  (pdbsAllowed : List ℤ) (s : PDBState)

/-- The entry of the pod's owner, if its budgets may be used for the pod. -/
def usableOwner : Option OwnerItem := do
  let owner ← pod.getOwnerInfo
  let ownerItem ← store.owners.lookup owner
  if ownerItem.pdbUpdated && !equalMap ownerItem.ownerLabels pod.labels then none
  else some ownerItem

theorem getMatchedPDBIndexesFromOwner_eq :
    getMatchedPDBIndexesFromOwner store common o pod =
      (usableOwner store pod).map fun ownerItem => (o.list ownerItem.pdbs.keys).map fun pdbName =>
        (common.pdbsNameToIndexes.lookup pdbName).getD 0 := by
  unfold getMatchedPDBIndexesFromOwner usableOwner
  cases pod.getOwnerInfo with
  | none => rfl
  | some owner =>
    simp only [PdbStore.getPDBsForOwner, PdbStore.getOwnerLabels, bind_eq_bind,
      bind_some]
    rcases eq_none_or_eq_some (store.owners.lookup owner) with hnone | ⟨ownerItem, hsome⟩
    · simp [hnone]
    · simp only [hsome, map_some, bind_some, elim_some]
      split_ifs <;> rfl

/-- The indexes found for a victim, by the state of the label cache. -/
def matchedIndexes : List ℕ :=
  match getMatchedPDBIndexesFromOwner store common o pod with
  | some matchedPDBIndexes => matchedPDBIndexes
  | none => (s.lookup (formatLabels pod.labels)).getD (scan common pod []).2

theorem scan_indexes : (scan common pod pdbsAllowed).2 = (scan common pod []).2 := by
  unfold scan Binder.Preemption.checkPodDisruptionBudgetViolation
  split_ifs
  · rfl
  · simp only [indexes_foldl_checkItem]

theorem indexes_victimSearching :
    (victimSearching store common o pod pdbsAllowed s).2.1 =
      matchedIndexes store common o pod s := by
  unfold victimSearching matchedIndexes
  cases getMatchedPDBIndexesFromOwner store common o pod with
  | some matchedPDBIndexes => rfl
  | none =>
    cases hlookup : s.lookup (formatLabels pod.labels) with
    | some matchedPDBIndexes => simp [hlookup]
    | none => simp [hlookup, scan_indexes common pod pdbsAllowed]

theorem pdbState_victimSearching :
    (victimSearching store common o pod pdbsAllowed s).1 =
      if (usableOwner store pod).isSome then s
      else s.remember (formatLabels pod.labels) (scan common pod []).2 := by
  unfold victimSearching
  rw [getMatchedPDBIndexesFromOwner_eq]
  cases usableOwner store pod with
  | some ownerItem => rfl
  | none =>
    simp only [map_none, isSome_none, Bool.false_eq_true, if_false]
    unfold GoMap.remember
    cases s.lookup (formatLabels pod.labels) with
    | some matchedPDBIndexes => rfl
    | none => simp [scan_indexes common pod pdbsAllowed]

theorem matchedIndexes_victimSearching :
    matchedIndexes store common o pod (victimSearching store common o pod pdbsAllowed s).1 =
      matchedIndexes store common o pod s := by
  rw [pdbState_victimSearching]
  unfold matchedIndexes
  rw [getMatchedPDBIndexesFromOwner_eq]
  cases usableOwner store pod with
  | some ownerItem => rfl
  | none =>
    simp only [map_none, isSome_none, Bool.false_eq_true, if_false]
    rw [GoMap.lookup_remember, if_pos rfl]
    cases s.lookup (formatLabels pod.labels) with
    | some matchedPDBIndexes => rfl
    | none => rfl

end

end GodelScheduler.Searching
