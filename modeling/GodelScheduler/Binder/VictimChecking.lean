import GodelScheduler.Binder.UnitInfo

/-!
# The plugins that check victims

A preemptor's victims go through the plugins of its framework one by one. Of these
the PDB checker is modelled; another plugin is its answers. The checker refuses a
victim that would bring a budget below zero, and afterwards takes a victim that
passed off the budgets it matches.
-/

namespace GodelScheduler.Binder.Preemption

open Library List

section

inductive Operator
  | opIn
  | opNotIn
  | opExists
  | opDoesNotExist
  deriving DecidableEq, Repr

structure Requirement where
  key : String
  operator : Operator
  values : List String := []
  deriving DecidableEq, Repr

def Requirement.matches (r : Requirement) (labels : GoMap String String) : Bool :=
  match r.operator, labels.lookup r.key with
  | .opIn, some value => decide (value ∈ r.values)
  | .opIn, none => false
  | .opNotIn, some value => decide (value ∉ r.values)
  | .opNotIn, none => true
  | .opExists, value => value.isSome
  | .opDoesNotExist, value => value.isNone

/-- A label selector: the one that matches nothing, or a list of requirements. -/
inductive Selector
  | nothing
  | requirements (rs : List Requirement)

def Selector.empty : Selector → Bool
  | .nothing => false
  | .requirements rs => rs.isEmpty

def Selector.matches (labels : GoMap String String) : Selector → Bool
  | .nothing => false
  | .requirements rs => rs.all fun r => r.matches labels

structure PodDisruptionBudget where
  ns : String
  disruptionsAllowed : ℤ
  disruptedPods : Finset String := ∅

structure PDBItem where
  pdb : PodDisruptionBudget
  selector : Option Selector

/-- A pod that is being disrupted already does not match. -/
def pdbMatched (victim : Pod) (pdbItem : PDBItem) : Bool :=
  if pdbItem.pdb.ns ≠ victim.ns then false
  else
    match pdbItem.selector with
    | none => false
    | some selector =>
      if selector.empty || !selector.matches victim.labels then false
      else decide (victim.name ∉ pdbItem.pdb.disruptedPods)

/-- The budgets left, the indexes found and whether a budget is violated, after one more item. -/
def checkItem (victim : Pod) (s : List ℤ × List ℕ × Bool) (entry : PDBItem × ℕ) :
    List ℤ × List ℕ × Bool :=
  if !pdbMatched victim entry.1 then s
  else
    let pdbsAllowedCopy := s.1.modify entry.2 (· - 1)
    (pdbsAllowedCopy, s.2.1 ++ [entry.2], s.2.2 || decide (pdbsAllowedCopy.getD entry.2 0 < 0))

/-- A pod without labels is taken to match no budget. -/
def checkPodDisruptionBudgetViolation (victim : Pod) (pdbsAllowed : List ℤ)
    (pdbItems : List PDBItem) : Bool × List ℕ :=
  if victim.labels.len = 0 then (false, [])
  else
    let s := pdbItems.zipIdx.foldl (checkItem victim) (pdbsAllowed, [], false)
    (s.2.2, s.2.1)

/-- A victim the checker counts for a budget. -/
def counts (pdbItem : PDBItem) (victim : Pod) : Bool :=
  decide (victim.labels.len ≠ 0) && pdbMatched victim pdbItem

variable (victim : Pod) (entries : List (PDBItem × ℕ)) (s : List ℤ × List ℕ × Bool)

theorem indexes_foldl_checkItem :
    (entries.foldl (checkItem victim) s).2.1 =
      s.2.1 ++ (entries.filter fun entry => pdbMatched victim entry.1).map Prod.snd := by
  induction entries generalizing s with
  | nil => simp
  | cons entry entries ih =>
    rw [foldl_cons, ih, checkItem]
    cases hmatched : pdbMatched victim entry.1 <;> simp [hmatched]

/-- No budget is violated exactly if every budget that matches has something left. -/
theorem violating_foldl_checkItem_iff {entries : List (PDBItem × ℕ)}
    (hnd : (entries.map Prod.snd).Nodup) {s : List ℤ × List ℕ × Bool}
    (hlen : ∀ entry ∈ entries, entry.2 < s.1.length) :
    (entries.foldl (checkItem victim) s).2.2 = false ↔ s.2.2 = false ∧
      ∀ entry ∈ entries, pdbMatched victim entry.1 = true → 1 ≤ s.1.getD entry.2 0 := by
  induction entries generalizing s with
  | nil => simp
  | cons first entries ih =>
    obtain ⟨hfirst, hrest⟩ := (nodup_map_cons ..).mp hnd
    obtain ⟨hlt, hlen⟩ := forall_mem_cons.mp hlen
    rw [foldl_cons, ih hrest, forall_mem_cons]
    · cases hmatched : pdbMatched victim first.1 with
      | false => simp [checkItem, hmatched]
      | true =>
        have hother : ∀ entry ∈ entries, (s.1.modify first.2 (· - 1)).getD entry.2 0 =
            s.1.getD entry.2 0 := fun entry hmem => by
          simp only [getD_eq_getElem?_getD, List.getElem?_modify_ne _ _ (hfirst _ hmem).symm]
        have hself : (s.1.modify first.2 (· - 1)).getD first.2 0 = s.1.getD first.2 0 - 1 := by
          simp [getD_eq_getElem?_getD, List.getElem?_eq_getElem hlt]
        simp only [checkItem, hmatched, Bool.not_true, Bool.false_eq_true, if_false,
          Bool.or_eq_false_iff, decide_eq_false_iff_not, not_lt, hself, forall_const, and_assoc,
          sub_nonneg]
        refine and_congr_right fun _ => and_congr_right fun _ => forall₂_congr fun entry hmem => ?_
        rw [hother entry hmem]
    · intro entry hmem
      unfold checkItem
      split_ifs
      · exact hlen entry hmem
      · simpa using hlen entry hmem

section

variable {victim : Pod} {pdbsAllowed : List ℤ} {pdbItems : List PDBItem} {i : ℕ} {item : PDBItem}

theorem mem_indexes_iff (hitem : pdbItems[i]? = some item) :
    i ∈ (checkPodDisruptionBudgetViolation victim pdbsAllowed pdbItems).2 ↔
      counts item victim = true := by
  unfold checkPodDisruptionBudgetViolation counts
  by_cases hlabels : victim.labels.len = 0
  · simp [hlabels]
  · simp only [hlabels, if_false, indexes_foldl_checkItem, nil_append, mem_map,
      mem_filter, ne_eq, not_false_eq_true, decide_true, Bool.true_and]
    constructor
    · rintro ⟨⟨item', j⟩, ⟨hmem, hmatched⟩, rfl⟩
      rw [mem_zipIdx_iff_getElem?] at hmem
      rw [hitem, Option.some_inj] at hmem
      rw [hmem]
      exact hmatched
    · intro hmatched
      exact ⟨(item, i), ⟨mem_zipIdx_iff_getElem?.mpr hitem, hmatched⟩, rfl⟩

theorem violating_eq_false_iff (hlen : pdbsAllowed.length = pdbItems.length) :
    (checkPodDisruptionBudgetViolation victim pdbsAllowed pdbItems).1 = false ↔
      ∀ i item, pdbItems[i]? = some item → counts item victim = true →
        1 ≤ pdbsAllowed.getD i 0 := by
  unfold checkPodDisruptionBudgetViolation counts
  by_cases hlabels : victim.labels.len = 0
  · simp [hlabels]
  · rw [if_neg hlabels]
    dsimp only
    rw [violating_foldl_checkItem_iff]
    · simp only [hlabels, ne_eq, not_false_eq_true, decide_true, Bool.true_and, true_and,
        Prod.forall, mem_zipIdx_iff_getElem?]
      exact forall_comm
    · rw [zipIdx_map_snd]
      exact nodup_range'
    · intro entry hentry
      rw [hlen]
      exact (List.getElem?_eq_some_iff.mp (mem_zipIdx_iff_getElem?.mp hentry)).1

end

variable (pdbsAllowed : List ℤ) (indexes : List ℕ)

/-- Take one off each of the given budgets. -/
def decrement : List ℤ :=
  indexes.foldl (fun allowed index => allowed.modify index (· - 1)) pdbsAllowed

theorem length_decrement : (decrement pdbsAllowed indexes).length = pdbsAllowed.length := by
  unfold decrement
  induction indexes generalizing pdbsAllowed with
  | nil => rfl
  | cons index indexes ih =>
    rw [foldl_cons, ih, length_modify]

theorem getD_decrement {i : ℕ} (hi : i < pdbsAllowed.length) :
    (decrement pdbsAllowed indexes).getD i 0 = pdbsAllowed.getD i 0 - indexes.count i := by
  unfold decrement
  induction indexes generalizing pdbsAllowed with
  | nil => simp
  | cons index indexes ih =>
    rw [foldl_cons, ih _ (by rwa [length_modify]), count_cons]
    by_cases heq : index = i
    · subst heq
      simp only [getD_eq_getElem?_getD, List.getElem?_modify_eq,
        List.getElem?_eq_getElem hi, Option.map_eq_map, Option.map_some, Option.getD_some,
        beq_self_eq_true, if_true]
      omega
    · simp only [getD_eq_getElem?_getD, List.getElem?_modify_ne _ _ heq,
        beq_eq_false_iff_ne.mpr heq, Bool.false_eq_true, if_false, add_zero]

end

section

inductive Code
  | preemptionSucceed
  | preemptionFail
  | preemptionNotSure
  | other (code : ℤ)
  deriving DecidableEq, Repr

/-- The part of the unit's common state that the PDB checker uses. -/
structure CommonState where
  /-- The budgets left and the items they belong to, set by the first preemptor. -/
  pdbs : Option (List ℤ × List PDBItem) := none
  matchedPDBIndexes : GoMap String (List ℕ) := ∅

def generatePodKey (pod : Pod) : String := pod.ns ++ "/" ++ pod.name ++ "/" ++ pod.uid

namespace PDBChecker

/-- Only the first preemptor of the unit sets the budgets. -/
def clusterPrePreempting (pdbItems : List PDBItem) (commonState : CommonState) : CommonState :=
  match commonState.pdbs with
  | some _ => commonState
  | none =>
    { commonState with
      pdbs := some (pdbItems.map fun pdbItem => pdbItem.pdb.disruptionsAllowed, pdbItems) }

def victimChecking (pod : Pod) (commonState : CommonState) : CommonState × Code × String :=
  let pdbs := commonState.pdbs.getD ([], [])
  match checkPodDisruptionBudgetViolation pod pdbs.1 pdbs.2 with
  | (true, _) => (commonState, .preemptionFail, "violating pdb")
  | (false, indexes) =>
    ({ commonState with
      matchedPDBIndexes := commonState.matchedPDBIndexes.insert (generatePodKey pod) indexes },
      .preemptionNotSure, "")

def postVictimChecking (pod : Pod) (commonState : CommonState) : CommonState × Option String :=
  match commonState.pdbs with
  | none => (commonState, some "missed PDBsAllowed")
  | some (pdbsAllowed, pdbItems) =>
    let indexes := (commonState.matchedPDBIndexes.lookup (generatePodKey pod)).getD
      (checkPodDisruptionBudgetViolation pod pdbsAllowed pdbItems).2
    ({ commonState with pdbs := some (decrement pdbsAllowed indexes, pdbItems) }, none)

end PDBChecker

/-- The answers of another plugin for a preemptor and a victim. -/
structure OtherPlugin where
  clusterPrePreempting : Pod → Option String := fun _ => none
  victimChecking : Pod → Pod → Code × String
  postVictimChecking : Pod → Pod → Option String := fun _ _ => none

inductive Plugin
  | pdbChecker
  | other (plugin : OtherPlugin)

structure VictimCheckingPluginCollection where
  forceQuickPass : Bool := false
  enableQuickPass : Bool := false
  plugins : List Plugin

abbrev Framework := List VictimCheckingPluginCollection

def Framework.plugins (f : Framework) : List Plugin := f.flatMap fun collection =>
  collection.plugins

variable (pdbItems : List PDBItem) (preemptor pod : Pod)

def runClusterPrePreemptingPlugins : List Plugin → CommonState → CommonState × Option String
  | [], commonState => (commonState, none)
  | .pdbChecker :: rest, commonState =>
    runClusterPrePreemptingPlugins rest (PDBChecker.clusterPrePreempting pdbItems commonState)
  | .other plugin :: rest, commonState =>
    match plugin.clusterPrePreempting preemptor with
    | some err => (commonState, some err)
    | none => runClusterPrePreemptingPlugins rest commonState

def Plugin.victimChecking (commonState : CommonState) : Plugin → CommonState × Code × String
  | .pdbChecker => PDBChecker.victimChecking pod commonState
  | .other plugin => (commonState, plugin.victimChecking preemptor pod)

def runVictimCheckingPluginCollection : List Plugin → CommonState → CommonState × Code × String
  | [], commonState => (commonState, .preemptionNotSure, "")
  | plugin :: rest, commonState =>
    match plugin.victimChecking preemptor pod commonState with
    | (commonState, .preemptionFail, msg) => (commonState, .preemptionFail, msg)
    | (commonState, .preemptionSucceed, _) => (commonState, .preemptionSucceed, "")
    | (commonState, .preemptionNotSure, _) =>
      runVictimCheckingPluginCollection rest commonState
    | (commonState, .other code, _) =>
      (commonState, .preemptionFail, s!"unknown preemption code {code} for plugin")

/-- A success ends the check only in a collection with quick pass. -/
def runVictimCheckingPlugins : Framework → CommonState → CommonState × Code × String
  | [], commonState => (commonState, .preemptionSucceed, "")
  | collection :: rest, commonState =>
    match runVictimCheckingPluginCollection preemptor pod collection.plugins commonState with
    | (commonState, .preemptionFail, msg) => (commonState, .preemptionFail, msg)
    | (commonState, .preemptionSucceed, msg) =>
      if collection.forceQuickPass || collection.enableQuickPass
      then (commonState, .preemptionSucceed, msg)
      else runVictimCheckingPlugins rest commonState
    | (commonState, .preemptionNotSure, _) => runVictimCheckingPlugins rest commonState
    | (commonState, .other code, _) =>
      (commonState, .preemptionFail, s!"unknown preemption code {code} for collection")

def runPostVictimCheckingPlugins : List Plugin → CommonState → CommonState × Option String
  | [], commonState => (commonState, none)
  | .pdbChecker :: rest, commonState =>
    match PDBChecker.postVictimChecking pod commonState with
    | (commonState, some err) => (commonState, some err)
    | (commonState, none) => runPostVictimCheckingPlugins rest commonState
  | .other plugin :: rest, commonState =>
    match plugin.postVictimChecking preemptor pod with
    | some err => (commonState, some err)
    | none => runPostVictimCheckingPlugins rest commonState

/-- Check the victims of a preemptor up to the first that cannot be preempted. -/
def checkVictims (f : Framework) : List Pod → CommonState → CommonState × Option String
  | [], commonState => (commonState, none)
  | victim :: rest, commonState =>
    match runVictimCheckingPlugins preemptor victim f commonState with
    | (commonState, .preemptionSucceed, _) =>
      match runPostVictimCheckingPlugins preemptor victim f.plugins commonState with
      | (commonState, some err) => (commonState, some err)
      | (commonState, none) => checkVictims f rest commonState
    | (commonState, _, msg) => (commonState, some msg)

/-- The framework is that of the preemptor. -/
def checkPreemptionPhase (f : Framework) (rui : RunningUnitInfo) (commonState : CommonState) :
    CommonState × Option String :=
  if rui.victims.isEmpty then (commonState, none)
  else
    match runClusterPrePreemptingPlugins pdbItems rui.queuedPodInfo.pod f.plugins commonState with
    | (commonState, some err) => (commonState, some err)
    | (commonState, none) => checkVictims rui.queuedPodInfo.pod f rui.victims commonState

/-- How far the plugins of a collection get before its PDB checker. -/
inductive Reach
  | pdbChecker
  | refused
  | passed
  | notSure
  deriving DecidableEq

def reach : List Plugin → Reach
  | [] => .notSure
  | .pdbChecker :: _ => .pdbChecker
  | .other plugin :: rest =>
    match (plugin.victimChecking preemptor pod).1 with
    | .preemptionSucceed => .passed
    | .preemptionNotSure => reach rest
    | _ => .refused

/-- No plugin passes the victim before the PDB checker: the checker is asked about the victim,
unless a plugin refuses it before. -/
def asksPDBChecker : Framework → Bool
  | [] => false
  | collection :: rest =>
    match reach preemptor pod collection.plugins with
    | .pdbChecker => true
    | .refused => true
    | .passed =>
      !(collection.forceQuickPass || collection.enableQuickPass) && asksPDBChecker rest
    | .notSure => asksPDBChecker rest

end

section

variable {preemptor pod : Pod} {s : CommonState}

/-- What the PDB checker finds for a victim. -/
def violation (pod : Pod) (s : CommonState) : Bool × List ℕ :=
  checkPodDisruptionBudgetViolation pod (s.pdbs.getD ([], [])).1 (s.pdbs.getD ([], [])).2

/-- The checker has seen the victim. -/
def Recorded (pod : Pod) (s : CommonState) : Prop :=
  s.matchedPDBIndexes.lookup (generatePodKey pod) = some (violation pod s).2

/-- The checker among the plugins has seen the victim, and it violates no budget. -/
def Shown (plugins : List Plugin) (pod : Pod) (s : CommonState) : Prop :=
  .pdbChecker ∈ plugins ∧ (violation pod s).1 = false ∧ Recorded pod s

/-- The checks of a victim leave the budgets alone. -/
structure Keeps (pod : Pod) (s s' : CommonState) : Prop where
  pdbs : s'.pdbs = s.pdbs
  recorded : Recorded pod s → Recorded pod s'

namespace Keeps

theorem refl (pod : Pod) (s : CommonState) : Keeps pod s s := ⟨rfl, id⟩

theorem trans {s' s'' : CommonState} (h : Keeps pod s s') (h' : Keeps pod s' s'') :
    Keeps pod s s'' :=
  ⟨h'.pdbs.trans h.pdbs, fun hr => h'.recorded (h.recorded hr)⟩

theorem shown {s' : CommonState} (h : Keeps pod s s') {plugins plugins' : List Plugin}
    (hshown : Shown plugins pod s) (hsub : plugins ⊆ plugins') : Shown plugins' pod s' := by
  refine ⟨hsub hshown.1, ?_, h.recorded hshown.2.2⟩
  unfold violation
  rw [h.pdbs]
  exact hshown.2.1

end Keeps

theorem pdbChecker_victimChecking (pod : Pod) (s : CommonState) :
    (violation pod s).1 = true ∧
        PDBChecker.victimChecking pod s = (s, .preemptionFail, "violating pdb") ∨
      (violation pod s).1 = false ∧ ∃ s', Keeps pod s s' ∧ Recorded pod s' ∧
        PDBChecker.victimChecking pod s = (s', .preemptionNotSure, "") := by
  unfold PDBChecker.victimChecking
  simp only
  have hdef : checkPodDisruptionBudgetViolation pod (s.pdbs.getD ([], [])).1
      (s.pdbs.getD ([], [])).2 = violation pod s := rfl
  rw [hdef]
  rcases hv : violation pod s with ⟨violating, indexes⟩
  cases violating with
  | true => exact .inl ⟨rfl, rfl⟩
  | false =>
    have hrecorded : Recorded pod { s with
        matchedPDBIndexes := s.matchedPDBIndexes.insert (generatePodKey pod) indexes } := by
      have hsame : violation pod { s with
          matchedPDBIndexes := s.matchedPDBIndexes.insert (generatePodKey pod) indexes } =
          violation pod s := rfl
      unfold Recorded
      rw [hsame, hv]
      exact AList.lookup_insert _
    refine .inr ⟨rfl, _, ⟨?_, fun _ => hrecorded⟩, hrecorded, rfl⟩
    rfl

/-- What the plugins of a collection answer, by how far they get before the PDB checker. -/
theorem runVictimCheckingPluginCollection_spec (preemptor pod : Pod) (plugins : List Plugin)
    (s : CommonState) :
    let result := runVictimCheckingPluginCollection preemptor pod plugins s
    Keeps pod s result.1 ∧
      match reach preemptor pod plugins with
      | .pdbChecker => result.2.1 = .preemptionFail ∨ Shown plugins pod result.1
      | .refused => result.2.1 = .preemptionFail
      | .passed => result.2.1 = .preemptionSucceed
      | .notSure => result.2.1 = .preemptionNotSure := by
  induction plugins generalizing s with
  | nil => exact ⟨Keeps.refl pod s, rfl⟩
  | cons plugin rest ih =>
    cases plugin with
    | pdbChecker =>
      unfold runVictimCheckingPluginCollection reach Plugin.victimChecking
      rcases pdbChecker_victimChecking pod s with ⟨-, heq⟩ | ⟨hviolation, s', hkeeps, hrec, heq⟩
      · rw [heq]
        exact ⟨Keeps.refl pod s, .inl rfl⟩
      · rw [heq]
        have hrest := (ih s').1
        have hshown : Shown (.pdbChecker :: rest) pod s' := by
          refine ⟨mem_cons_self .., ?_, hrec⟩
          unfold violation
          rw [hkeeps.pdbs]
          exact hviolation
        exact ⟨hkeeps.trans hrest, .inr (hrest.shown hshown (List.Subset.refl _))⟩
    | other plugin =>
      unfold runVictimCheckingPluginCollection reach Plugin.victimChecking
      simp only
      rcases plugin.victimChecking preemptor pod with ⟨code, msg⟩
      cases code with
      | preemptionSucceed => exact ⟨Keeps.refl pod s, rfl⟩
      | preemptionFail => exact ⟨Keeps.refl pod s, rfl⟩
      | other code => exact ⟨Keeps.refl pod s, rfl⟩
      | preemptionNotSure =>
        obtain ⟨hkeeps, hanswer⟩ := ih s
        refine ⟨hkeeps, ?_⟩
        cases hreach : reach preemptor pod rest with
        | pdbChecker =>
          rw [hreach] at hanswer
          exact hanswer.imp_right ((Keeps.refl pod _).shown · (subset_cons_self ..))
        | _ =>
          rw [hreach] at hanswer
          exact hanswer

/-- A victim that passes, and that no plugin passes before the PDB checker, violates no budget. -/
theorem runVictimCheckingPlugins_spec (preemptor pod : Pod) (f : Framework) (s : CommonState) :
    let result := runVictimCheckingPlugins preemptor pod f s
    Keeps pod s result.1 ∧ (asksPDBChecker preemptor pod f = true →
      result.2.1 = .preemptionSucceed → Shown f.plugins pod result.1) := by
  induction f generalizing s with
  | nil => exact ⟨Keeps.refl pod s, nofun⟩
  | cons collection rest ih =>
    have hspec := runVictimCheckingPluginCollection_spec preemptor pod collection.plugins s
    have hplugins : Framework.plugins (collection :: rest) =
        collection.plugins ++ Framework.plugins rest := flatMap_cons
    unfold runVictimCheckingPlugins
    rw [hplugins]
    rcases hrun : runVictimCheckingPluginCollection preemptor pod collection.plugins s with
      ⟨s', code, msg⟩
    rw [hrun] at hspec
    obtain ⟨hkeeps, hanswer⟩ := hspec
    -- where the checker stands if it is asked at all
    have hasked : asksPDBChecker preemptor pod (collection :: rest) = true →
        code = .preemptionFail ∨ Shown collection.plugins pod s' ∨
          asksPDBChecker preemptor pod rest = true ∧ (code = .preemptionSucceed →
            (collection.forceQuickPass || collection.enableQuickPass) = false) := by
      rw [asksPDBChecker]
      cases hreach : reach preemptor pod collection.plugins <;>
        simp only [hreach] at hanswer <;> grind
    -- the rest of the collections, after the checker or before it
    have hrest : let result := runVictimCheckingPlugins preemptor pod rest s'
        Keeps pod s result.1 ∧
          (Shown collection.plugins pod s' ∨ asksPDBChecker preemptor pod rest = true →
            result.2.1 = .preemptionSucceed →
              Shown (collection.plugins ++ Framework.plugins rest) pod result.1) := by
      obtain ⟨hkeeps', hshown⟩ := ih s'
      refine ⟨hkeeps.trans hkeeps', ?_⟩
      rintro (hfound | hasks) hpass
      · exact hkeeps'.shown hfound (subset_append_left ..)
      · exact (Keeps.refl pod _).shown (hshown hasks hpass) (subset_append_right ..)
    cases code with
    | preemptionFail => exact ⟨hkeeps, nofun⟩
    | other code => exact ⟨hkeeps, nofun⟩
    | preemptionNotSure => exact ⟨hrest.1, fun hasks => hrest.2 (by grind)⟩
    | preemptionSucceed =>
      split_ifs with hquick
      · refine ⟨hkeeps, fun hasks _ => ?_⟩
        have hfound : Shown collection.plugins pod s' := by
          grind
        exact (Keeps.refl pod s').shown hfound (subset_append_left ..)
      · exact ⟨hrest.1, fun hasks => hrest.2 (by grind)⟩

end

end GodelScheduler.Binder.Preemption
