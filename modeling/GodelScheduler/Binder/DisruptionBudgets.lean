import GodelScheduler.Binder.MinMember
import GodelScheduler.Binder.VictimChecking
import GodelScheduler.Binder.VictimGroups

/-!
# Disruption budgets within a unit

The preemptors of a unit share what is left of the disruption budgets. What a
rejected preemptor has taken is not given back: the budgets are as before only if no
victim ahead of the first one that is refused counts for a budget
(`disruptionsLeft_checkPreemptionPhase_iff`). `Budgeted` is the invariant of the loops
over the preemptors and their victims, and `budgets_respected` bounds the victims
accepted for a budget. Only victims with a label are counted, since the checker passes
over pods without one.
-/

namespace GodelScheduler.Binder.Preemption

open Library CommonState List

section Taken

variable {pdbItems : List PDBItem} {preemptor pod : Pod} {s : CommonState} {allowed : List ℤ}

theorem indexes_eq (pod : Pod) (allowed allowed' : List ℤ) (pdbItems : List PDBItem) :
    (checkPodDisruptionBudgetViolation pod allowed pdbItems).2 =
      (checkPodDisruptionBudgetViolation pod allowed' pdbItems).2 := by
  unfold checkPodDisruptionBudgetViolation
  split_ifs
  · rfl
  · simp only [indexes_foldl_checkItem]

theorem decrement_eq_self_iff {indexes : List ℕ} :
    decrement allowed indexes = allowed ↔ ∀ i < allowed.length, i ∉ indexes := by
  constructor
  · intro h i hi hmem
    have hcount := getD_decrement allowed indexes hi
    have hpos := count_pos_iff.mpr hmem
    rw [h] at hcount
    omega
  · intro h
    apply ext_getElem (length_decrement allowed indexes)
    intro i hi hi'
    have hcount := getD_decrement allowed indexes hi'
    rw [count_eq_zero.mpr (h i hi')] at hcount
    simpa [getD_eq_getElem?_getD, hi, hi'] using hcount

/-- The common state after the given budgets were decremented, if they are set. -/
def CommonState.takeOff (s : CommonState) (indexes : List ℕ) : CommonState :=
  { s with pdbs := s.pdbs.map fun pdbs => (decrement pdbs.1 indexes, pdbs.2) }

theorem takeOff_nil (s : CommonState) : s.takeOff [] = s := by
  unfold takeOff decrement
  cases hs : s.pdbs <;> simp [← hs]

theorem takeOff_takeOff (s : CommonState) (indexes indexes' : List ℕ) :
    (s.takeOff indexes).takeOff indexes' = s.takeOff (indexes ++ indexes') := by
  unfold takeOff decrement
  cases s.pdbs <;> simp

/-- The budgets a victim that passed is taken off. -/
def matchedIndexes (pod : Pod) (s : CommonState) : List ℕ :=
  (s.matchedPDBIndexes.lookup (generatePodKey pod)).getD (violation pod s).2

theorem matchedIndexes_takeOff (pod : Pod) (s : CommonState) (indexes : List ℕ) :
    matchedIndexes pod (s.takeOff indexes) = matchedIndexes pod s := by
  unfold matchedIndexes takeOff violation
  cases s.pdbs with
  | none => rfl
  | some pdbs => exact congrArg _ (indexes_eq ..)

theorem postVictimChecking_eq (pod : Pod) (s : CommonState) :
    PDBChecker.postVictimChecking pod s =
      if s.pdbs.isNone then (s, some "missed PDBsAllowed")
      else (s.takeOff (matchedIndexes pod s), none) := by
  unfold PDBChecker.postVictimChecking takeOff matchedIndexes violation
  cases s.pdbs <;> rfl

/-- No plugin ends the calls after a victim before the PDB checker is called. -/
def tellsPDBChecker (preemptor pod : Pod) : List Plugin → Bool
  | [] => false
  | .pdbChecker :: _ => true
  | .other plugin :: rest =>
    (plugin.postVictimChecking preemptor pod).isNone && tellsPDBChecker preemptor pod rest

variable (preemptor pod) in
/-- After a victim only the budgets it is taken off have changed. -/
theorem runPostVictimCheckingPlugins_taken (plugins : List Plugin) :
    ∃ taken, (runPostVictimCheckingPlugins preemptor pod plugins s).1 = s.takeOff taken ∧
      (s.pdbs.isSome → ∀ i, i ∈ taken ↔
        tellsPDBChecker preemptor pod plugins = true ∧ i ∈ matchedIndexes pod s) := by
  induction plugins generalizing s with
  | nil => exact ⟨[], (takeOff_nil s).symm, by simp [tellsPDBChecker]⟩
  | cons plugin rest ih =>
    cases plugin with
    | pdbChecker =>
      unfold runPostVictimCheckingPlugins
      rw [postVictimChecking_eq]
      split_ifs with hnone
      · exact ⟨[], (takeOff_nil s).symm, fun hsome => absurd hsome (by simpa using hnone)⟩
      · obtain ⟨taken, heq, hmem⟩ := ih
        refine ⟨matchedIndexes pod s ++ taken, by rw [← takeOff_takeOff, ← heq], fun hsome i => ?_⟩
        rw [mem_append, hmem (by simpa [takeOff] using hsome),
          matchedIndexes_takeOff]
        simp only [tellsPDBChecker, true_and]
        exact or_iff_left_of_imp And.right
    | other plugin =>
      unfold runPostVictimCheckingPlugins tellsPDBChecker
      cases plugin.postVictimChecking preemptor pod with
      | some err => exact ⟨[], (takeOff_nil s).symm, by simp⟩
      | none => simpa using ih

section

variable (pdbItems) (left : List ℤ)

/-- Some budget that the victim counts for has nothing left. -/
def exhausted (pod : Pod) : Bool :=
  pdbItems.zipIdx.any fun entry => counts entry.1 pod && decide (left.getD entry.2 0 < 1)

variable {pdbItems left} (hs : s.pdbs = some (left, pdbItems))
  (hlen : left.length = pdbItems.length)
include hs

theorem mem_violation_iff {i : ℕ} {item : PDBItem} (hitem : pdbItems[i]? = some item) :
    i ∈ (violation pod s).2 ↔ counts item pod = true := by
  rw [violation, hs]
  exact mem_indexes_iff hitem

include hlen

theorem violation_eq_exhausted : (violation pod s).1 = exhausted pdbItems left pod := by
  rw [violation, hs, Option.getD_some, Bool.eq_iff_iff, ← not_iff_not, Bool.not_eq_true,
    Bool.not_eq_true, violating_eq_false_iff hlen, exhausted, any_eq_false]
  simp only [Prod.forall, mem_zipIdx_iff_getElem?, Bool.and_eq_true, decide_eq_true_eq,
    not_and, not_lt]
  exact forall_comm

omit hlen in
variable (preemptor) in
/-- With the PDB checker alone a victim is refused, or it is taken off the budgets it counts for. -/
theorem checkVictims_cons {collection : VictimCheckingPluginCollection}
    (hplugins : collection.plugins = [.pdbChecker]) (victim : Pod) (victims : List Pod) :
    (violation victim s).1 = true ∧
        (checkVictims preemptor [collection] (victim :: victims) s).1 = s ∨
      (violation victim s).1 = false ∧ ∃ s', s'.pdbs = (s.takeOff (violation victim s).2).pdbs ∧
        checkVictims preemptor [collection] (victim :: victims) s =
          checkVictims preemptor [collection] victims s' := by
  rcases pdbChecker_victimChecking victim s with ⟨hviolating, heq⟩ | ⟨hnot, s', hkeeps, hrec, heq⟩
  · refine .inl ⟨hviolating, ?_⟩
    simp [checkVictims, runVictimCheckingPlugins, runVictimCheckingPluginCollection, hplugins,
      Plugin.victimChecking, heq]
  · have hpost : PDBChecker.postVictimChecking victim s' =
        (s'.takeOff (violation victim s').2, none) := by
      rw [postVictimChecking_eq, hkeeps.pdbs, hs, matchedIndexes, hrec]
      rfl
    have hsame : violation victim s' = violation victim s := by
      rw [violation, hkeeps.pdbs, violation]
    refine .inr ⟨hnot, s'.takeOff (violation victim s).2, by rw [takeOff, hkeeps.pdbs, takeOff], ?_⟩
    simp [checkVictims, runVictimCheckingPlugins, runVictimCheckingPluginCollection, hplugins,
      Plugin.victimChecking, heq, Framework.plugins, runPostVictimCheckingPlugins, hpost, hsame]

variable (preemptor) in
theorem checkVictims_taken {collection : VictimCheckingPluginCollection}
    (hplugins : collection.plugins = [.pdbChecker]) (victims : List Pod) :
    ∃ taken, (checkVictims preemptor [collection] victims s).1.pdbs = (s.takeOff taken).pdbs ∧
      ((∀ i < left.length, i ∉ taken) ↔
        ∀ victim ∈ victims.takeWhile fun pod => !exhausted pdbItems left pod,
          ∀ item ∈ pdbItems, counts item victim = false) := by
  induction victims generalizing s left with
  | nil => exact ⟨[], by rw [takeOff_nil, checkVictims], by simp⟩
  | cons victim victims ih =>
    have hviolation : (violation victim s).1 = exhausted pdbItems left victim :=
      violation_eq_exhausted hs hlen
    rcases checkVictims_cons preemptor hs hplugins victim victims with
      ⟨hviolating, heq⟩ | ⟨hnot, s', hpdbs, heq⟩
    · rw [hviolation] at hviolating
      exact ⟨[], by rw [heq, takeOff_nil], by simp [hviolating]⟩
    · rw [hviolation] at hnot
      rw [takeOff, hs] at hpdbs
      obtain ⟨taken, htaken, hspared⟩ := ih hpdbs (by rw [length_decrement, hlen])
      refine ⟨(violation victim s).2 ++ taken, ?_, ?_⟩
      · rw [heq, htaken, takeOff, hpdbs, takeOff, hs]
        simp [decrement]
      rw [takeWhile_cons, if_pos (by simp [hnot]), forall_mem_cons]
      have hcharged : (∀ i < left.length, i ∉ (violation victim s).2) ↔
          ∀ item ∈ pdbItems, counts item victim = false := by
        simp only [forall_mem_iff_getElem, hlen]
        refine forall₂_congr fun i hi => ?_
        rw [mem_violation_iff hs (List.getElem?_eq_getElem hi), Bool.not_eq_true]
      -- unless the victim is taken off a budget, the next one meets the same budgets
      by_cases hnone : ∀ i < left.length, i ∉ (violation victim s).2
      · rw [decrement_eq_self_iff.mpr hnone] at hspared
        rw [← hspared, and_iff_right (hcharged.mp hnone)]
        simp only [mem_append, not_or]
        exact ⟨fun h i hi => (h i hi).2, fun h i hi => ⟨hnone i hi, h i hi⟩⟩
      · refine iff_of_false (fun h => hnone fun i hi hmem => h i hi (mem_append_left _ hmem)) ?_
        exact fun h => hnone (hcharged.mpr h.1)

end

/-- The disruptions left of each budget. Before the first preemptor they are those allowed. -/
def disruptionsLeft (pdbItems : List PDBItem) (s : CommonState) : List ℤ :=
  match s.pdbs with
  | some pdbs => pdbs.1
  | none => pdbItems.map fun pdbItem => pdbItem.pdb.disruptionsAllowed

theorem disruptionsLeft_clusterPrePreempting :
    disruptionsLeft pdbItems (PDBChecker.clusterPrePreempting pdbItems s) =
      disruptionsLeft pdbItems s := by
  unfold disruptionsLeft PDBChecker.clusterPrePreempting
  cases hs : s.pdbs <;> simp [hs]

theorem isSome_pdbs_clusterPrePreempting :
    (PDBChecker.clusterPrePreempting pdbItems s).pdbs.isSome := by
  unfold PDBChecker.clusterPrePreempting
  cases hs : s.pdbs <;> simp [hs]

variable (pdbItems preemptor s) in
/-- Before the victims are checked the budgets are set, unless the checker is not called. -/
theorem runClusterPrePreemptingPlugins_cases (plugins : List Plugin) :
    let r := runClusterPrePreemptingPlugins pdbItems preemptor plugins s
    r.1 = PDBChecker.clusterPrePreempting pdbItems s ∨
      r.1 = s ∧ (r.2 = none → .pdbChecker ∉ plugins) := by
  induction plugins generalizing s with
  | nil => exact .inr ⟨rfl, fun _ => not_mem_nil⟩
  | cons plugin rest ih =>
    cases plugin with
    | pdbChecker =>
      have hagain : PDBChecker.clusterPrePreempting pdbItems
          (PDBChecker.clusterPrePreempting pdbItems s) =
            PDBChecker.clusterPrePreempting pdbItems s := by
        unfold PDBChecker.clusterPrePreempting
        cases hs : s.pdbs <;> simp [hs]
      have hrest := ih (PDBChecker.clusterPrePreempting pdbItems s)
      rw [hagain] at hrest
      exact .inl (hrest.elim id And.left)
    | other plugin =>
      unfold runClusterPrePreemptingPlugins
      cases plugin.clusterPrePreempting preemptor with
      | some err => exact .inr ⟨rfl, fun hnone => (by cases hnone)⟩
      | none => simpa using ih s

theorem tellsPDBChecker_of_mem {plugins : List Plugin}
    (h : (runPostVictimCheckingPlugins preemptor pod plugins s).2 = none)
    (hmem : .pdbChecker ∈ plugins) : tellsPDBChecker preemptor pod plugins = true := by
  induction plugins with
  | nil => cases hmem
  | cons plugin rest ih =>
    cases plugin with
    | pdbChecker => rfl
    | other plugin =>
      unfold runPostVictimCheckingPlugins at h
      cases hpost : plugin.postVictimChecking preemptor pod with
      | some err =>
        rw [hpost] at h
        cases h
      | none =>
        rw [hpost] at h
        rw [tellsPDBChecker, hpost, ih h ((mem_cons.mp hmem).resolve_left (by simp))]
        rfl

end Taken

section

variable {pdbItems : List PDBItem} {i : ℕ} {item : PDBItem} {preemptor pod : Pod} {k : ℕ}
  {s : CommonState}

/-- At least the given number of victims was taken off a budget, and no more than it allows. -/
structure Budgeted (pdbItems : List PDBItem) (i : ℕ) (item : PDBItem) (k : ℕ) (s : CommonState) :
    Prop where
  le_max : (k : ℤ) ≤ max 0 item.pdb.disruptionsAllowed
  unset : s.pdbs = none → k = 0
  items : ∀ pdbs, s.pdbs = some pdbs → pdbs.2 = pdbItems
  length : ∀ pdbs, s.pdbs = some pdbs → pdbs.1.length = pdbItems.length
  taken : ∀ pdbs, s.pdbs = some pdbs → (k : ℤ) ≤ item.pdb.disruptionsAllowed - pdbs.1.getD i 0

theorem Budgeted.congr {s' : CommonState} (h : Budgeted pdbItems i item k s)
    (heq : s'.pdbs = s.pdbs) : Budgeted pdbItems i item k s' :=
  ⟨h.le_max, heq ▸ h.unset, heq ▸ h.items, heq ▸ h.length, heq ▸ h.taken⟩

theorem Budgeted.takeOff {pdbs : List ℤ × List PDBItem} {k' : ℕ} (hitem : pdbItems[i]? = some item)
    (h : Budgeted pdbItems i item k s) (hs : s.pdbs = some pdbs) (taken : List ℕ)
    (hk : k' ≤ k + taken.count i) (hmax : (k' : ℤ) ≤ max 0 item.pdb.disruptionsAllowed) :
    Budgeted pdbItems i item k' (s.takeOff taken) := by
  have hlen := h.length _ hs
  have hleft := getD_decrement pdbs.1 taken (hlen ▸ (List.getElem?_eq_some_iff.mp hitem).1)
  have htaken := h.taken _ hs
  unfold CommonState.takeOff
  rw [hs]
  refine ⟨hmax, nofun, ?_, ?_, ?_⟩
  · rintro _ ⟨⟩
    exact h.items pdbs hs
  · rintro _ ⟨⟩
    exact (length_decrement ..).trans hlen
  · rintro _ ⟨⟩
    rw [hleft]
    omega

variable (preemptor pod) in
theorem Budgeted.runPostVictimCheckingPlugins (hitem : pdbItems[i]? = some item)
    (h : Budgeted pdbItems i item k s) (plugins : List Plugin) :
    Budgeted pdbItems i item k (runPostVictimCheckingPlugins preemptor pod plugins s).1 := by
  obtain ⟨taken, heq, -⟩ := runPostVictimCheckingPlugins_taken preemptor pod plugins
  rw [heq]
  cases hs : s.pdbs with
  | none => exact h.congr (by rw [CommonState.takeOff, hs, Option.map_none])
  | some pdbs =>
    exact h.takeOff hitem hs taken (by omega) h.le_max

variable {f : Framework} (hitem : pdbItems[i]? = some item) (h : Budgeted pdbItems i item k s)
include hitem h

theorem Budgeted.victim
    (hset : .pdbChecker ∈ f.plugins → s.pdbs.isSome) (hasks : asksPDBChecker preemptor pod f = true)
    {s₁ s₂ : CommonState} {msg : String}
    (hcheck : runVictimCheckingPlugins preemptor pod f s = (s₁, .preemptionSucceed, msg))
    (hpost : Preemption.runPostVictimCheckingPlugins preemptor pod f.plugins s₁ = (s₂, none)) :
    Budgeted pdbItems i item (k + if counts item pod then 1 else 0) s₂ ∧ s₂.pdbs.isSome := by
  obtain ⟨hkeeps, hshown⟩ := runVictimCheckingPlugins_spec preemptor pod f s
  rw [hcheck] at hkeeps hshown
  obtain ⟨hin, hnot, hrec⟩ := hshown hasks rfl
  obtain ⟨pdbs, hs⟩ := Option.isSome_iff_exists.mp (hset hin)
  have hs₁ : s₁.pdbs = some pdbs := hkeeps.pdbs.trans hs
  have htaken := h.taken _ hs
  have hindexes : i ∈ matchedIndexes pod s₁ ↔ counts item pod = true := by
    unfold Recorded at hrec
    rw [matchedIndexes, hrec, Option.getD_some, violation, hs₁]
    exact mem_indexes_iff (h.items _ hs ▸ hitem)
  obtain ⟨taken, heq, hmem⟩ := runPostVictimCheckingPlugins_taken preemptor pod f.plugins
  have htells := tellsPDBChecker_of_mem (by rw [hpost]) hin
  rw [hpost] at heq
  obtain rfl : s₂ = s₁.takeOff taken := heq
  rw [hs₁] at hmem
  have hcount : (if counts item pod then 1 else 0) ≤ taken.count i := by
    split_ifs with hc
    · exact count_pos_iff.mpr ((hmem rfl i).mpr ⟨htells, hindexes.mpr hc⟩)
    · exact Nat.zero_le _
  refine ⟨(h.congr hkeeps.pdbs).takeOff hitem hs₁ taken (by omega) ?_, by
    simp [CommonState.takeOff, hs₁]⟩
  split_ifs with hc
  · unfold violation at hnot
    rw [hs₁, Option.getD_some, h.items _ hs] at hnot
    have hone := (violating_eq_false_iff (h.length _ hs)).mp hnot i item hitem hc
    push_cast
    exact le_max_of_le_right (by omega)
  · exact h.le_max

/-- The victims of one preemptor: all of them are taken off the budget if none is refused. -/
theorem Budgeted.checkVictims {victims : List Pod}
    (hasks : ∀ victim ∈ victims, asksPDBChecker preemptor victim f = true)
    (hset : .pdbChecker ∈ f.plugins → s.pdbs.isSome) :
    ∃ k', k ≤ k' ∧ Budgeted pdbItems i item k' (checkVictims preemptor f victims s).1 ∧
      ((Preemption.checkVictims preemptor f victims s).2 = none →
        k' = k + victims.countP (counts item)) := by
  induction victims generalizing s k with
  | nil => exact ⟨k, le_refl _, h, fun _ => rfl⟩
  | cons victim victims ih =>
    obtain ⟨hask, hrest⟩ := forall_mem_cons.mp hasks
    have hkeeps := (runVictimCheckingPlugins_spec preemptor victim f s).1
    unfold Preemption.checkVictims
    rcases hcheck : runVictimCheckingPlugins preemptor victim f s with ⟨s₁, code, msg⟩
    rw [hcheck] at hkeeps
    have h₁ := h.congr hkeeps.pdbs
    cases code with
    | preemptionSucceed =>
      have h₂ := h₁.runPostVictimCheckingPlugins preemptor victim hitem f.plugins
      simp only
      rcases hpost : Preemption.runPostVictimCheckingPlugins preemptor victim f.plugins s₁ with
        ⟨s₂, _ | err⟩
      · obtain ⟨hvictim, hsome⟩ := h.victim hitem hset hask hcheck hpost
        obtain ⟨k', hle, hk', hcount⟩ := ih hvictim hrest fun _ => hsome
        refine ⟨k', by omega, hk', fun hnone => ?_⟩
        rw [hcount hnone, countP_cons]
        omega
      · rw [hpost] at h₂
        exact ⟨k, le_refl _, h₂, fun hnone => (by cases hnone)⟩
    | preemptionFail => exact ⟨k, le_refl _, h₁, fun hnone => (by cases hnone)⟩
    | preemptionNotSure => exact ⟨k, le_refl _, h₁, fun hnone => (by cases hnone)⟩
    | other code => exact ⟨k, le_refl _, h₁, fun hnone => (by cases hnone)⟩

theorem Budgeted.clusterPrePreempting :
    Budgeted pdbItems i item k (PDBChecker.clusterPrePreempting pdbItems s) := by
  unfold PDBChecker.clusterPrePreempting
  cases hs : s.pdbs with
  | some pdbs => exact h
  | none =>
    have hk := h.unset hs
    refine ⟨h.le_max, nofun, ?_, ?_, ?_⟩
    · rintro _ ⟨⟩
      rfl
    · rintro _ ⟨⟩
      exact length_map _
    · rintro _ ⟨⟩
      simp [getD_eq_getElem?_getD, hitem, hk]

variable (preemptor) in
theorem Budgeted.runClusterPrePreemptingPlugins (plugins : List Plugin) :
    Budgeted pdbItems i item k (runClusterPrePreemptingPlugins pdbItems preemptor plugins s).1 ∧
      ((runClusterPrePreemptingPlugins pdbItems preemptor plugins s).2 = none →
        (.pdbChecker ∈ plugins ∨ s.pdbs.isSome) →
        (runClusterPrePreemptingPlugins pdbItems preemptor plugins s).1.pdbs.isSome) := by
  rcases runClusterPrePreemptingPlugins_cases pdbItems preemptor s plugins with heq | ⟨heq, hnot⟩
  · rw [heq]
    exact ⟨h.clusterPrePreempting hitem, fun _ _ => isSome_pdbs_clusterPrePreempting⟩
  · rw [heq]
    exact ⟨h, fun hnone hset => hset.resolve_left (hnot hnone)⟩

theorem Budgeted.checkPreemptionPhase {rui : RunningUnitInfo}
    (hasks : ∀ victim ∈ rui.victims, asksPDBChecker rui.queuedPodInfo.pod victim f = true) :
    ∃ k', k ≤ k' ∧ Budgeted pdbItems i item k' (checkPreemptionPhase pdbItems f rui s).1 ∧
      ((Preemption.checkPreemptionPhase pdbItems f rui s).2 = none →
        k' = k + rui.victims.countP (counts item)) := by
  unfold Preemption.checkPreemptionPhase
  split_ifs with hempty
  · refine ⟨k, le_refl _, h, fun _ => ?_⟩
    rw [List.isEmpty_iff.mp hempty]
    rfl
  · obtain ⟨hpre, hset⟩ := h.runClusterPrePreemptingPlugins rui.queuedPodInfo.pod hitem
      f.plugins
    rcases hrun : Preemption.runClusterPrePreemptingPlugins pdbItems rui.queuedPodInfo.pod
      f.plugins s with ⟨s₁, _ | err⟩
    · rw [hrun] at hpre hset
      exact hpre.checkVictims hitem hasks fun hmem => hset rfl (.inl hmem)
    · rw [hrun] at hpre
      exact ⟨k, le_refl _, hpre, fun hnone => (by cases hnone)⟩

end

variable {l : List CheckResult}

section

variable (pdbItems : List PDBItem) (frameworkOf : Pod → Framework) (env : Env)

def failure (rui : RunningUnitInfo) (err : String) : String :=
  s!"fail to check preemption for pod: {rui.queuedPodInfo.pod.ns}/" ++
    s!"{rui.queuedPodInfo.pod.name}, error: {err}"

/-- The common state goes from one preemptor to the next. -/
def checkNewTasks : List CheckResult → BindingUnitInfo → CommonState → BindingUnitInfo
  | [], u, _ => u
  | cr :: rest, u, commonState =>
    let (commonState, status) :=
      checkPreemptionPhase pdbItems (frameworkOf cr.info.pod) cr.runningUnit commonState
    let u :=
      match status with
      | none => u
      | some err => u.addFailedTask cr.runningUnit (failure cr.runningUnit err) false
    if u.isUnitFailed then
      u.moveAllTasksToFailedList "unit checks fail at check cross node preemption for new tasks"
    else checkNewTasks rest u commonState

def checkCrossNodePreemptionForUnit (u : BindingUnitInfo) : BindingUnitInfo :=
  match checkAssumedTasks env (env.taskOrder.list (u.getTasks .assumedTasks)) u false with
  | (u, none) => u
  | (u, some anyOneStillInProgress) =>
    let u :=
      if anyOneStillInProgress then u.moveAllAssumedTasksToWaitingList
      else u.moveAllAssumedTasksToReadyList
    if u.noVictim then u
    else checkNewTasks pdbItems frameworkOf (env.taskOrder.list (u.getTasks .newTasks)) u {}

variable {pdbItems frameworkOf env} {u : BindingUnitInfo}

variable (pdbItems frameworkOf) in
/-- The answers of the checks, by the UID of the task. -/
theorem checkNewTasks_eq (hnd : (l.map CheckResult.uid).Nodup) (u : BindingUnitInfo)
    (s : CommonState) :
    ∃ answers : String → Option String, ∀ check : RunningUnitInfo → Option String,
      (∀ cr ∈ l, check cr.runningUnit =
        if cr.runningUnit.victims.isEmpty then none
        else (answers cr.uid).map (failure cr.runningUnit)) →
      checkNewTasks pdbItems frameworkOf l u s = Binder.checkNewTasks check
        (fun _ => "unit checks fail at check cross node preemption for new tasks") l u := by
  induction l generalizing u s with
  | nil => exact ⟨fun _ => none, fun _ _ => rfl⟩
  | cons cr l ih =>
    rw [nodup_map_cons] at hnd
    rcases hphase : checkPreemptionPhase pdbItems (frameworkOf cr.info.pod) cr.runningUnit s with
      ⟨s', status⟩
    have hempty : cr.runningUnit.victims.isEmpty = true → status = none := by
      intro hempty
      rw [checkPreemptionPhase, if_pos hempty] at hphase
      exact (congrArg Prod.snd hphase).symm
    obtain ⟨answers, hanswers⟩ := ih hnd.2
      (match status with
        | none => u
        | some err => u.addFailedTask cr.runningUnit (failure cr.runningUnit err) false) s'
    refine ⟨Function.update answers cr.uid status, fun check hcheck => ?_⟩
    have hhead : check cr.runningUnit = status.map (failure cr.runningUnit) := by
      rw [hcheck cr mem_cons_self, Function.update_self]
      split_ifs with hvictims
      · rw [hempty hvictims]
        rfl
      · rfl
    have hrest := hanswers check fun cr' hcr' => by
      have hne : cr'.uid ≠ cr.uid := hnd.1 _ hcr'
      rw [hcheck cr' (mem_cons_of_mem _ hcr'), Function.update_of_ne hne]
    unfold checkNewTasks Binder.checkNewTasks
    rw [hphase, hhead]
    cases status with
    | none =>
      simp only [Option.map_none] at hrest ⊢
      rw [hrest]
    | some err =>
      simp only [Option.map_some] at hrest ⊢
      rw [hrest]

end

section Respected

variable {pdbItems : List PDBItem} {frameworkOf : Pod → Framework} {env : Env} {i : ℕ}
  {item : PDBItem}

/-- The victims of the given tasks that count for a budget. -/
def countVictims (item : PDBItem) (crs : List CheckResult) : ℕ :=
  (crs.flatMap fun cr => cr.runningUnit.victims).countP (counts item)

theorem countVictims_cons (cr : CheckResult) (crs : List CheckResult) :
    countVictims item (cr :: crs) =
      cr.runningUnit.victims.countP (counts item) + countVictims item crs := by
  unfold countVictims
  rw [flatMap_cons, countP_append]

theorem moves_checkNewTasks {u : BindingUnitInfo} (hnd : (l.map CheckResult.uid).Nodup)
    (hl : ∀ cr ∈ l, cr ∈ u.getTasks .newTasks) (s : CommonState) :
    Moves u (checkNewTasks pdbItems frameworkOf l u s) := by
  obtain ⟨answers, heq⟩ := checkNewTasks_eq pdbItems frameworkOf hnd u s
  rw [heq (fun rui => if rui.victims.isEmpty then none
    else (answers rui.queuedPodInfo.pod.uid).map (failure rui)) fun _ _ => rfl]
  exact Binder.moves_checkNewTasks _ _ hnd hl

variable (frameworkOf) in
/-- The tasks to be checked that stay new do not take more from a budget than is allowed, together
with what was taken before. -/
theorem countVictims_checkNewTasks (hitem : pdbItems[i]? = some item) {u : BindingUnitInfo}
    (hnd : (l.map CheckResult.uid).Nodup) (hl : ∀ cr ∈ l, cr ∈ u.getTasks .newTasks)
    (hplaced : ∀ cr ∈ u.getTasks .newTasks, cr.runningUnit.suggestedNode.isSome)
    (hasks : ∀ cr ∈ l, ∀ victim ∈ cr.runningUnit.victims,
      asksPDBChecker cr.info.pod victim (frameworkOf cr.info.pod) = true) {k : ℕ} {s : CommonState}
    (h : Budgeted pdbItems i item k s) : ((k + countVictims item (l.filter fun cr =>
      cr ∈ (checkNewTasks pdbItems frameworkOf l u s).getTasks .newTasks) : ℕ) : ℤ) ≤
        max 0 item.pdb.disruptionsAllowed := by
  induction l generalizing u k s with
  | nil => exact h.le_max
  | cons cr l ih =>
    obtain ⟨hcr, hrest⟩ := forall_mem_cons.mp hl
    obtain ⟨hask, hasks'⟩ := forall_mem_cons.mp hasks
    rw [nodup_map_cons] at hnd
    obtain ⟨k', hle, hk', hcount⟩ := h.checkPreemptionPhase hitem hask
    unfold checkNewTasks
    rcases hphase : checkPreemptionPhase pdbItems (frameworkOf cr.info.pod) cr.runningUnit s with
      ⟨s', status⟩
    rw [hphase] at hk' hcount
    -- a failed unit has no new task left
    have hall : ∀ (u : BindingUnitInfo) (err : String),
        (∀ cr ∈ u.getTasks .newTasks, cr.runningUnit.suggestedNode.isSome) →
        ((k + countVictims item ((cr :: l).filter fun cr =>
          cr ∈ (u.moveAllTasksToFailedList err).getTasks .newTasks) : ℕ) : ℤ) ≤
            max 0 item.pdb.disruptionsAllowed := by
      intro u err hplaced
      rw [getTasks_new_moveAllTasksToFailedList hplaced]
      simpa [countVictims] using h.le_max
    cases status with
    | none =>
      simp only
      split_ifs
      · exact hall u _ hplaced
      · have hih := ih hnd.2 hrest hplaced hasks' hk'
        rw [hcount rfl] at hih
        rw [filter_cons]
        split_ifs
        · rw [countVictims_cons, ← add_assoc]
          exact hih
        · rw [add_right_comm] at hih
          exact le_trans (Int.ofNat_le.mpr (Nat.le_add_right _ _)) hih
    | some err =>
      simp only
      set u₁ := u.addFailedTask cr.runningUnit (failure cr.runningUnit err) false
      have hmoves : Moves u u₁ := moves_addFailedNewTask hcr _
      have hplaced₁ := fun cr' hcr' => hplaced cr' ((KeepsTasks.of_moves hmoves).new cr' hcr')
      obtain ⟨node, hnode⟩ := Option.isSome_iff_exists.mp (hplaced cr hcr)
      have hrest₁ : ∀ cr' ∈ l, cr' ∈ u₁.getTasks .newTasks := by
        intro cr' hcr'
        have hne : cr'.uid ≠ cr.uid := hnd.1 _ hcr'
        exact mem_getTasks_settle_of_ne hne (hrest cr' hcr')
      have hgone₁ : cr ∉ u₁.getTasks .newTasks := by
        intro hmem
        have hdst : TaskList.failedTasks.checked := by trivial
        have hon : (⟨false, cr.runningUnit, some (failure cr.runningUnit err)⟩ :
          CheckResult).runningUnit.suggestedNode = some node := hnode
        exact ((mem_new_settle_iff hdst rfl hon).mp hmem).2 rfl
      split_ifs
      · exact hall u₁ _ hplaced₁
      · have hgone : cr ∉ (checkNewTasks pdbItems frameworkOf l u₁ s').getTasks .newTasks :=
          fun hmem => hgone₁
            ((KeepsTasks.of_moves (moves_checkNewTasks hnd.2 hrest₁ s')).new cr hmem)
        have hih := ih hnd.2 hrest₁ hplaced₁ hasks' hk'
        rw [filter_cons, if_neg (by simpa using hgone)]
        exact le_trans (Int.ofNat_le.mpr (Nat.add_le_add_right hle _)) hih

/-- For every budget, no more counted victims are accepted than disruptions are allowed. -/
theorem budgets_respected (pdbItems : List PDBItem) (frameworkOf : Pod → Framework) (env : Env)
    (cache : BinderCache) (unit : BindingUnit) (u u' : BindingUnitInfo)
    (hu : u = initializeUnit env cache unit)
    (hu' : u' = checkCrossNodePreemptionForUnit pdbItems frameworkOf env u)
    (hasks : ∀ cr ∈ u.getTasks .newTasks, ∀ victim ∈ cr.runningUnit.victims,
      asksPDBChecker cr.info.pod victim (frameworkOf cr.info.pod) = true) :
    ∀ item ∈ pdbItems,
      (countVictims item (u'.getTasks .newTasks) : ℤ) ≤ max 0 item.pdb.disruptionsAllowed := by
  intro item hmem
  obtain ⟨i, hitem⟩ := mem_iff_getElem?.mp hmem
  have hsorted : Sorted (fun _ => True) u := by
    rw [hu]
    exact Sorted.initializeUnit kept_true (fun _ _ => trivial) fun _ _ _ => trivial
  have hgrouped : VictimsGrouped u := by
    rw [hu]
    exact VictimsGrouped.initializeUnit env cache unit
  have hassumed := moves_checkAssumedTasks env (nodup_order (u := u) env.taskOrder .assumedTasks)
    (fun cr hcr => (env.taskOrder.mem_list).mp hcr) false
  have hnone := moveAll_of_checkAssumedTasks_eq_none env
    (env.taskOrder.list (u.getTasks .assumedTasks)) u false
  have hempty : ((countVictims item [] : ℕ) : ℤ) ≤ max 0 item.pdb.disruptionsAllowed := by
    simp [countVictims]
  subst hu'
  unfold checkCrossNodePreemptionForUnit
  rcases hrun : checkAssumedTasks env (env.taskOrder.list (u.getTasks .assumedTasks)) u false with
    ⟨u₁, _ | anyOneStillInProgress⟩
  · rw [hrun] at hnone
    obtain ⟨u₂, err, hnew, rfl⟩ := hnone rfl
    rw [getTasks_new_moveAllTasksToFailedList]
    · exact hempty
    · rw [hnew]
      exact fun cr hcr => (hsorted.new cr hcr).2
  · rw [hrun] at hassumed
    simp only
    have hmoved : Moves u₁ (if anyOneStillInProgress then u₁.moveAllAssumedTasksToWaitingList
        else u₁.moveAllAssumedTasksToReadyList) := by
      split_ifs
      · exact moves_moveAllAssumedTasks (by trivial) _
      · exact moves_moveAllAssumedTasks (by trivial) _
    generalize (if anyOneStillInProgress then u₁.moveAllAssumedTasksToWaitingList
      else u₁.moveAllAssumedTasksToReadyList) = moved at hmoved ⊢
    have hmoves := hassumed.trans hmoved
    have hkeeps := KeepsTasks.of_moves hmoves
    split_ifs with hno
    · -- without victims there is nothing to count
      have hvictims : (moved.getTasks .newTasks).flatMap (fun cr => cr.runningUnit.victims) =
          [] := by
        rw [flatMap_eq_nil_iff]
        intro cr hcr
        rw [eq_nil_iff_forall_not_mem]
        intro victim hvictim
        have hknown := (hgrouped.of_moves hmoves).known cr hcr victim.uid
          (mem_map_of_mem hvictim)
        rw [of_decide_eq_true hno] at hknown
        exact absurd hknown (Finset.notMem_empty _)
      unfold countVictims
      rw [hvictims]
      exact hempty
    · have hnd := nodup_order (u := moved) env.taskOrder .newTasks
      have hl : ∀ cr ∈ env.taskOrder.list (moved.getTasks .newTasks),
          cr ∈ moved.getTasks .newTasks := fun cr hcr => (env.taskOrder.mem_list).mp hcr
      have hbound := countVictims_checkNewTasks frameworkOf hitem hnd hl
        (fun cr hcr => (hsorted.new cr (hkeeps.new cr hcr)).2)
        (fun cr hcr => hasks cr (hkeeps.new cr (hl cr hcr)))
        (k := 0) (s := {}) ⟨le_max_left _ _, fun _ => rfl, fun _ h => (by cases h),
          fun _ h => (by cases h), fun _ h => (by cases h)⟩
      set u₃ := checkNewTasks pdbItems frameworkOf
        (env.taskOrder.list (moved.getTasks .newTasks)) moved {}
      have hperm : ((env.taskOrder.list (moved.getTasks .newTasks)).filter fun cr =>
          cr ∈ u₃.getTasks .newTasks).Perm (u₃.getTasks .newTasks) := by
        apply (perm_ext_iff_of_nodup ((List.Nodup.of_map _ hnd).filter _)
          (u₃.tasks .newTasks).nodup_list).mpr
        intro cr
        rw [mem_filter, decide_eq_true_eq, env.taskOrder.mem_list]
        exact ⟨fun h => h.2, fun h =>
          ⟨(KeepsTasks.of_moves (moves_checkNewTasks hnd hl {})).new cr h, h⟩⟩
      unfold countVictims at hbound ⊢
      rw [zero_add, ((hperm.flatMap_right _).countP_eq _)] at hbound
      exact hbound

def labelledVictim (uid : String) : Pod :=
  { uid := uid
    ns := "default"
    name := uid
    labels := (∅ : GoMap String String).insert "app" "db" }

def onePreemptor (uid : String) (victim : Pod) : BindingPodInfo :=
  { memberOf uid with
    nominatedNode := some [⟨victim.ns, victim.name, victim.uid⟩]
    reserved_uid := reserved_uid_none uid }

def oneDisruption : PDBItem where
  pdb := { ns := "default", disruptionsAllowed := 1 }
  selector := some (.requirements [⟨"app", .opIn, ["db"]⟩])

def twoPreemptors : BindingUnit where
  unitKey := .podGroupUnit "default" "group"
  minMember := 1
  pods := ((KeyedStore.empty _).add (onePreemptor "a" (labelledVictim "v"))).add
    (onePreemptor "b" (labelledVictim "w"))

def twoVictims : Env :=
  Env.passing (.ofPods [labelledVictim "v", labelledVictim "w"]) fun _ _ => .notFound

theorem budgets_respected_two_preemptors :
    let u := checkCrossNodePreemptionForUnit [oneDisruption]
      (fun _ => [{ plugins := [.pdbChecker] }]) twoVictims
      (initializeUnit twoVictims emptyBinderCache twoPreemptors)
    (u.getTasks .newTasks).length = 1 ∧ (u.getTasks .failedTasks).length = 1 ∧
      (countVictims oneDisruption (u.getTasks .newTasks) : ℤ) ≤ 1 := by
  refine ⟨by decide, by decide, ?_⟩
  exact budgets_respected [oneDisruption] (fun _ => [{ plugins := [.pdbChecker] }]) twoVictims
    emptyBinderCache twoPreemptors _ _ rfl rfl (by decide) oneDisruption (mem_singleton_self _)

/-- What a preemptor leaves of the budgets is what it found, whether it is rejected or not, exactly
if no victim ahead of the first one that counts for a used-up budget counts for a budget. -/
theorem disruptionsLeft_checkPreemptionPhase_iff (pdbItems : List PDBItem)
    (collection : VictimCheckingPluginCollection) (hplugins : collection.plugins = [.pdbChecker])
    (rui : RunningUnitInfo) (s : CommonState)
    (hpdbs : ∀ pdbs, s.pdbs = some pdbs → pdbs.1.length = pdbItems.length ∧ pdbs.2 = pdbItems) :
    disruptionsLeft pdbItems (checkPreemptionPhase pdbItems [collection] rui s).1 =
        disruptionsLeft pdbItems s ↔
      ∀ victim ∈ rui.victims.takeWhile fun pod =>
          !exhausted pdbItems (disruptionsLeft pdbItems s) pod,
        ∀ item ∈ pdbItems, counts item victim = false := by
  unfold checkPreemptionPhase
  split_ifs with hempty
  · simp [List.isEmpty_iff.mp hempty]
  have hpre : runClusterPrePreemptingPlugins pdbItems rui.queuedPodInfo.pod
      (Framework.plugins [collection]) s = (PDBChecker.clusterPrePreempting pdbItems s, none) := by
    simp [Framework.plugins, hplugins, runClusterPrePreemptingPlugins]
  have hleft : disruptionsLeft pdbItems (PDBChecker.clusterPrePreempting pdbItems s) =
      disruptionsLeft pdbItems s := disruptionsLeft_clusterPrePreempting
  rw [hpre, ← hleft]
  dsimp only
  have hs : (PDBChecker.clusterPrePreempting pdbItems s).pdbs =
        some (disruptionsLeft pdbItems (PDBChecker.clusterPrePreempting pdbItems s), pdbItems) ∧
      (disruptionsLeft pdbItems (PDBChecker.clusterPrePreempting pdbItems s)).length =
        pdbItems.length := by
    unfold PDBChecker.clusterPrePreempting disruptionsLeft
    cases hs : s.pdbs with
    | none => simp
    | some pdbs => simp [hs, hpdbs pdbs hs, Prod.ext_iff]
  generalize PDBChecker.clusterPrePreempting pdbItems s = s₁ at hs ⊢
  obtain ⟨taken, htaken, hspared⟩ := checkVictims_taken rui.queuedPodInfo.pod hs.1 hs.2 hplugins
    rui.victims
  have hafter : disruptionsLeft pdbItems
      (checkVictims rui.queuedPodInfo.pod [collection] rui.victims s₁).1 =
        decrement (disruptionsLeft pdbItems s₁) taken := by
    rw [disruptionsLeft, htaken, takeOff, hs.1]
    rfl
  rw [hafter, decrement_eq_self_iff, hspared]

/-- The first victim passes and uses up the budget, the second one is refused. -/
theorem rejected_preemptor_uses_budget :
    let result := checkPreemptionPhase [oneDisruption] [{ plugins := [.pdbChecker] }]
      { queuedPodInfo := onePreemptor "a" (labelledVictim "v")
        victims := [labelledVictim "v", labelledVictim "w"] } {}
    result.2.isSome ∧ disruptionsLeft [oneDisruption] {} = [1] ∧
      disruptionsLeft [oneDisruption] result.1 = [0] := by
  decide

def noDisruption : PDBItem where
  pdb := { ns := "default", disruptionsAllowed := 0 }
  selector := some (.requirements [⟨"app", .opDoesNotExist, []⟩])

def plainVictim : Pod := { uid := "v", ns := "default", name := "v" }

def plainPreemptor : BindingUnit where
  unitKey := .podGroupUnit "default" "group"
  minMember := 1
  pods := (KeyedStore.empty _).add (onePreemptor "a" plainVictim)

/-- A victim without labels is accepted, the next one is refused for a used-up budget. -/
theorem usedUp_budget_kept :
    let rui : RunningUnitInfo :=
      { queuedPodInfo := onePreemptor "a" plainVictim
        victims := [plainVictim, labelledVictim "w"] }
    let item := { oneDisruption with pdb := { ns := "default", disruptionsAllowed := 0 } }
    let result := checkPreemptionPhase [item] [{ plugins := [.pdbChecker] }] rui {}
    result.2.isSome ∧ disruptionsLeft [item] result.1 = disruptionsLeft [item] {} := by
  refine ⟨by decide, ?_⟩
  exact (disruptionsLeft_checkPreemptionPhase_iff _ _ rfl _ {} (by simp)).mpr (by decide)

/-- A victim without labels matches a used-up budget and is accepted. -/
theorem plainVictim_accepted :
    let env := Env.passing (.ofPods [plainVictim]) fun _ _ => .notFound
    let u := checkCrossNodePreemptionForUnit [noDisruption]
      (fun _ => [{ plugins := [.pdbChecker] }]) env
      (initializeUnit env emptyBinderCache plainPreemptor)
    asksPDBChecker (memberOf "a").pod plainVictim [{ plugins := [.pdbChecker] }] = true ∧
      (u.getTasks .newTasks).flatMap (fun cr => cr.runningUnit.victims) = [plainVictim] ∧
      pdbMatched plainVictim noDisruption = true ∧ noDisruption.pdb.disruptionsAllowed = 0 := by
  decide

end Respected

end GodelScheduler.Binder.Preemption
