import GodelScheduler.Library.Allowance
import GodelScheduler.Searching.MatchingRoutes
import Mathlib.Data.List.GetD

/-!
# Disruption budgets over the preemptions of a unit

A budget is an allowance on which each victim that matches it draws. The potential
victims of a search are affordable on what is left when the search starts, and the
chosen victims on what the budgets allow, as long as every victim that passes was shown
to the PDB checker and the route taken for it covers the budgets that match it.
-/

namespace GodelScheduler.Searching

open Library SchedulerCache Binder.Preemption List

theorem getD_decrement_le (pdbsAllowed : List ℤ) (indexes : List ℕ) (i : ℕ) :
    (decrement pdbsAllowed indexes).getD i 0 ≤ pdbsAllowed.getD i 0 := by
  by_cases hi : i < pdbsAllowed.length
  · rw [getD_decrement _ _ hi]
    omega
  · have hlen := length_decrement pdbsAllowed indexes
    rw [getD_eq_default _ _ (by omega), getD_eq_default _ _ (by omega)]

section Asked

/-- How far the plugins of a collection get before its PDB checker. -/
def reach : List Plugin → Reach
  | [] => .notSure
  | .pdbChecker :: _ => .pdbChecker
  | .other (.preemptionSucceed, _) _ :: _ => .passed
  | .other (.preemptionNotSure, _) _ :: rest => reach rest
  | .other _ _ :: _ => .refused

/-- No plugin passes the victim quickly before the PDB checker: the checker is asked about the
victim, unless a plugin refuses it before. -/
def asksPDBChecker : PreemptionFramework → Bool
  | [] => false
  | collection :: rest =>
    match reach collection.plugins with
    | .pdbChecker => true
    | .refused => true
    | .passed =>
      !(collection.forceQuickPass || collection.enableQuickPass) && asksPDBChecker rest
    | .notSure => collection.rejectNotSure || asksPDBChecker rest

variable (store : PdbStore) (common : PDBCommonState) (o : RangeOrder String) (pod : Pod)
  (pdbsAllowed : List ℤ)

/-- The victim state holds what the checker finds. -/
def Asked (run : VictimRun) : Prop :=
  run.victimState = some (matchedIndexes store common o pod run.pdbState)

/-- The plugins leave what the checker finds alone. -/
structure KeepsIndexes (run run' : VictimRun) : Prop where
  indexes : matchedIndexes store common o pod run'.pdbState =
    matchedIndexes store common o pod run.pdbState
  asked : Asked store common o pod run → Asked store common o pod run'

/-- Every budget that was found has something left. -/
def Spares (run : VictimRun) : Prop :=
  ∀ i item, common.pdbItems[i]? = some item →
    i ∈ matchedIndexes store common o pod run.pdbState → 1 ≤ pdbsAllowed.getD i 0

/-- The checker among the plugins was shown the victim and found something left. -/
def Shown (plugins : List Plugin) (run : VictimRun) : Prop :=
  Asked store common o pod run ∧ Spares store common o pod pdbsAllowed run ∧ .pdbChecker ∈ plugins

variable {run run' run'' : VictimRun}

section

variable {store common o pod pdbsAllowed}

theorem KeepsIndexes.refl (run : VictimRun) : KeepsIndexes store common o pod run run :=
  ⟨rfl, id⟩

theorem KeepsIndexes.trans (h : KeepsIndexes store common o pod run run')
    (h' : KeepsIndexes store common o pod run' run'') : KeepsIndexes store common o pod run run'' :=
  ⟨h'.indexes.trans h.indexes, fun hasked => h'.asked (h.asked hasked)⟩

theorem Shown.mono {plugins plugins' : List Plugin}
    (h : Shown store common o pod pdbsAllowed plugins run)
    (hkeeps : KeepsIndexes store common o pod run run') (hsub : plugins ⊆ plugins') :
    Shown store common o pod pdbsAllowed plugins' run' := by
  refine ⟨hkeeps.asked h.1, ?_, hsub h.2.2⟩
  unfold Spares
  rw [hkeeps.indexes]
  exact h.2.1

end

/-- The checker fails or finds something left of every budget. -/
theorem victimSearching_cases (hlen : pdbsAllowed.length = common.pdbItems.length) (s : PDBState) :
    (victimSearching store common o pod pdbsAllowed s).2.2.1 = .preemptionFail ∨
      ((victimSearching store common o pod pdbsAllowed s).2.2.1 = .preemptionNotSure ∧
        ∀ i item, common.pdbItems[i]? = some item → i ∈ matchedIndexes store common o pod s →
          1 ≤ pdbsAllowed.getD i 0) := by
  have hanswer : ∀ (violating : Bool) {left : Prop}, (violating = false → left) →
      (answer violating).1 = .preemptionFail ∨
        ((answer violating).1 = .preemptionNotSure ∧ left) := by
    intro violating left h
    cases violating with
    | true => exact .inl rfl
    | false => exact .inr ⟨rfl, h rfl⟩
  have hchecked : ∀ indexes, checkPodDisruptionBudgetViolation pdbsAllowed indexes = false →
      ∀ i ∈ indexes, 1 ≤ pdbsAllowed.getD i 0 := by
    intro indexes hviolating i hi
    unfold checkPodDisruptionBudgetViolation at hviolating
    rw [any_eq_false] at hviolating
    have hle := hviolating i hi
    rw [decide_eq_true_eq] at hle
    omega
  unfold victimSearching matchedIndexes
  cases getMatchedPDBIndexesFromOwner store common o pod with
  | some indexes => exact hanswer _ fun hviolating i _ _ hi => hchecked indexes hviolating i hi
  | none =>
    simp only
    cases s.lookup (formatLabels pod.labels) with
    | some indexes => exact hanswer _ fun hviolating i _ _ hi => hchecked indexes hviolating i hi
    | none =>
      refine hanswer _ fun hviolating i item hitem hi => ?_
      obtain ⟨item', hitem', hcounts⟩ := mem_scan_iff.mp hi
      refine (violating_eq_false_iff (by rw [hlen, length_map])).mp hviolating _ _ ?_ hcounts
      rw [List.getElem?_map, hitem']
      rfl

theorem keepsIndexes_plugin (plugin : Plugin) (run : VictimRun) :
    KeepsIndexes store common o pod run
      (plugin.victimSearching store common o pod pdbsAllowed run).1 := by
  cases plugin with
  | other result err => exact KeepsIndexes.refl run
  | pdbChecker =>
    have hindexes := matchedIndexes_victimSearching store common o pod pdbsAllowed run.pdbState
    refine ⟨hindexes, fun _ => ?_⟩
    exact congrArg some ((indexes_victimSearching ..).trans hindexes.symm)

variable (hlen : pdbsAllowed.length = common.pdbItems.length)
include hlen

/-- What a collection answers, by how far its plugins get before the PDB checker. -/
theorem runVictimSearchingPluginCollection_spec (plugins : List Plugin) (run : VictimRun) :
    let result := runVictimSearchingPluginCollection store common o pod pdbsAllowed plugins run
    KeepsIndexes store common o pod run result.1 ∧
      match reach plugins with
      | .pdbChecker => result.2.1 = .preemptionFail ∨
          Shown store common o pod pdbsAllowed plugins result.1
      | .refused => result.2.1 = .preemptionFail
      | .passed => result.2.1 = .preemptionSucceed
      | .notSure => result.2.1 = .preemptionNotSure := by
  induction plugins generalizing run with
  | nil => exact ⟨KeepsIndexes.refl run, rfl⟩
  | cons plugin rest ih =>
    have hkeeps := keepsIndexes_plugin store common o pod pdbsAllowed plugin run
    unfold runVictimSearchingPluginCollection
    cases plugin with
    | other result err =>
      obtain ⟨code, msg⟩ := result
      cases code with
      | preemptionSucceed => exact ⟨hkeeps, rfl⟩
      | preemptionFail => exact ⟨hkeeps, rfl⟩
      | other code => exact ⟨hkeeps, rfl⟩
      | preemptionNotSure =>
        obtain ⟨hkeeps, hanswer⟩ := ih run
        refine ⟨hkeeps, ?_⟩
        unfold reach
        cases hreach : reach rest with
        | pdbChecker =>
          rw [hreach] at hanswer
          exact hanswer.imp_right fun hshown => hshown.mono (.refl _) (subset_cons_self ..)
        | _ =>
          rw [hreach] at hanswer
          exact hanswer
    | pdbChecker =>
      have hcases := victimSearching_cases store common o pod pdbsAllowed hlen run.pdbState
      unfold Plugin.victimSearching at hkeeps ⊢
      rcases hresult : Searching.victimSearching store common o pod pdbsAllowed run.pdbState with
        ⟨pdbState, indexes, code, msg⟩
      rw [hresult] at hcases hkeeps
      rcases hcases with hfail | ⟨hsure, hleft⟩
      · simp only at hfail
        subst hfail
        exact ⟨hkeeps, .inl rfl⟩
      · simp only at hsure
        subst hsure
        obtain ⟨hrest, -⟩ := ih { pdbState := pdbState, victimState := some indexes }
        have hasked : Asked store common o pod
            { pdbState := pdbState, victimState := some indexes } := by
          have hfound := indexes_victimSearching store common o pod pdbsAllowed run.pdbState
          rw [hresult] at hfound
          exact congrArg some (hfound.trans hkeeps.indexes.symm)
        have hshown : Shown store common o pod pdbsAllowed (.pdbChecker :: rest)
            { pdbState := pdbState, victimState := some indexes } := by
          refine ⟨hasked, ?_, mem_cons_self ..⟩
          unfold Spares
          rw [hkeeps.indexes]
          exact hleft
        exact ⟨hkeeps.trans hrest, .inr (hshown.mono hrest (List.Subset.refl _))⟩

/-- A victim that passes was shown to the checker, which found something left. -/
theorem runVictimSearchingPlugins_spec (f : PreemptionFramework) (i : ℕ) (pass quickPass : Bool)
    (run : VictimRun) :
    let result := runVictimSearchingPlugins store common o pod pdbsAllowed i pass quickPass f run
    KeepsIndexes store common o pod run result.1 ∧
      (asksPDBChecker f = true → quickPass = false → result.2.1 = .preemptionSucceed →
        Shown store common o pod pdbsAllowed f.plugins result.1) := by
  induction f generalizing i pass quickPass run with
  | nil =>
    unfold runVictimSearchingPlugins
    split_ifs <;> exact ⟨KeepsIndexes.refl run, nofun⟩
  | cons collection rest ih =>
    have hspec := runVictimSearchingPluginCollection_spec store common o pod pdbsAllowed hlen
      collection.plugins run
    have hplugins : PreemptionFramework.plugins (collection :: rest) =
        collection.plugins ++ PreemptionFramework.plugins rest := flatMap_cons
    unfold runVictimSearchingPlugins
    rw [hplugins]
    rcases hrun : runVictimSearchingPluginCollection store common o pod pdbsAllowed
      collection.plugins run with ⟨next, code, msg⟩
    rw [hrun] at hspec
    obtain ⟨hkeeps, hanswer⟩ := hspec
    -- where the checker stands if it is asked at all
    have hasked : asksPDBChecker (collection :: rest) = true → code = .preemptionFail ∨
        Shown store common o pod pdbsAllowed collection.plugins next ∨
        (code = .preemptionSucceed ∧ collection.forceQuickPass = false ∧
          collection.enableQuickPass = false ∧ asksPDBChecker rest = true) ∨
        (code = .preemptionNotSure ∧
          (collection.rejectNotSure = true ∨ asksPDBChecker rest = true)) := by
      rw [asksPDBChecker]
      cases hreach : reach collection.plugins <;> simp only [hreach] at hanswer <;> grind
    -- the rest of the collections, after the checker or before it
    have hrest : ∀ pass' quickPass',
        let result := runVictimSearchingPlugins store common o pod pdbsAllowed (i + 1) pass'
          quickPass' rest next
        KeepsIndexes store common o pod run result.1 ∧
          (Shown store common o pod pdbsAllowed collection.plugins next ∨
              asksPDBChecker rest = true ∧ quickPass' = false →
            result.2.1 = .preemptionSucceed → Shown store common o pod pdbsAllowed
              (collection.plugins ++ PreemptionFramework.plugins rest) result.1) := by
      intro pass' quickPass'
      obtain ⟨hkeeps', hshown⟩ := ih (i + 1) pass' quickPass' next
      refine ⟨hkeeps.trans hkeeps', ?_⟩
      rintro (hfound | ⟨hasks, hquick⟩) hpass
      · exact hfound.mono hkeeps' (subset_append_left ..)
      · exact (hshown hasks hquick hpass).mono (.refl _) (subset_append_right ..)
    cases code with
    | preemptionFail =>
      simp only
      split_ifs <;> exact ⟨hkeeps, by simp_all⟩
    | preemptionSucceed =>
      simp only
      split_ifs with hforce henable
      · refine ⟨hkeeps, fun hasks _ _ => ?_⟩
        have hfound : Shown store common o pod pdbsAllowed collection.plugins next := by
          grind
        exact hfound.mono (.refl _) (subset_append_left ..)
      · exact ⟨(hrest _ _).1, fun hasks _ => (hrest _ _).2 (by grind)⟩
      · exact ⟨(hrest _ _).1, fun hasks hquick => (hrest _ _).2 (by grind)⟩
    | preemptionNotSure =>
      simp only
      split_ifs with hreject
      · exact ⟨hkeeps, by simp_all⟩
      · exact ⟨hkeeps, nofun⟩
      · exact ⟨(hrest _ _).1, fun hasks hquick => (hrest _ _).2 (by grind)⟩
    | other code => exact ⟨(hrest _ _).1, fun hasks hquick => (hrest _ _).2 (by grind)⟩

omit hlen

/-- The budgets after a victim: each is kept or gets smaller, and those that were found get
smaller if the checker is run. -/
theorem runPostVictimSearchingPlugins_spec (run : VictimRun) (hasked : Asked store common o pod run)
    (plugins : List Plugin) :
    let result := runPostVictimSearchingPlugins store common o pod run plugins pdbsAllowed
    result.1.length = pdbsAllowed.length ∧
      (∀ i, result.1.getD i 0 ≤ pdbsAllowed.getD i 0) ∧
      (result.2 = none → .pdbChecker ∈ plugins →
        ∀ i ∈ matchedIndexes store common o pod run.pdbState, i < pdbsAllowed.length →
          result.1.getD i 0 + 1 ≤ pdbsAllowed.getD i 0) := by
  induction plugins generalizing pdbsAllowed with
  | nil => exact ⟨rfl, fun i => le_refl _, fun _ hmem => by cases hmem⟩
  | cons plugin rest ih =>
    cases plugin with
    | other result err =>
      unfold runPostVictimSearchingPlugins
      cases err with
      | some err => exact ⟨rfl, fun i => le_refl _, fun hnone => by cases hnone⟩
      | none =>
        obtain ⟨hlen, hle, htaken⟩ := ih pdbsAllowed
        refine ⟨hlen, hle, fun hnone hmem => htaken hnone ?_⟩
        exact (mem_cons.mp hmem).resolve_left (by simp)
    | pdbChecker =>
      unfold runPostVictimSearchingPlugins
      have hpost : postVictimSearching store common o pod run.pdbState run.victimState pdbsAllowed =
          decrement pdbsAllowed (matchedIndexes store common o pod run.pdbState) := by
        unfold postVictimSearching
        rw [hasked]
      rw [hpost]
      obtain ⟨hlen, hle, -⟩ := ih (decrement pdbsAllowed
        (matchedIndexes store common o pod run.pdbState))
      rw [length_decrement] at hlen
      refine ⟨hlen, fun i => (hle i).trans (getD_decrement_le ..), fun _ _ i hi hlt => ?_⟩
      have hle := hle i
      rw [getD_decrement _ _ hlt] at hle
      have hpos := count_pos_iff.mpr hi
      omega

end Asked

variable {pdbState : PDBState} {search : NodeSearch} {common : PDBCommonState}

section

variable {store : PdbStore} {common : PDBCommonState} {candidate : Candidate}

/-- The route taken for a pod covers the budgets that match the pod. -/
def RouteCovers (store : PdbStore) (common : PDBCommonState) (pdbState : PDBState) (pod : Pod) :
    Prop :=
  match usableOwner store pod with
  | some ownerItem => ∀ item ∈ common.pdbItems,
      pdbMatched pod item.toPDBItem = true → item.key ∈ ownerItem.pdbs
  | none =>
    match pdbState.lookup (formatLabels pod.labels) with
    | some indexes => ∀ i item, common.pdbItems[i]? = some item →
        pdbMatched pod item.toPDBItem = true → i ∈ indexes
    | none => pod.labels.len ≠ 0 ∨
        ∀ item ∈ common.pdbItems, pdbMatched pod item.toPDBItem = false

theorem mem_matchedIndexes_of_covers {pod : Pod} (hcovers : RouteCovers store common pdbState pod)
    (hnd : (common.pdbItems.map PDBItemImpl.key).Nodup)
    (hnames : common.pdbsNameToIndexes = indexByName common.pdbItems) (o : RangeOrder String)
    {i : ℕ} {item : PDBItemImpl} (hitem : common.pdbItems[i]? = some item)
    (hmatched : pdbMatched pod item.toPDBItem = true) :
    i ∈ matchedIndexes store common o pod pdbState := by
  unfold RouteCovers at hcovers
  unfold matchedIndexes
  rw [getMatchedPDBIndexesFromOwner_eq]
  cases howner : usableOwner store pod with
  | some ownerItem =>
    rw [howner] at hcovers
    have hkey := hcovers item (mem_of_getElem? hitem) hmatched
    simp only [Option.map_some]
    refine mem_map.mpr ⟨item.key, ?_, ?_⟩
    · rw [o.mem_list, ← AList.mem_keys]
      exact hkey
    · rw [hnames, lookup_indexByName hnd hitem]
      rfl
  | none =>
    rw [howner] at hcovers
    simp only [Option.map_none] at hcovers ⊢
    cases hlookup : pdbState.lookup (formatLabels pod.labels) with
    | some indexes =>
      rw [hlookup] at hcovers
      exact hcovers i item hitem hmatched
    | none =>
      rw [hlookup] at hcovers
      refine mem_scan_iff.mpr ⟨item, hitem, ?_⟩
      rcases hcovers with hlabels | hnone
      · simp [counts, hlabels, hmatched]
      · rw [hnone item (mem_of_getElem? hitem)] at hmatched
        cases hmatched

/-- What the search for victims does with one pod: it is no victim, or a potential victim that is
taken off the budgets it matches. -/
theorem filterVictim_cases (hlen : search.pdbsAllowed.length = common.pdbItems.length)
    (hnd : (common.pdbItems.map PDBItemImpl.key).Nodup)
    (hnames : common.pdbsNameToIndexes = indexByName common.pdbItems)
    (hasks : asksPDBChecker candidate.framework = true)
    (hcovers : RouteCovers store common pdbState candidate.pod) :
    let search' := (filterVictim store common candidate pdbState search).2
    search'.pdbsAllowed.length = search.pdbsAllowed.length ∧
      (∀ i, search'.pdbsAllowed.getD i 0 ≤ search.pdbsAllowed.getD i 0) ∧
      (search'.potentialVictims = search.potentialVictims ∨
        (search'.potentialVictims = search.potentialVictims ++ [candidate.pod] ∧
          ∀ i item, common.pdbItems[i]? = some item →
            pdbMatched candidate.pod item.toPDBItem = true →
              1 ≤ search.pdbsAllowed.getD i 0 ∧
                search'.pdbsAllowed.getD i 0 + 1 ≤ search.pdbsAllowed.getD i 0)) := by
  have hspec := runVictimSearchingPlugins_spec store common candidate.order candidate.pod
    search.pdbsAllowed hlen candidate.framework 0 false false { pdbState := pdbState }
  unfold filterVictim
  rcases hrun : runVictimSearchingPlugins store common candidate.order candidate.pod
    search.pdbsAllowed 0 false false candidate.framework { pdbState := pdbState } with
    ⟨run, code, msg⟩
  rw [hrun] at hspec
  cases code with
  | preemptionFail => exact ⟨rfl, fun i => le_refl _, .inl rfl⟩
  | preemptionNotSure => exact ⟨rfl, fun i => le_refl _, .inl rfl⟩
  | other code => exact ⟨rfl, fun i => le_refl _, .inl rfl⟩
  | preemptionSucceed =>
    obtain ⟨hkeeps, hpassed⟩ := hspec
    obtain ⟨hasked, hspares, hmem⟩ := hpassed hasks rfl rfl
    have hpost := runPostVictimSearchingPlugins_spec store common candidate.order candidate.pod
      search.pdbsAllowed run hasked candidate.framework.plugins
    simp only
    rcases hresult : runPostVictimSearchingPlugins store common candidate.order candidate.pod run
      candidate.framework.plugins search.pdbsAllowed with ⟨pdbsAllowed, _ | err⟩
    · rw [hresult] at hpost
      obtain ⟨hlength, hle, htaken⟩ := hpost
      refine ⟨hlength, hle, .inr ⟨rfl, fun i item hitem hmatched => ?_⟩⟩
      have hfound : i ∈ matchedIndexes store common candidate.order candidate.pod run.pdbState := by
        rw [hkeeps.indexes]
        exact mem_matchedIndexes_of_covers hcovers hnd hnames _ hitem hmatched
      have hlt : i < search.pdbsAllowed.length := by
        rw [hlen]
        exact (List.getElem?_eq_some_iff.mp hitem).1
      exact ⟨hspares i item hitem hfound, htaken rfl hmem i hfound hlt⟩
    · rw [hresult] at hpost
      exact ⟨hpost.1, hpost.2.1, .inl rfl⟩

end

section

def draws (pdbItems : List PDBItemImpl) (victim : Pod) (i : ℕ) : Bool :=
  (pdbItems[i]?).elim false fun item => pdbMatched victim item.toPDBItem

def limit (pdbItems : List PDBItemImpl) (i : ℕ) : ℤ :=
  (pdbItems[i]?).elim 0 fun item => item.pdb.disruptionsAllowed

variable {pdbItems : List PDBItemImpl}

theorem commitVictim_eq (pdbsAllowed : List ℤ) (victim : Pod) :
    commitVictim pdbItems pdbsAllowed victim = decrement pdbsAllowed
      ((pdbItems.zipIdx.filter fun e => pdbMatched victim e.1.toPDBItem).map Prod.snd) := by
  unfold commitVictim decrement
  rw [foldl_map, foldl_filter]

theorem length_commitVictim (pdbsAllowed : List ℤ) (victim : Pod) :
    (commitVictim pdbItems pdbsAllowed victim).length = pdbsAllowed.length := by
  rw [commitVictim_eq, length_decrement]

theorem getD_commitVictim {pdbsAllowed : List ℤ} (hlen : pdbsAllowed.length = pdbItems.length)
    (victim : Pod) (i : ℕ) :
    (commitVictim pdbItems pdbsAllowed victim).getD i 0 =
      pdbsAllowed.getD i 0 - if draws pdbItems victim i then 1 else 0 := by
  by_cases hi : i < pdbItems.length
  · rw [commitVictim_eq, getD_decrement _ _ (hlen ▸ hi)]
    have hnd : ((pdbItems.zipIdx.filter fun e =>
        pdbMatched victim e.1.toPDBItem).map Prod.snd).Nodup := by
      refine List.Nodup.sublist (filter_sublist.map _) ?_
      rw [zipIdx_map_snd]
      exact nodup_range'
    have hmem : i ∈ (pdbItems.zipIdx.filter fun e =>
        pdbMatched victim e.1.toPDBItem).map Prod.snd ↔ draws pdbItems victim i = true := by
      simp [draws, mem_zipIdx_iff_getElem?, List.getElem?_eq_getElem hi]
    simp only [hnd.count, hmem]
    split_ifs <;> rfl
  · have hdraws : draws pdbItems victim i = false := by
      unfold draws
      rw [List.getElem?_eq_none (by omega), Option.elim_none]
    have hlength : (commitVictim pdbItems pdbsAllowed victim).length = pdbsAllowed.length :=
      length_commitVictim pdbsAllowed victim
    rw [getD_eq_default _ _ (by omega), getD_eq_default _ _ (by omega), hdraws]
    rfl

theorem getD_nodePostPreempting (hlen : common.pdbsAllowed.length = common.pdbItems.length)
    (victims : List Pod) :
    (nodePostPreempting common victims).pdbsAllowed.length = common.pdbItems.length ∧
      ∀ i, (nodePostPreempting common victims).pdbsAllowed.getD i 0 =
        common.pdbsAllowed.getD i 0 - spent (draws common.pdbItems) victims i := by
  unfold nodePostPreempting
  simp only
  induction victims using List.reverseRecOn with
  | nil => exact ⟨hlen, fun i => by simp [spent]⟩
  | append_singleton victims victim ih =>
    obtain ⟨hlength, hget⟩ := ih
    rw [foldl_append, foldl_cons, foldl_nil]
    refine ⟨by rw [length_commitVictim, hlength], fun i => ?_⟩
    rw [getD_commitVictim hlength, hget, spent_concat]
    split_ifs
    · push_cast
      ring
    · simp

end

section Budgeted

variable (store : PdbStore) (o : RangeOrder PDBItemImpl)

/-- The node's copy of the budgets has at most what is left after the potential victims, and these
are affordable. -/
structure SearchBudgeted (common : PDBCommonState) (search : NodeSearch) : Prop where
  length : search.pdbsAllowed.length = common.pdbItems.length
  le : ∀ i, search.pdbsAllowed.getD i 0 ≤
    common.pdbsAllowed.getD i 0 - spent (draws common.pdbItems) search.potentialVictims i
  affordable : Affordable (draws common.pdbItems) (fun i => common.pdbsAllowed.getD i 0)
    search.potentialVictims

/-- The common state is about the budgets of the store, and has what the chosen victims leave. -/
structure CommonBudgeted (common : PDBCommonState) (chosen : List Pod) : Prop where
  items : common.pdbItems = store.getPDBItemList o
  names : common.pdbsNameToIndexes = indexByName common.pdbItems
  length : common.pdbsAllowed.length = common.pdbItems.length
  left : ∀ i, common.pdbsAllowed.getD i 0 =
    limit common.pdbItems i - spent (draws common.pdbItems) chosen i

/-- The invariant of the preemptions of a unit. -/
structure UnitBudgeted (s : UnitRun) : Prop where
  unset : s.common = none → s.chosen = []
  common : ∀ common, s.common = some common → CommonBudgeted store o common s.chosen
  searches : ∀ common, s.common = some common → ∀ n search, s.searches.lookup n = some search →
    SearchBudgeted common search
  affordable : Affordable (draws (store.getPDBItemList o)) (limit (store.getPDBItemList o)) s.chosen

variable {store o} {s : UnitRun}

theorem unitBudgeted_new : UnitBudgeted store o {} where
  unset _ := rfl
  common _ h := by cases h
  searches _ h := by cases h
  affordable := Affordable.nil

theorem commonBudgeted_new : CommonBudgeted store o (newPDBCommonState store o) [] where
  items := rfl
  names := rfl
  length := by
    unfold newPDBCommonState
    rw [length_map]
  left i := by
    unfold newPDBCommonState limit
    simp only [spent, countP_nil, Nat.cast_zero, sub_zero, getD_eq_getElem?_getD,
      List.getElem?_map]
    cases (store.getPDBItemList o)[i]? with
    | some item => rfl
    | none => rfl

theorem UnitBudgeted.clusterPrePreempting (h : UnitBudgeted store o s) :
    UnitBudgeted store o (s.clusterPrePreempting store o) := by
  refine ⟨fun hnone => (by cases hnone), ?_, ?_, h.affordable⟩
  · intro common hcommon
    have hchosen : (s.clusterPrePreempting store o).chosen = s.chosen := rfl
    rw [← Option.some_inj.mp hcommon, hchosen]
    cases hs : s.common with
    | some common => exact h.common common hs
    | none =>
      rw [h.unset hs]
      exact commonBudgeted_new
  · intro common _ n search hsearch
    cases hsearch

theorem SearchBudgeted.filterVictim {candidate : Candidate} (h : SearchBudgeted common search)
    (hnd : (common.pdbItems.map PDBItemImpl.key).Nodup)
    (hnames : common.pdbsNameToIndexes = indexByName common.pdbItems)
    (hasks : asksPDBChecker candidate.framework = true)
    (hcovers : RouteCovers store common pdbState candidate.pod) :
    SearchBudgeted common (Searching.filterVictim store common candidate pdbState search).2 := by
  obtain ⟨hlength, hle, hvictims⟩ := filterVictim_cases h.length hnd hnames hasks hcovers
  generalize (Searching.filterVictim store common candidate pdbState search).2 = search' at *
  rcases hvictims with hsame | ⟨hmore, htaken⟩
  · refine ⟨hlength.trans h.length, fun i => ?_, hsame ▸ h.affordable⟩
    rw [hsame]
    exact (hle i).trans (h.le i)
  · have hdrawn : ∀ i, draws common.pdbItems candidate.pod i = true →
        1 ≤ search.pdbsAllowed.getD i 0 ∧
          search'.pdbsAllowed.getD i 0 + 1 ≤ search.pdbsAllowed.getD i 0 := by
      intro i hdraws
      unfold draws at hdraws
      cases hitem : common.pdbItems[i]? with
      | none =>
        rw [hitem] at hdraws
        cases hdraws
      | some item =>
        rw [hitem] at hdraws
        exact htaken i item hitem hdraws
    refine ⟨hlength.trans h.length, fun i => ?_, ?_⟩
    · have hbefore := h.le i
      have hafter := hle i
      rw [hmore, spent_concat]
      split_ifs with hdraws
      · have hone := (hdrawn i hdraws).2
        push_cast
        omega
      · push_cast
        omega
    · rw [hmore]
      refine h.affordable.concat fun i hdraws => ?_
      have hone := (hdrawn i hdraws).1
      have hbefore := h.le i
      omega

/-- The step shows the victim to the PDB checker by a route that covers it. -/
def Covered (store : PdbStore) (s : UnitRun) : Event → Prop
  | .victimSearching _ candidate => asksPDBChecker candidate.framework = true ∧
      ∀ common, s.common = some common → RouteCovers store common s.pdbState candidate.pod
  | _ => True

section

variable (h : UnitBudgeted store o s) (hs : s.common = some common)
include h hs

theorem UnitBudgeted.insert_search (n : ℕ) (hsearch : SearchBudgeted common search)
    (pdbState : PDBState) :
    UnitBudgeted store o
      { s with pdbState := pdbState, searches := s.searches.insert n search } := by
  refine ⟨h.unset, h.common, ?_, h.affordable⟩
  intro common' hcommon' m search' hsearch'
  obtain rfl : common = common' := Option.some_inj.mp (hs.symm.trans hcommon')
  simp only [GoMap.lookup_insert'] at hsearch'
  split_ifs at hsearch'
  · cases hsearch'
    exact hsearch
  · exact h.searches common hs m search' hsearch'

theorem UnitBudgeted.nodePrePreempting (n : ℕ) :
    UnitBudgeted store o (s.nodePrePreempting common n) :=
  h.insert_search hs n ⟨(h.common common hs).length, fun i => by simp [spent], Affordable.nil⟩ _

variable {n : ℕ} (hsearch : s.searches.lookup n = some search)
include hsearch

theorem UnitBudgeted.victimSearching {candidate : Candidate}
    (hasks : asksPDBChecker candidate.framework = true)
    (hcovers : RouteCovers store common s.pdbState candidate.pod) :
    UnitBudgeted store o (s.victimSearching store common n search candidate) := by
  have hcommon := h.common common hs
  refine h.insert_search hs n ?_ _
  refine (h.searches common hs n search hsearch).filterVictim ?_ hcommon.names hasks hcovers
  rw [hcommon.items]
  exact nodup_getPDBItemList

theorem UnitBudgeted.nodePostPreempting (victims : List Pod) :
    UnitBudgeted store o (s.nodePostPreempting common search victims) := by
  unfold UnitRun.nodePostPreempting
  split_ifs with hsub
  · have hcommon := h.common common hs
    obtain ⟨hlength, hget⟩ := getD_nodePostPreempting hcommon.length victims
    refine ⟨fun hnone => (by cases hnone), ?_, ?_, ?_⟩
    · intro common' hcommon'
      obtain rfl := Option.some_inj.mp hcommon'
      refine ⟨hcommon.items, hcommon.names, hlength, fun i => ?_⟩
      have hitems : (Searching.nodePostPreempting common victims).pdbItems = common.pdbItems := rfl
      rw [hget, hcommon.left, hitems, spent_append]
      push_cast
      ring
    · intro common' _ m search' hsearch'
      cases hsearch'
    · have haffordable := (h.searches common hs n search hsearch).affordable.of_subperm hsub
      refine h.affordable.append ?_
      intro i
      have hle := haffordable i
      simp only [hcommon.left] at hle
      rwa [hcommon.items] at hle
  · exact h

end

theorem UnitBudgeted.step (h : UnitBudgeted store o s) {event : Event}
    (hcovered : Covered store s event) : UnitBudgeted store o (Searching.step store o s event) := by
  cases event with
  | clusterPrePreempting => exact h.clusterPrePreempting
  | nodePrePreempting n =>
    simp only [Searching.step]
    cases hs : s.common with
    | none => exact h
    | some common => exact h.nodePrePreempting hs n
  | victimSearching n candidate =>
    simp only [Searching.step]
    cases hs : s.common with
    | none => exact h
    | some common =>
      cases hsearch : s.searches.lookup n with
      | none => exact h
      | some search => exact h.victimSearching hs hsearch hcovered.1 (hcovered.2 common hs)
  | nodePostPreempting n victims =>
    simp only [Searching.step]
    cases hs : s.common with
    | none => exact h
    | some common =>
      cases hsearch : s.searches.lookup n with
      | none => exact h
      | some search => exact h.nodePostPreempting hs hsearch victims

/-- For every budget, no more matching victims are chosen than disruptions are allowed. -/
def BudgetsKept (pdbItems : List PDBItemImpl) (s : UnitRun) : Prop :=
  ∀ item ∈ pdbItems, (s.chosen.countP (fun victim => pdbMatched victim item.toPDBItem) : ℤ) ≤
    max 0 item.pdb.disruptionsAllowed

/-- No budget is overspent in a run in which every victim is shown to the PDB checker by a route
that covers it. -/
theorem budgets_kept_along_covered (store : PdbStore) (o : RangeOrder PDBItemImpl)
    (events : List Event) (hcovered : Along (Searching.step store o) (Covered store) {} events) :
    Always (Searching.step store o) (BudgetsKept (store.getPDBItemList o)) {} events := by
  have hbudgeted := always_of_step (fun s event h hc => h.step hc)
    unitBudgeted_new hcovered
  refine hbudgeted.mono fun s h item hmem => ?_
  obtain ⟨i, hitem⟩ := mem_iff_getElem?.mp hmem
  have hle := h.affordable i
  simpa only [spent, draws, limit, hitem, Option.elim_some] using hle

end Budgeted

namespace BudgetsExample

open RoutesExample

/-- One collection accepts the victim, the next one is the PDB checker's. -/
def acceptThenPDB : PreemptionFramework :=
  [{ plugins := [.other (.preemptionSucceed, "") none] }, { plugins := [.pdbChecker] }]

def storeOf (pdb : PDB) : PdbStore := PdbStore.addPDB {} pdb

/-- One preemptor searches one node, on which it finds the given pods, and is given it. -/
def preempt (pods victims : List Pod) : List Event :=
  [.clusterPrePreempting, .nodePrePreempting 0] ++
    pods.map (fun pod => .victimSearching 0 ⟨pod, acceptThenPDB, .forward⟩) ++
    [.nodePostPreempting 0 victims]

end BudgetsExample

open RoutesExample BudgetsExample

/-- The first pod uses up a budget of one, the second one has the same labels and is refused. -/
theorem budgets_kept_for_first_lookup :
    let store := storeOf { usedUp with disruptionsAllowed := 1 }
    let events := preempt [appPod "b" "y"] [appPod "b" "y"] ++ preempt [appPod "b" "z"] []
    (run (step store .forward) {} events).chosen = [appPod "b" "y"] ∧
      Always (step store .forward) (BudgetsKept (store.getPDBItemList .forward)) {} events := by
  refine ⟨by decide, budgets_kept_along_covered _ _ _ ?_⟩
  refine ⟨trivial, trivial, ⟨by decide, ?_⟩, trivial, trivial, trivial, ⟨by decide, ?_⟩, trivial,
    trivial⟩
  · exact fun common _ => .inl (by decide)
  · exact fun common _ => .inl (by decide)

/-- A pod of another namespace with the same labels is looked up before the pod of the used-up
budget, which is then chosen. -/
theorem budgets_fail_across_namespaces :
    (run (step (storeOf usedUp) .forward) {}
        (preempt [appPod "a" "x", appPod "b" "y"] [appPod "b" "y"])).chosen = [appPod "b" "y"] ∧
      ((storeOf usedUp).getPDBItemList .forward).map (fun item =>
        (pdbMatched (appPod "b" "y") item.toPDBItem, item.pdb.disruptionsAllowed)) =
          [(true, 0)] := by
  decide

end GodelScheduler.Searching
