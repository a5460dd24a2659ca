import GodelScheduler.UnitScheduler.ApplyToCache

/-!
# Scheduling a unit in its node groups

The node groups are tried in turn until a result is applied to the cache. The
result with the most successful pods is kept, and a later result replaces an
earlier one only if it has at least as many: a refused attempt may list more
pods than the cache left in the one that was applied. Then the applied attempt
is lost: it is neither persisted nor reported as successful.
`schedule_persists_applied_iff` says exactly when this does not happen.
-/

namespace GodelScheduler.UnitScheduler

open List

/-- What scheduling and preemption report for one node group, and the answers of the cache. -/
structure NodeGroup where
  successfulPods : List String
  failedPods : List String
  accepts : ℕ → Bool

def NodeGroup.result (g : NodeGroup) : UnitResult := ⟨false, g.successfulPods, g.failedPods⟩

section

variable (u : SchedulingUnitInfo) (hasMultipleNodeGroups : Bool) (g : NodeGroup)

/-- With several node groups a partial success is refused. -/
def scheduleSucceed : Bool :=
  if hasMultipleNodeGroups && decide (g.failedPods.length > 0) then false
  else (u.everScheduled && decide (g.successfulPods.length > 0)) ||
    decide (u.minMember ≤ g.successfulPods.length)

def attempt (cache : SchedulerCache) : UnitResult × SchedulerCache :=
  if scheduleSucceed u hasMultipleNodeGroups g then
    let applied := applyToCache u g.accepts g.result cache
    ({ applied.result with successfully := applied.ok }, applied.cache)
  else (g.result, cache)

/-- The kept result, the results of all attempts made and the cache after them. -/
structure Attempts where
  finalUnitResult : UnitResult
  attempts : List UnitResult
  cache : SchedulerCache

def tryNodeGroups (hasMultipleNodeGroups : Bool) :
    List NodeGroup → UnitResult → SchedulerCache → Attempts
  | [], finalUnitResult, cache => ⟨finalUnitResult, [], cache⟩
  | g :: rest, finalUnitResult, cache =>
    let (unitResult, cache) := attempt u hasMultipleNodeGroups g cache
    let finalUnitResult :=
      if finalUnitResult.successfulPods.length ≤ unitResult.successfulPods.length then unitResult
      else finalUnitResult
    if unitResult.successfully then ⟨finalUnitResult, [unitResult], cache⟩
    else
      let after := tryNodeGroups hasMultipleNodeGroups rest finalUnitResult cache
      { after with attempts := unitResult :: after.attempts }

/-- A pod the cache has, or that the informer shows as assumed or bound. -/
def skipPodSchedule (cache : SchedulerCache) (pod : Pod) : Bool :=
  match pod.getPodKey with
  | .error _ => false
  | .ok uid => decide (uid ∈ cache.assumed) || pod.assumedPod || pod.boundPod

/-- The pods handed back to the queue, by the UID they are stored under, as the lister has them. -/
def handleSchedulingUnitFailure (podLister : String → String → Option Pod) (result : UnitResult)
    (cache : SchedulerCache) : List (String × Pod) :=
  let left :=
    if result.successfully then
      u.queuedPods.filter fun pod => !(result.successfulPods.map u.uid).contains pod.uid
    else u.queuedPods
  let refreshed := left.filterMap fun pod =>
    match podLister pod.ns pod.name with
    | none => none
    | some cachedPod =>
      if skipPodSchedule cache cachedPod then none else some (pod.uid, cachedPod)
  if u.dispatchToAnotherScheduler then [] else refreshed

/-- The result handed to `PersistSuccessfulPods`, if any, and what is handed back to the queue. -/
structure Scheduled where
  attempts : List UnitResult
  persisted : Option UnitResult
  requeued : List (String × Pod)
  cache : SchedulerCache

def schedule (podLister : String → String → Option Pod) (nodeGroups : List NodeGroup)
    (cache : SchedulerCache) : Scheduled :=
  let after := tryNodeGroups u (decide (nodeGroups.length > 1)) nodeGroups ⟨false, [], []⟩ cache
  { attempts := after.attempts
    persisted :=
      if after.finalUnitResult.successfully then some after.finalUnitResult else none
    requeued := handleSchedulingUnitFailure u podLister after.finalUnitResult after.cache
    cache := after.cache }

def Scheduled.persistedPods (s : Scheduled) : List String :=
  (s.persisted.map UnitResult.successfulPods).getD []

/-- The number of pods the cache leaves in a result it is offered. -/
def NodeGroup.left : ℕ :=
  match firstRejected g.accepts 0 g.successfulPods with
  | none => g.successfulPods.length
  | some (i, _) => i

/-- The attempt passes the threshold and the cache takes enough of its pods. -/
def applies : Bool :=
  scheduleSucceed u hasMultipleNodeGroups g &&
    match firstRejected g.accepts 0 g.successfulPods with
    | none => true
    | some (i, _) => u.everScheduled || decide (u.minMember ≤ i)

/-- The number of pods a refused attempt still lists: none once the cache has been asked. -/
def listed : ℕ :=
  if scheduleSucceed u hasMultipleNodeGroups g then 0 else g.successfulPods.length

/-- The most pods listed by an attempt refused before the first that applies, and the number of
pods left in that one. -/
def race (hasMultipleNodeGroups : Bool) : ℕ → List NodeGroup → Option (ℕ × ℕ)
  | _, [] => none
  | most, g :: rest =>
    if applies u hasMultipleNodeGroups g then some (most, g.left)
    else race hasMultipleNodeGroups (max most (listed u hasMultipleNodeGroups g)) rest

end

section

variable {u : SchedulingUnitInfo} {multi : Bool} {g : NodeGroup} {cache : SchedulerCache}

theorem applyToCache_ok (g : NodeGroup) (cache : SchedulerCache) :
    (applyToCache u g.accepts g.result cache).ok =
      match firstRejected g.accepts 0 g.successfulPods with
      | none => true
      | some (i, _) => u.everScheduled || decide (u.minMember ≤ i) := by
  unfold applyToCache NodeGroup.result
  simp only [applyFrom_eq]
  cases firstRejected g.accepts 0 g.successfulPods with
  | none => rfl
  | some r =>
    simp only [rejected]
    split_ifs with hmin
    · cases hever : u.everScheduled
      · simpa [hever] using hmin
      · simp [hever] at hmin
    · cases hever : u.everScheduled
      · simpa [hever] using hmin
      · simp

theorem length_applyToCache (g : NodeGroup) (cache : SchedulerCache) :
    (applyToCache u g.accepts g.result cache).result.successfulPods.length =
      if (applyToCache u g.accepts g.result cache).ok then g.left else 0 := by
  unfold NodeGroup.left applyToCache NodeGroup.result
  simp only [applyFrom_eq]
  cases hrej : firstRejected g.accepts 0 g.successfulPods with
  | none => rfl
  | some r =>
    have hlt := firstRejected_lt hrej
    simp only [rejected]
    by_cases hmin : (!u.everScheduled && decide ((r.1 : ℤ) < u.minMember)) = true
    · rw [if_pos hmin]
      rfl
    · rw [if_neg hmin, if_pos rfl, length_take]
      omega

theorem attempt_of_applies (cache : SchedulerCache) (h : applies u multi g = true) :
    (attempt u multi g cache).1.successfully = true ∧
      (attempt u multi g cache).1.successfulPods.length = g.left := by
  unfold applies at h
  rw [Bool.and_eq_true, ← applyToCache_ok g cache] at h
  unfold attempt
  rw [if_pos h.1]
  refine ⟨h.2, ?_⟩
  rw [length_applyToCache, if_pos h.2]

theorem attempt_of_not_applies (cache : SchedulerCache) (h : applies u multi g = false) :
    (attempt u multi g cache).1.successfully = false ∧
      (attempt u multi g cache).1.successfulPods.length = listed u multi g := by
  unfold applies at h
  rw [← applyToCache_ok g cache] at h
  unfold attempt listed
  by_cases hthreshold : scheduleSucceed u multi g
  · rw [hthreshold, Bool.true_and] at h
    simp only [hthreshold, if_true]
    refine ⟨h, ?_⟩
    rw [length_applyToCache, h]
    rfl
  · simp only [hthreshold]
    exact ⟨rfl, rfl⟩

/-- The applied attempt is the kept one, or the kept one is a refused attempt. -/
theorem tryNodeGroups_applied {groups : List NodeGroup} {final r : UnitResult}
    (hfinal : final.successfully = false)
    (hr : r ∈ (tryNodeGroups u multi groups final cache).attempts) (hok : r.successfully = true) :
    ∃ most, race u multi final.successfulPods.length groups =
        some (most, r.successfulPods.length) ∧
      (most ≤ r.successfulPods.length →
        (tryNodeGroups u multi groups final cache).finalUnitResult = r) ∧
      (¬ most ≤ r.successfulPods.length →
        (tryNodeGroups u multi groups final cache).finalUnitResult.successfully = false) := by
  -- The induction is on the node groups; the kept result stays a refused one until the break.
  induction groups generalizing final cache with
  | nil => cases hr
  | cons g rest ih =>
    unfold tryNodeGroups at hr ⊢
    simp only at hr ⊢
    unfold race
    cases happ : applies u multi g with
    | true =>
      obtain ⟨hsucc, hlen⟩ := attempt_of_applies cache happ
      simp only [hsucc, if_true] at hr ⊢
      rw [mem_singleton] at hr
      subst hr
      refine ⟨final.successfulPods.length, by rw [hlen], ?_, ?_⟩
      · intro hle
        rw [if_pos hle]
      · intro hle
        rw [if_neg hle]
        exact hfinal
    | false =>
      obtain ⟨hsucc, hlen⟩ := attempt_of_not_applies cache happ
      simp only [hsucc, Bool.false_eq_true, if_false, mem_cons] at hr ⊢
      have hne : r ≠ (attempt u multi g cache).1 := by
        rintro rfl
        rw [hsucc] at hok
        cases hok
      have hmem := hr.resolve_left hne
      rw [← hlen]
      by_cases hle : final.successfulPods.length ≤
          (attempt u multi g cache).1.successfulPods.length
      · rw [if_pos hle] at hmem ⊢
        rw [max_eq_right hle]
        exact ih hsucc hmem
      · rw [if_neg hle] at hmem ⊢
        rw [max_eq_left (by omega)]
        exact ih hfinal hmem

/-- The first node group whose attempt applies is reached; without one no result is successful. -/
theorem tryNodeGroups_find (multi : Bool) (groups : List NodeGroup) (cache : SchedulerCache)
    {final : UnitResult} (hfinal : final.successfully = false) :
    match groups.find? (applies u multi) with
    | none => (tryNodeGroups u multi groups final cache).finalUnitResult.successfully = false
    | some g => ∃ cache', (attempt u multi g cache').1 ∈
        (tryNodeGroups u multi groups final cache).attempts := by
  induction groups generalizing final cache with
  | nil => exact hfinal
  | cons g rest ih =>
    unfold tryNodeGroups
    cases happ : applies u multi g with
    | true =>
      simp only [List.find?_cons, happ, (attempt_of_applies cache happ).1, if_true]
      exact ⟨cache, mem_singleton_self _⟩
    | false =>
      have hsucc := (attempt_of_not_applies cache happ).1
      simp only [List.find?_cons, happ, hsucc, Bool.false_eq_true, if_false]
      have hkept : (if final.successfulPods.length ≤
          (attempt u multi g cache).1.successfulPods.length then (attempt u multi g cache).1
          else final).successfully = false := by
        split_ifs
        · exact hsucc
        · exact hfinal
      have hrest := ih (attempt u multi g cache).2 hkept
      cases hfind : rest.find? (applies u multi) with
      | none => simpa only [hfind] using hrest
      | some g' =>
        rw [hfind] at hrest
        obtain ⟨cache', hmem⟩ := hrest
        exact ⟨cache', mem_cons_of_mem _ hmem⟩

/-- With several node groups no pod failed before the cache was asked. -/
theorem failedPods_attempt_iff (cache : SchedulerCache) (h : applies u true g = true) :
    (attempt u true g cache).1.failedPods = [] ↔
      firstRejected g.accepts 0 g.successfulPods = none := by
  unfold applies at h
  rw [Bool.and_eq_true, ← applyToCache_ok g cache] at h
  have hfailed : g.failedPods = [] := by
    by_contra hne
    have hthreshold := h.1
    simp [scheduleSucceed, length_pos_iff.mpr hne] at hthreshold
  unfold attempt
  rw [if_pos h.1]
  have hok := h.2
  unfold applyToCache NodeGroup.result at hok ⊢
  simp only [applyFrom_eq] at hok ⊢
  cases hrej : firstRejected g.accepts 0 g.successfulPods with
  | none => simp [hfailed]
  | some r =>
    have hlt := firstRejected_lt hrej
    simp only [hrej, rejected] at hok ⊢
    split_ifs at hok ⊢
    simp only [hfailed, nil_append, drop_eq_nil_iff, iff_false]
    omega

theorem notMem_requeued (u : SchedulingUnitInfo) (podLister : String → String → Option Pod)
    {r : UnitResult} (hok : r.successfully = true) (cache : SchedulerCache) {key : String}
    (hkey : key ∈ r.successfulPods) :
    u.uid key ∉ (handleSchedulingUnitFailure u podLister r cache).map Prod.fst := by
  unfold handleSchedulingUnitFailure
  simp only [hok, if_true]
  split_ifs
  · simp
  · intro hmem
    obtain ⟨e, he, hfst⟩ := mem_map.mp hmem
    obtain ⟨pod, hpod, hsome⟩ := mem_filterMap.mp he
    have huid : e.1 = pod.uid := by
      split at hsome
      · cases hsome
      · split_ifs at hsome
        cases hsome
        rfl
    rw [mem_filter] at hpod
    have hout : pod.uid ∉ r.successfulPods.map u.uid := by simpa using hpod.2
    rw [← huid, hfst] at hout
    exact hout (mem_map_of_mem hkey)

end

theorem schedule_persists_applied_iff (u : SchedulingUnitInfo)
    (podLister : String → String → Option Pod) (nodeGroups : List NodeGroup)
    (cache : SchedulerCache) {r : UnitResult}
    (hr : r ∈ (schedule u podLister nodeGroups cache).attempts) (hok : r.successfully = true) :
    ((schedule u podLister nodeGroups cache).persistedPods = r.successfulPods ∧
        ∀ key ∈ r.successfulPods,
          u.uid key ∉ (schedule u podLister nodeGroups cache).requeued.map Prod.fst) ↔
      ∀ mostLeft ∈ race u (decide (nodeGroups.length > 1)) 0 nodeGroups,
        mostLeft.2 = 0 ∨ mostLeft.1 ≤ mostLeft.2 := by
  obtain ⟨most, hrace, hkept, hlost⟩ := tryNodeGroups_applied rfl hr hok
  have hrace' : race u (decide (nodeGroups.length > 1)) 0 nodeGroups =
      some (most, r.successfulPods.length) := hrace
  simp only [hrace', Option.mem_some_iff, forall_eq', length_eq_zero_iff]
  by_cases hle : most ≤ r.successfulPods.length
  · refine iff_of_true ⟨?_, fun key hkey => ?_⟩ (Or.inr hle)
    · simp [Scheduled.persistedPods, schedule, hkept hle, hok]
    · simp only [schedule, hkept hle]
      exact notMem_requeued u podLister hok _ hkey
  · have hpersisted : (schedule u podLister nodeGroups cache).persistedPods = [] := by
      simp [Scheduled.persistedPods, schedule, hlost hle]
    rw [hpersisted, or_iff_left hle]
    constructor
    · exact fun h => h.1.symm
    · intro hnil
      rw [hnil]
      exact ⟨rfl, fun key hkey => by cases hkey⟩

/-- The attempt that is kept must not have lost a pod to the cache. -/
theorem schedule_whole_iff (u : SchedulingUnitInfo) (podLister : String → String → Option Pod)
    (nodeGroups : List NodeGroup) (hmulti : 2 ≤ nodeGroups.length) (cache : SchedulerCache) :
    (∀ r ∈ (schedule u podLister nodeGroups cache).persisted, r.failedPods = []) ↔
      ∀ g ∈ nodeGroups.find? (applies u true),
        (∀ mostLeft ∈ race u true 0 nodeGroups, mostLeft.1 ≤ mostLeft.2) →
          firstRejected g.accepts 0 g.successfulPods = none := by
  have hgroups : decide (nodeGroups.length > 1) = true := decide_eq_true hmulti
  have hfind := tryNodeGroups_find (u := u) true nodeGroups cache
    (show (⟨false, [], []⟩ : UnitResult).successfully = false from rfl)
  unfold schedule
  rw [hgroups]
  cases hfirst : nodeGroups.find? (applies u true) with
  | none =>
    simp only [hfirst] at hfind
    simp [hfind]
  | some g =>
    rw [hfirst] at hfind
    obtain ⟨cache', hmem⟩ := hfind
    have happ := List.find?_some hfirst
    have hok := (attempt_of_applies cache' happ).1
    obtain ⟨most, hrace, hkept, hlost⟩ := tryNodeGroups_applied rfl hmem hok
    simp only [length_nil] at hrace
    simp only [hrace, Option.mem_some_iff, forall_eq']
    by_cases hle : most ≤ (attempt u true g cache').1.successfulPods.length
    · simp only [hkept hle, hok, if_true, Option.mem_some_iff, forall_eq',
        failedPods_attempt_iff cache' happ]
      exact ⟨fun h _ => h, fun h => h hle⟩
    · simp [hlost hle, hle]

def tripleUnit : SchedulingUnitInfo where
  everScheduled := false
  minMember := 1
  dispatchedPods key := { uid := key, ns := "default", name := key }

def tripleGroup : NodeGroup := ⟨["a", "b", "c"], [], fun _ => true⟩

theorem schedule_persists_triple :
    (schedule tripleUnit (fun _ _ => none) [tripleGroup] ⟨∅, []⟩).persistedPods =
      ["a", "b", "c"] :=
  ((schedule_persists_applied_iff tripleUnit (fun _ _ => none) [tripleGroup] ⟨∅, []⟩
    (r := ⟨true, ["a", "b", "c"], []⟩) (by decide) rfl).mpr (by decide)).1

/-- The first node group places two of the pods and is refused; in the second all three are
placed, but the cache rejects the second pod. The pod it took is not persisted. -/
theorem schedule_loses_applied_attempt :
    let scheduled := schedule tripleUnit (fun _ _ => none)
      [⟨["a", "b"], ["c"], fun _ => true⟩, ⟨["a", "b", "c"], [], fun i => i = 0⟩] ⟨∅, []⟩
    (⟨true, ["a"], ["b", "c"]⟩ : UnitResult) ∈ scheduled.attempts ∧
      scheduled.cache.assumed = {"a"} ∧ scheduled.persisted = none := by
  decide

theorem schedule_whole_triple : 2 ≤ [tripleGroup, tripleGroup].length ∧
    ∀ r ∈ (schedule tripleUnit (fun _ _ => none) [tripleGroup, tripleGroup] ⟨∅, []⟩).persisted,
      r.failedPods = [] :=
  ⟨by decide, (schedule_whole_iff tripleUnit (fun _ _ => none) [tripleGroup, tripleGroup]
    (by decide) ⟨∅, []⟩).mpr (by decide)⟩

/-- The cache rejects the second pod of the first node group; the unit is placed in part. -/
theorem schedule_persists_part :
    (schedule tripleUnit (fun _ _ => none)
      [⟨["a", "b", "c"], [], fun i => i = 0⟩, tripleGroup] ⟨∅, []⟩).persisted =
        some ⟨true, ["a"], ["b", "c"]⟩ := by
  decide

end GodelScheduler.UnitScheduler
