import GodelScheduler.Framework.VictimCandidates

/-!
# Filters on a node without some of its pods

What the preemption asks the framework: whether the preemptor passes the filters on a
node, and that pods are taken off a copy of the node or put back on it, with the cycle
state kept in line by the extensions of the pre-filter plugins.

The plugins are arbitrary functions of the cycle state, the preemptor and the node; a node
that is missing from a list is handed to them as `none`. `fits_iff` says what a passed
filter is, `accepts_of_success` which plugins are reported as successful by one that failed.
-/

namespace GodelScheduler.Preemption

open Library List

/-- The codes of a filter's status; all those that are neither a success nor unschedulable count
as an error. -/
inductive FilterCode
  | success
  | unschedulable
  | unschedulableAndUnresolvable
  | error
  deriving DecidableEq, Repr

def FilterCode.isUnschedulable (c : FilterCode) : Bool :=
  c == .unschedulable || c == .unschedulableAndUnresolvable

/-- A node of the preemption: its pods are stored under their UIDs, and it has the priorities of
the pods that may be preempted, as they were when the node was last cloned. -/
structure SearchNode extends NodeInfoImpl where
  placed : podInfoMaintainer.Placed
  prioritiesSliceForGTPodsMayBePreempted : List ℤ := []
  prioritiesSliceForBEPodsMayBePreempted : List ℤ := []

namespace SearchNode

variable (gates : FeatureGates) (o : ResourceOrders)

def addPod (n : SearchNode) (pod : Pod) : SearchNode :=
  { n with
    toNodeInfoImpl := n.toNodeInfoImpl.addPod gates o pod
    placed := by
      rw [NodeInfoImpl.toNodeInfo_addPod]
      exact n.placed.addPodInfo pod }

def removePod (n : SearchNode) (pod : Pod) : Except String SearchNode :=
  match h : n.toNodeInfoImpl.removePod gates o pod with
  | .error err => .error err
  | .ok m =>
    .ok { n with
      toNodeInfoImpl := m
      placed := NodeInfoImpl.placed_removePod gates o n.placed h }

def getVictimCandidates (n : SearchNode) (priorityLower priorityUpper : ℤ)
    (resourceType : PodResourceType) : List PodInfo :=
  n.podInfoMaintainer.getVictimCandidates gates o priorityLower priorityUpper resourceType

def getPrioritiesForPodsMayBePreempted (n : SearchNode) : PodResourceType → List ℤ
  | .guaranteed => n.prioritiesSliceForGTPodsMayBePreempted
  | .bestEffort => n.prioritiesSliceForBEPodsMayBePreempted

variable {gates o}

theorem removePod_ok {n m : SearchNode} {pod : Pod} (h : n.removePod gates o pod = .ok m) :
    n.toNodeInfoImpl.removePod gates o pod = .ok m.toNodeInfoImpl := by
  unfold removePod at h
  split at h
  · cases h
  · next m' hm =>
    cases h
    exact hm

end SearchNode

structure FilterPlugin (σ : Type) where
  name : String
  filter : σ → Pod → Option SearchNode → FilterCode

structure SchedulerFramework (σ : Type) where
  filterPlugins : List (FilterPlugin σ)
  /-- A plugin that is added again replaces the one of its name. -/
  distinct : (filterPlugins.map FilterPlugin.name).Nodup
  /-- The new cycle state, and whether all plugins succeeded. -/
  runPreFilterExtensionAddPod : σ → Pod → Pod → SearchNode → σ × Bool
  runPreFilterExtensionRemovePod : σ → Pod → Pod → SearchNode → σ × Bool
  /-- In debug mode the filters go on after a failure on nodes with a watched label. -/
  fitLabelFlag : Pod → Option SearchNode → Bool

abbrev PluginToStatus := GoMap String FilterCode

section RunFilters

variable {σ : Type} (fw : SchedulerFramework σ) (state : σ) (pod : Pod)
  (nodeInfo : Option SearchNode) (skipPlugins : List String)

/-- The first error and the statuses after a plugin that did not succeed. -/
def recordFailure (name : String) (pluginStatus : FilterCode)
    (finalStatus statuses : PluginToStatus) : PluginToStatus × PluginToStatus :=
  if !pluginStatus.isUnschedulable then
    (if GoMap.len finalStatus = 0 then (∅ : PluginToStatus).insert name .error else finalStatus,
      statuses)
  else (finalStatus, statuses.insert name pluginStatus)

/-- The plugins from one on, with the first error and the statuses so far. -/
def filterLoop : List (FilterPlugin σ) → PluginToStatus → PluginToStatus → PluginToStatus
  | [], finalStatus, statuses => if GoMap.len finalStatus ≠ 0 then finalStatus else statuses
  | pl :: rest, finalStatus, statuses =>
    if pl.name ∈ skipPlugins then filterLoop rest finalStatus statuses
    else
      let pluginStatus := pl.filter state pod nodeInfo
      if pluginStatus = .success then
        filterLoop rest finalStatus (statuses.insert pl.name pluginStatus)
      else
        let (finalStatus, statuses) := recordFailure pl.name pluginStatus finalStatus statuses
        if fw.fitLabelFlag pod nodeInfo then filterLoop rest finalStatus statuses
        else if GoMap.len finalStatus > 0 then finalStatus
        else statuses

def runFilterPlugins : PluginToStatus :=
  filterLoop fw state pod nodeInfo skipPlugins fw.filterPlugins ∅ ∅

/-- An error is merged to an error, else the more serious of the two unschedulable codes wins. -/
def PluginToStatus.merge (p : PluginToStatus) : FilterCode :=
  let codes := p.entries.map Sigma.snd
  if .error ∈ codes then .error
  else if .unschedulableAndUnresolvable ∈ codes then .unschedulableAndUnresolvable
  else if .unschedulable ∈ codes then .unschedulable
  else .success

def podPassesFiltersOnNode : Bool × PluginToStatus :=
  let statusMap := runFilterPlugins fw state pod nodeInfo skipPlugins
  (decide (PluginToStatus.merge statusMap = .success), statusMap)

def FilterPlugin.Accepts (pl : FilterPlugin σ) (state : σ) (pod : Pod)
    (nodeInfo : Option SearchNode) : Prop :=
  pl.filter state pod nodeInfo = .success

def AllSuccess (p : PluginToStatus) : Prop :=
  ∀ name code, p.lookup name = some code → code = .success

variable {p : PluginToStatus} {code : FilterCode} {name : String}
  {finalStatus statuses : PluginToStatus} {plugins : List (FilterPlugin σ)}

theorem mem_codes : code ∈ p.entries.map Sigma.snd ↔ ∃ name, p.lookup name = some code := by
  rw [mem_map]
  constructor
  · rintro ⟨⟨name, code⟩, hmem, rfl⟩
    exact ⟨name, AList.mem_lookup_iff.mpr hmem⟩
  · rintro ⟨name, hname⟩
    exact ⟨⟨name, code⟩, AList.mem_lookup_iff.mp hname, rfl⟩

theorem not_allSuccess (h : p.lookup name = some code) (hcode : code ≠ .success) : ¬ AllSuccess p :=
  fun hall => hcode (hall name code h)

theorem merge_eq_success : PluginToStatus.merge p = .success ↔ AllSuccess p := by
  unfold PluginToStatus.merge
  extract_lets codes
  have hbad : ∀ code ∈ codes, code ≠ .success → ¬ AllSuccess p := by
    intro code hcode hne
    obtain ⟨name, hname⟩ := mem_codes.mp hcode
    exact not_allSuccess hname hne
  split_ifs with herror hunresolvable hunschedulable
  · exact iff_of_false (by simp) (hbad _ herror (by simp))
  · exact iff_of_false (by simp) (hbad _ hunresolvable (by simp))
  · exact iff_of_false (by simp) (hbad _ hunschedulable (by simp))
  · refine iff_of_true rfl fun name code hname => ?_
    have hcode : code ∈ codes := mem_codes.mpr ⟨name, hname⟩
    cases code with
    | success => rfl
    | unschedulable => exact absurd hcode hunschedulable
    | unschedulableAndUnresolvable => exact absurd hcode hunresolvable
    | error => exact absurd hcode herror

theorem len_eq_zero : GoMap.len p = 0 ↔ p = ∅ := by
  constructor
  · intro h
    apply AList.ext
    have hkeys : p.keys = [] := length_eq_zero_iff.mp h
    exact map_eq_nil_iff.mp hkeys
  · rintro rfl
    rfl

section

variable {pl : FilterPlugin σ} {rest : List (FilterPlugin σ)}
  {finalStatus statuses : PluginToStatus}

theorem filterLoop_skip (hskip : pl.name ∈ skipPlugins) :
    filterLoop fw state pod nodeInfo skipPlugins (pl :: rest) finalStatus statuses =
      filterLoop fw state pod nodeInfo skipPlugins rest finalStatus statuses := by
  rw [filterLoop, if_pos hskip]

theorem filterLoop_success (hskip : pl.name ∉ skipPlugins)
    (hsuccess : pl.filter state pod nodeInfo = .success) :
    filterLoop fw state pod nodeInfo skipPlugins (pl :: rest) finalStatus statuses =
      filterLoop fw state pod nodeInfo skipPlugins rest finalStatus
        (statuses.insert pl.name .success) := by
  rw [filterLoop, if_neg hskip, hsuccess]
  exact if_pos rfl

theorem filterLoop_failure (hskip : pl.name ∉ skipPlugins)
    (hfailure : pl.filter state pod nodeInfo ≠ .success) :
    filterLoop fw state pod nodeInfo skipPlugins (pl :: rest) finalStatus statuses =
      let r := recordFailure pl.name (pl.filter state pod nodeInfo) finalStatus statuses
      if fw.fitLabelFlag pod nodeInfo then
        filterLoop fw state pod nodeInfo skipPlugins rest r.1 r.2
      else if GoMap.len r.1 > 0 then r.1
      else r.2 := by
  rw [filterLoop, if_neg hskip]
  exact if_neg hfailure

end

/-- The first error is missing or recorded. -/
def FirstError (finalStatus : PluginToStatus) : Prop :=
  finalStatus = ∅ ∨ ∃ name, finalStatus.lookup name = some .error

theorem FirstError.not_allSuccess {finalStatus : PluginToStatus} (h : FirstError finalStatus)
    (hne : finalStatus ≠ ∅) : ¬ AllSuccess finalStatus := by
  obtain ⟨name, hname⟩ := h.resolve_left hne
  exact Preemption.not_allSuccess hname (by simp)

theorem allSuccess_insert {statuses : PluginToStatus} (hnew : name ∉ statuses) :
    AllSuccess (statuses.insert name code) ↔ AllSuccess statuses ∧ code = .success := by
  constructor
  · refine fun h => ⟨fun name' c hc => h name' c ?_, h name code (AList.lookup_insert _)⟩
    rw [AList.lookup_insert_ne, hc]
    rintro rfl
    exact hnew (GoMap.mem_iff_lookup.mpr ⟨c, hc⟩)
  · rintro ⟨h, rfl⟩ name' c hc
    rw [GoMap.lookup_insert'] at hc
    split_ifs at hc
    · exact (Option.some_inj.mp hc).symm
    · exact h name' c hc

theorem recordFailure_spec (hfinal : FirstError finalStatus) (hnew : name ∉ statuses)
    (hcode : code ≠ .success) :
    FirstError (recordFailure name code finalStatus statuses).1 ∧
      ¬ ((recordFailure name code finalStatus statuses).1 = ∅ ∧
        AllSuccess (recordFailure name code finalStatus statuses).2) ∧
      ∀ name', name' ∈ (recordFailure name code finalStatus statuses).2 →
        name' = name ∨ name' ∈ statuses := by
  unfold recordFailure
  split_ifs with hkind hlen
  · have hlookup : ((∅ : PluginToStatus).insert name .error).lookup name = some .error :=
      AList.lookup_insert _
    refine ⟨.inr ⟨name, hlookup⟩, fun h => ?_, fun _ => .inr⟩
    rw [show (∅ : PluginToStatus).insert name .error = ∅ from h.1] at hlookup
    cases hlookup
  · exact ⟨hfinal, fun h => hlen (len_eq_zero.mpr h.1), fun _ => .inr⟩
  · exact ⟨hfinal, fun h => hcode ((allSuccess_insert hnew).mp h.2).2,
      fun name' => (AList.mem_insert _).mp⟩

/-- The statuses returned are all successes exactly if nothing has failed so far and no plugin
fails from here on. -/
theorem allSuccess_filterLoop (hdistinct : (plugins.map FilterPlugin.name).Nodup)
    (hnew : ∀ pl ∈ plugins, pl.name ∉ statuses) (hfinal : FirstError finalStatus) :
    AllSuccess (filterLoop fw state pod nodeInfo skipPlugins plugins finalStatus statuses) ↔
      (finalStatus = ∅ ∧ AllSuccess statuses) ∧
        ∀ pl ∈ plugins, pl.name ∉ skipPlugins → pl.Accepts state pod nodeInfo := by
  induction plugins generalizing finalStatus statuses with
  | nil =>
    rw [filterLoop]
    split_ifs with hlen
    · rw [ne_eq, len_eq_zero] at hlen
      exact iff_of_false (hfinal.not_allSuccess hlen) fun h => hlen h.1.1
    · rw [not_not, len_eq_zero] at hlen
      simp [hlen]
  | cons pl rest ih =>
    rw [nodup_map_cons] at hdistinct
    have hself : pl.name ∉ statuses := hnew pl mem_cons_self
    have hrest : ∀ statuses' : PluginToStatus,
        (∀ name, name ∈ statuses' → name = pl.name ∨ name ∈ statuses) →
        ∀ pl' ∈ rest, pl'.name ∉ statuses' := by
      intro statuses' hsub pl' hpl' hmem
      rcases hsub _ hmem with heq | hmem
      · exact hdistinct.1 pl' hpl' heq
      · exact hnew pl' (mem_cons_of_mem _ hpl') hmem
    rw [forall_mem_cons]
    by_cases hskip : pl.name ∈ skipPlugins
    · rw [filterLoop_skip _ _ _ _ _ hskip, ih hdistinct.2 (hrest _ fun _ => .inr) hfinal]
      simp [hskip]
    by_cases hsuccess : pl.filter state pod nodeInfo = .success
    · rw [filterLoop_success _ _ _ _ _ hskip hsuccess,
        ih hdistinct.2 (hrest _ fun _ => (AList.mem_insert _).mp) hfinal, allSuccess_insert hself]
      simp [FilterPlugin.Accepts, hsuccess]
    · -- the failure is in one of the two maps, whichever of them is returned
      obtain ⟨hfinal', hfailed, hsub⟩ := recordFailure_spec hfinal hself hsuccess
      refine iff_of_false ?_ fun h => hsuccess (h.2.1 hskip)
      rw [filterLoop_failure _ _ _ _ _ hskip hsuccess]
      generalize recordFailure pl.name (pl.filter state pod nodeInfo) finalStatus statuses = r
        at hfinal' hfailed hsub
      dsimp only
      split_ifs with hdebug hlen
      · rw [ih hdistinct.2 (hrest _ hsub) hfinal']
        exact fun h => hfailed h.1
      · exact hfinal'.not_allSuccess fun hempty => by simp [hempty, GoMap.len] at hlen
      · have hempty : r.1 = ∅ := len_eq_zero.mp (by omega)
        exact fun h => hfailed ⟨hempty, h⟩

theorem fits_iff :
    (podPassesFiltersOnNode fw state pod nodeInfo skipPlugins).1 = true ↔
      ∀ pl ∈ fw.filterPlugins, pl.name ∉ skipPlugins → pl.Accepts state pod nodeInfo := by
  rw [podPassesFiltersOnNode, decide_eq_true_iff, merge_eq_success, runFilterPlugins,
    allSuccess_filterLoop fw state pod nodeInfo skipPlugins fw.distinct (by simp) (.inl rfl)]
  have hempty : AllSuccess ∅ := fun name code h => by cases h
  simp [hempty]

/-- The statuses report a plugin as successful only if it accepts the pod. -/
def Reports (statuses : PluginToStatus) : Prop :=
  ∀ name, statuses.lookup name = some .success →
    ∃ pl ∈ fw.filterPlugins, pl.name = name ∧ pl.Accepts state pod nodeInfo

variable {fw state pod nodeInfo} in
theorem Reports.insert {statuses : PluginToStatus} (h : Reports fw state pod nodeInfo statuses)
    {pl : FilterPlugin σ} (hpl : pl ∈ fw.filterPlugins)
    (hcode : code = .success → pl.Accepts state pod nodeInfo) :
    Reports fw state pod nodeInfo (statuses.insert pl.name code) := by
  intro name hname
  rw [GoMap.lookup_insert'] at hname
  split_ifs at hname with heq
  · exact ⟨pl, hpl, heq.symm, hcode (Option.some_inj.mp hname)⟩
  · exact h name hname

variable {fw state pod nodeInfo} in
theorem Reports.recordFailure (hfinal : Reports fw state pod nodeInfo finalStatus)
    (h : Reports fw state pod nodeInfo statuses) {pl : FilterPlugin σ} (hpl : pl ∈ fw.filterPlugins)
    (hcode : code ≠ .success) :
    Reports fw state pod nodeInfo (recordFailure pl.name code finalStatus statuses).1 ∧
      Reports fw state pod nodeInfo (recordFailure pl.name code finalStatus statuses).2 := by
  unfold Preemption.recordFailure
  split_ifs with hkind hlen
  · refine ⟨Reports.insert (fun name hname => ?_) hpl fun herror => ?_, h⟩
    · cases hname
    · cases herror
  · exact ⟨hfinal, h⟩
  · exact ⟨hfinal, h.insert hpl fun hsuccess => absurd hsuccess hcode⟩

theorem reports_filterLoop (hplugins : ∀ pl ∈ plugins, pl ∈ fw.filterPlugins)
    (hfinal : Reports fw state pod nodeInfo finalStatus)
    (hstatuses : Reports fw state pod nodeInfo statuses) :
    Reports fw state pod nodeInfo
      (filterLoop fw state pod nodeInfo skipPlugins plugins finalStatus statuses) := by
  induction plugins generalizing finalStatus statuses with
  | nil =>
    rw [filterLoop]
    split_ifs
    · exact hfinal
    · exact hstatuses
  | cons pl rest ih =>
    obtain ⟨hpl, hrest⟩ := forall_mem_cons.mp hplugins
    have ih {f s} := @ih f s hrest
    by_cases hskip : pl.name ∈ skipPlugins
    · rw [filterLoop_skip _ _ _ _ _ hskip]
      exact ih hfinal hstatuses
    by_cases hsuccess : pl.filter state pod nodeInfo = .success
    · rw [filterLoop_success _ _ _ _ _ hskip hsuccess]
      exact ih hfinal (hstatuses.insert hpl fun _ => hsuccess)
    · obtain ⟨hfinal', hstatuses'⟩ := hfinal.recordFailure hstatuses hpl hsuccess
      rw [filterLoop_failure _ _ _ _ _ hskip hsuccess]
      dsimp only
      split_ifs
      · exact ih hfinal' hstatuses'
      · exact hfinal'
      · exact hstatuses'

theorem accepts_of_success
    (h : (podPassesFiltersOnNode fw state pod nodeInfo skipPlugins).2.lookup name = some .success) :
    ∃ pl ∈ fw.filterPlugins, pl.name = name ∧ pl.Accepts state pod nodeInfo := by
  refine reports_filterLoop fw state pod nodeInfo skipPlugins (fun _ => id) ?_ ?_ name h
  · intro name hname
    cases hname
  · intro name hname
    cases hname

end RunFilters

section

/-- A cycle state and a copy of a node, changed together. -/
structure World (σ : Type) where
  state : σ
  node : SearchNode

variable {σ : Type} (gates : FeatureGates) (o : ResourceOrders) (fw : SchedulerFramework σ)
  (pod : Pod)

/-- The new world, and whether there was no error. -/
def removePod (w : World σ) (rp : Pod) : World σ × Bool :=
  match w.node.removePod gates o rp with
  | .error _ => (w, false)
  | .ok node =>
    let (state, ok) := fw.runPreFilterExtensionRemovePod w.state pod rp node
    (⟨state, node⟩, ok)

def addPod (w : World σ) (ap : Pod) : World σ × Bool :=
  let node := w.node.addPod gates o ap
  let (state, ok) := fw.runPreFilterExtensionAddPod w.state pod ap node
  (⟨state, node⟩, ok)

def World.fits (w : World σ) (skipPlugins : List String) : Bool :=
  (podPassesFiltersOnNode fw w.state pod (some w.node) skipPlugins).1

/-- The plugins that are not asked again once they have accepted the preemptor. -/
def pluginsSkipCheckingDuringPreemption : List String :=
  ["NodeAffinity", "TaintToleration", "NodeUnschedulable", "PodLauncher", "VolumeBinding",
    "NodeLabel", "NodePorts", "NodeResourcesFit", "NodeVolumeLimits", "CinderLimits",
    "AzureDiskLimits", "GCEPDLimits", "EBSLimits", "NonNativeTopology", "Coscheduling"]

/-- The plugins of a status map that need not be asked again. -/
def skippable (statusMap : PluginToStatus) : List String :=
  (statusMap.entries.filter fun e =>
    e.2 = .success ∧ e.1 ∈ pluginsSkipCheckingDuringPreemption).map Sigma.fst

/-- Every plugin to be skipped accepts the preemptor. -/
def World.Skips (w : World σ) (skipPlugins : List String) : Prop :=
  ∀ pl ∈ fw.filterPlugins, pl.name ∈ skipPlugins → pl.Accepts w.state pod (some w.node)

variable {fw pod}

variable {w : World σ} {skipPlugins : List String}

theorem World.fits_iff :
    w.fits fw pod skipPlugins = true ↔
      ∀ pl ∈ fw.filterPlugins, pl.name ∉ skipPlugins → pl.Accepts w.state pod (some w.node) :=
  Preemption.fits_iff fw w.state pod (some w.node) skipPlugins

theorem World.Skips.fits_eq (h : w.Skips fw pod skipPlugins) :
    w.fits fw pod skipPlugins = w.fits fw pod [] := by
  rw [Bool.eq_iff_iff, fits_iff, fits_iff]
  refine forall₂_congr fun pl hpl => ?_
  simp only [not_mem_nil, not_false_eq_true, true_imp_iff]
  by_cases hskip : pl.name ∈ skipPlugins
  · exact iff_of_true (fun hnot => absurd hskip hnot) (h pl hpl hskip)
  · exact ⟨fun hacc => hacc hskip, fun hacc _ => hacc⟩

variable (fw pod) in
theorem World.skips_skippable (w : World σ) (skipPlugins : List String) :
    w.Skips fw pod
      (skippable (podPassesFiltersOnNode fw w.state pod (some w.node) skipPlugins).2) := by
  intro pl hpl hmem
  obtain ⟨⟨name, code⟩, he, rfl⟩ := mem_map.mp hmem
  rw [mem_filter, decide_eq_true_eq] at he
  obtain ⟨hmem, rfl, -⟩ := he
  obtain ⟨pl', hpl', hname, haccepts⟩ := accepts_of_success fw w.state pod (some w.node) skipPlugins
    (AList.mem_lookup_iff.mpr hmem)
  rwa [inj_on_of_nodup_map fw.distinct hpl hpl' hname.symm]

theorem World.Skips.append {skipPlugins' : List String} (h : w.Skips fw pod skipPlugins)
    (h' : w.Skips fw pod skipPlugins') : w.Skips fw pod (skipPlugins ++ skipPlugins') := by
  intro pl hpl hmem
  exact (mem_append.mp hmem).elim (h pl hpl) (h' pl hpl)

end

end GodelScheduler.Preemption
