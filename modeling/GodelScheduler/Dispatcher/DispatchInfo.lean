import GodelScheduler.Framework.Pod
import GodelScheduler.Library.Runs

/-!
# The dispatcher's record of dispatched pods

`DispatchInfo` keeps two indexes of the dispatched pods: `pods` gives the entry
of a pod key, and `schedulerToPods` the pod keys of a scheduler, which are
counted to find the most idle one. The loop that looks for the most idle
scheduler visits them in any order and breaks ties by random draws; the order
and the draws are arguments.

`addPod` writes both indexes and reads neither. A key that is assigned to
another scheduler without a removal in between stays in the set of the first
one, and `exact_iff_reassigned_after_removal` says that this is how the indexes
come apart.
-/

namespace GodelScheduler.Dispatcher

open Library

/-- The key of an object: its namespace and name, or its name alone. -/
def metaNamespaceKeyFunc (pod : Pod) : String :=
  if pod.ns.length > 0 then pod.ns ++ "/" ++ pod.name else pod.name

structure PodInfo where
  podKey : String
  gangID : String
  scheduler : String
  deriving DecidableEq

def newPodInfo (pod : Pod) (scheduler : String) : PodInfo where
  podKey := pod.ns ++ "/" ++ pod.name
  gangID := (pod.podGroupName.map fun pgName => pod.ns ++ "/" ++ pgName).getD ""
  scheduler := scheduler

/-- Sets of pod keys by scheduler; no set in it is empty. -/
abbrev PodStore := GoMap String (GoSet String)

namespace PodStore

def addPod (ps : PodStore) (key podID : String) : PodStore :=
  match ps.lookup key with
  | none => ps.insert key ((∅ : GoSet String).insert podID ())
  | some val => ps.insert key (val.insert podID ())

def removePod (ps : PodStore) (key podID : String) : PodStore :=
  match ps.lookup key with
  | none => ps
  | some val =>
    let val := val.erase podID
    if GoMap.len val = 0 then ps.erase key else ps.insert key val

def podsOf (ps : PodStore) (key : String) : GoSet String := (ps.lookup key).getD ∅

variable (ps : PodStore) (key podID key' podID' : String)

theorem mem_podsOf_addPod :
    podID' ∈ podsOf (addPod ps key podID) key' ↔
      (key' = key ∧ podID' = podID) ∨ podID' ∈ podsOf ps key' := by
  have hinsert : ∀ val : GoSet String, (ps.lookup key).getD ∅ = val →
      (podID' ∈ podsOf (ps.insert key (val.insert podID ())) key' ↔
        (key' = key ∧ podID' = podID) ∨ podID' ∈ podsOf ps key') := by
    intro val hval
    unfold podsOf
    rw [GoMap.lookup_insert']
    split_ifs with hkey
    · subst hkey
      rw [Option.getD_some, AList.mem_insert, hval]
      simp
    · simp [hkey]
  unfold addPod
  cases hlookup : ps.lookup key with
  | none => exact hinsert ∅ (by rw [hlookup]; rfl)
  | some val => exact hinsert val (by rw [hlookup]; rfl)

theorem mem_podsOf_removePod :
    podID' ∈ podsOf (removePod ps key podID) key' ↔
      podID' ∈ podsOf ps key' ∧ ¬ (key' = key ∧ podID' = podID) := by
  unfold removePod
  cases hlookup : ps.lookup key with
  | none =>
    refine ⟨fun hmem => ⟨hmem, ?_⟩, fun hmem => hmem.1⟩
    rintro ⟨rfl, rfl⟩
    rw [podsOf, hlookup] at hmem
    exact absurd hmem (AList.notMem_empty _)
  | some val =>
    have herase : podID' ∈ val.erase podID ↔ podID' ∈ val ∧ podID' ≠ podID := by
      rw [AList.mem_erase, and_comm]
    dsimp only
    split_ifs with hlen
    · have hempty : podID' ∉ val.erase podID := by
        rw [AList.mem_keys, List.eq_nil_of_length_eq_zero hlen]
        exact List.not_mem_nil
      unfold podsOf
      rw [GoMap.lookup_erase']
      split_ifs with hkey
      · subst hkey
        rw [herase] at hempty
        simpa [hlookup] using hempty
      · simp [hkey]
    · unfold podsOf
      rw [GoMap.lookup_insert']
      split_ifs with hkey
      · subst hkey
        rw [Option.getD_some, herase, hlookup]
        simp
      · simp [hkey]

end PodStore

structure DispatchInfo where
  pods : GoMap String PodInfo
  schedulerToPods : PodStore
  schedulers : GoSet String
  deriving DecidableEq

variable (dq : DispatchInfo) (pod : Pod)

namespace DispatchInfo

def newDispatchInfo : DispatchInfo := ⟨∅, ∅, ∅⟩

def addScheduler (schedulerName : String) : DispatchInfo :=
  if schedulerName.length = 0 then dq
  else { dq with schedulers := dq.schedulers.insert schedulerName () }

def deleteScheduler (schedulerName : String) : DispatchInfo :=
  { dq with schedulers := dq.schedulers.erase schedulerName }

/-- The unexported `addPod`, which every entry point that assigns a pod shares. -/
def addPodTo (scheduler : String) : DispatchInfo :=
  let key := metaNamespaceKeyFunc pod
  let podInfo := newPodInfo pod scheduler
  { dq with
    pods := dq.pods.insert key podInfo
    schedulerToPods := dq.schedulerToPods.addPod podInfo.scheduler key }

def addPod : DispatchInfo :=
  dq.addPodTo pod (pod.scheduler.getD "")

def removeFromScheduler (podID : String) : DispatchInfo :=
  if podID.length = 0 then dq
  else
    match dq.pods.lookup podID with
    | none => dq
    | some podInfo =>
      { dq with schedulerToPods := dq.schedulerToPods.removePod podInfo.scheduler podID }

def removePodByKey (key : String) : DispatchInfo :=
  if key ∈ dq.pods then
    let dq := dq.removeFromScheduler key
    { dq with pods := dq.pods.erase key }
  else dq

def removePod : DispatchInfo :=
  dq.removePodByKey (metaNamespaceKeyFunc pod)

def addPodInAdvance (scheduler : String) : DispatchInfo :=
  dq.addPodTo pod scheduler

def updatePodInAdvance (scheduler : String) : DispatchInfo :=
  (dq.removePod pod).addPodTo pod scheduler

structure Reservoir where
  result : String
  max : ℕ
  randomPoolSize : ℕ

/-- One turn of the loop over the schedulers; `intn` gives the draw of this turn. -/
def Reservoir.visit (intn : String → ℕ → ℕ) (r : Reservoir) (schedulerName : String) : Reservoir :=
  let cnt := GoMap.len (dq.schedulerToPods.podsOf schedulerName)
  if cnt < r.max then ⟨schedulerName, cnt, 1⟩
  else if cnt = r.max then
    let r := { r with randomPoolSize := r.randomPoolSize + 1 }
    if intn schedulerName r.randomPoolSize = 0 then { r with result := schedulerName } else r
  else r

/-- The least loaded scheduler, ties broken by reservoir sampling; empty without schedulers. -/
def mostIdleScheduler (o : RangeOrder String) (intn : String → ℕ → ℕ) : String :=
  ((o.list dq.schedulers.keys).foldl (Reservoir.visit dq intn) ⟨"", 2 ^ 31 - 1, 0⟩).result

def getMostIdleSchedulerAndAddPodInAdvance
    (o : RangeOrder String) (intn : String → ℕ → ℕ) : DispatchInfo × String :=
  let result := dq.mostIdleScheduler o intn
  (if result ≠ "" then dq.addPodTo pod result else dq, result)

end DispatchInfo

inductive DispatchOp
  | addScheduler (schedulerName : String)
  | deleteScheduler (schedulerName : String)
  | addPod (pod : Pod)
  | addPodInAdvance (pod : Pod) (scheduler : String)
  | updatePodInAdvance (pod : Pod) (scheduler : String)
  | getMostIdleSchedulerAndAddPodInAdvance (pod : Pod) (o : RangeOrder String)
      (intn : String → ℕ → ℕ)
  | removePod (pod : Pod)
  | removePodByKey (key : String)

namespace DispatchInfo

def step : DispatchOp → DispatchInfo
  | .addScheduler schedulerName => dq.addScheduler schedulerName
  | .deleteScheduler schedulerName => dq.deleteScheduler schedulerName
  | .addPod pod => dq.addPod pod
  | .addPodInAdvance pod scheduler => dq.addPodInAdvance pod scheduler
  | .updatePodInAdvance pod scheduler => dq.updatePodInAdvance pod scheduler
  | .getMostIdleSchedulerAndAddPodInAdvance pod o intn =>
    (dq.getMostIdleSchedulerAndAddPodInAdvance pod o intn).1
  | .removePod pod => dq.removePod pod
  | .removePodByKey key => dq.removePodByKey key

/-- The key is recorded with this scheduler. -/
def Names (key scheduler : String) : Prop :=
  ∃ podInfo, dq.pods.lookup key = some podInfo ∧ podInfo.scheduler = scheduler

/-- A scheduler's set holds exactly the keys recorded with that scheduler. -/
def Exact : Prop :=
  ∀ key scheduler, key ∈ dq.schedulerToPods.podsOf scheduler ↔ dq.Names key scheduler

/-- The key has no entry that names another scheduler. -/
def FreeFor (key scheduler : String) : Prop :=
  ∀ podInfo, dq.pods.lookup key = some podInfo → podInfo.scheduler = scheduler

/-- A pod is assigned only while no entry of its key names another scheduler, and an entry of the
empty key is not removed. -/
def Clean : DispatchOp → Prop
  | .addScheduler _ => True
  | .deleteScheduler _ => True
  | .addPod pod => dq.FreeFor (metaNamespaceKeyFunc pod) (pod.scheduler.getD "")
  | .addPodInAdvance pod scheduler => dq.FreeFor (metaNamespaceKeyFunc pod) scheduler
  | .updatePodInAdvance pod scheduler =>
    metaNamespaceKeyFunc pod = "" → dq.FreeFor "" scheduler
  | .getMostIdleSchedulerAndAddPodInAdvance pod o intn =>
    dq.mostIdleScheduler o intn ≠ "" →
      dq.FreeFor (metaNamespaceKeyFunc pod) (dq.mostIdleScheduler o intn)
  | .removePod pod => metaNamespaceKeyFunc pod = "" → dq.pods.lookup "" = none
  | .removePodByKey key => key = "" → dq.pods.lookup "" = none

section

variable {dq : DispatchInfo} {pod : Pod} {key scheduler : String}

theorem names_addPodTo (key' scheduler' : String) :
    (dq.addPodTo pod scheduler).Names key' scheduler' ↔
      if key' = metaNamespaceKeyFunc pod then scheduler' = scheduler
      else dq.Names key' scheduler' := by
  unfold Names addPodTo
  rw [GoMap.lookup_insert']
  split_ifs with hkey
  · simp [newPodInfo, eq_comm]
  · rfl

theorem mem_podsOf_addPodTo (key' scheduler' : String) :
    key' ∈ (dq.addPodTo pod scheduler).schedulerToPods.podsOf scheduler' ↔
      (scheduler' = scheduler ∧ key' = metaNamespaceKeyFunc pod) ∨
        key' ∈ dq.schedulerToPods.podsOf scheduler' :=
  PodStore.mem_podsOf_addPod ..

/-- Assigning a pod keeps the indexes exact just when no entry of its key names another
scheduler: the set of that scheduler would keep the key. -/
theorem exact_addPodTo_iff (h : dq.Exact) :
    (dq.addPodTo pod scheduler).Exact ↔ dq.FreeFor (metaNamespaceKeyFunc pod) scheduler := by
  constructor
  · intro hafter podInfo hlookup
    have hold : metaNamespaceKeyFunc pod ∈ dq.schedulerToPods.podsOf podInfo.scheduler :=
      (h _ _).mpr ⟨podInfo, hlookup, rfl⟩
    have hstays : metaNamespaceKeyFunc pod ∈
        (dq.addPodTo pod scheduler).schedulerToPods.podsOf podInfo.scheduler :=
      (mem_podsOf_addPodTo _ _).mpr (Or.inr hold)
    rw [hafter, names_addPodTo, if_pos rfl] at hstays
    exact hstays
  · intro hfree key' scheduler'
    rw [mem_podsOf_addPodTo, names_addPodTo]
    split_ifs with hkey
    · subst hkey
      refine ⟨?_, fun heq => Or.inl ⟨heq, rfl⟩⟩
      rintro (⟨heq, -⟩ | hmem)
      · exact heq
      · obtain ⟨podInfo, hlookup, rfl⟩ := (h _ _).mp hmem
        exact hfree podInfo hlookup
    · rw [h]
      simp [hkey]

theorem names_removePodByKey (key' scheduler' : String) :
    (dq.removePodByKey key).Names key' scheduler' ↔ key' ≠ key ∧ dq.Names key' scheduler' := by
  have hpods : (dq.removeFromScheduler key).pods = dq.pods := by
    unfold removeFromScheduler
    split_ifs
    · rfl
    · cases dq.pods.lookup key <;> rfl
  unfold removePodByKey
  split_ifs with hmem
  · unfold Names
    dsimp only
    rw [hpods, GoMap.lookup_erase']
    split_ifs with hkey
    · simp [hkey]
    · simp [hkey]
  · have hnone : dq.pods.lookup key = none := AList.lookup_eq_none.mpr hmem
    refine ⟨fun hnames => ⟨?_, hnames⟩, fun hnames => hnames.2⟩
    rintro rfl
    obtain ⟨podInfo, hlookup, -⟩ := hnames
    rw [hnone] at hlookup
    cases hlookup

theorem mem_podsOf_removePodByKey (hne : key ≠ "") (h : dq.Exact) (key' scheduler' : String) :
    key' ∈ (dq.removePodByKey key).schedulerToPods.podsOf scheduler' ↔
      key' ≠ key ∧ key' ∈ dq.schedulerToPods.podsOf scheduler' := by
  have hlen : key.length ≠ 0 := by simpa using hne
  unfold removePodByKey
  split_ifs with hmem
  · obtain ⟨podInfo, hlookup⟩ := GoMap.mem_iff_lookup.mp hmem
    simp only [removeFromScheduler, if_neg hlen, hlookup]
    rw [PodStore.mem_podsOf_removePod, and_comm]
    refine and_congr_left fun hin => not_congr ⟨fun heq => heq.2, ?_⟩
    rintro rfl
    obtain ⟨podInfo', hlookup', rfl⟩ := (h _ _).mp hin
    rw [hlookup] at hlookup'
    exact ⟨congrArg _ (Option.some.inj hlookup').symm, rfl⟩
  · refine ⟨fun hin => ⟨?_, hin⟩, fun hin => hin.2⟩
    rintro rfl
    obtain ⟨podInfo, hlookup, -⟩ := (h _ _).mp hin
    exact hmem (GoMap.mem_iff_lookup.mpr ⟨podInfo, hlookup⟩)

theorem exact_removePodByKey (hne : key ≠ "") (h : dq.Exact) : (dq.removePodByKey key).Exact := by
  intro key' scheduler'
  rw [mem_podsOf_removePodByKey hne h, names_removePodByKey, h]

/-- The entry of the empty key is deleted from `pods` alone. -/
theorem removePodByKey_empty : (dq.removePodByKey "").schedulerToPods = dq.schedulerToPods := by
  unfold removePodByKey
  split_ifs
  · rfl
  · rfl

theorem exact_removePodByKey_iff (h : dq.Exact) :
    (dq.removePodByKey key).Exact ↔ (key = "" → dq.pods.lookup "" = none) := by
  by_cases hne : key = ""
  · subst hne
    constructor
    · intro hafter _
      by_contra hsome
      obtain ⟨podInfo, hlookup⟩ := Option.ne_none_iff_exists'.mp hsome
      have hold : "" ∈ dq.schedulerToPods.podsOf podInfo.scheduler :=
        (h _ _).mpr ⟨podInfo, hlookup, rfl⟩
      rw [← removePodByKey_empty, hafter, names_removePodByKey] at hold
      exact hold.1 rfl
    · intro hnone
      have hout : "" ∉ dq.pods := AList.lookup_eq_none.mp (hnone rfl)
      rw [removePodByKey, if_neg hout]
      exact h
  · exact iff_of_true (exact_removePodByKey hne h) fun heq => absurd heq hne

theorem exact_updatePodInAdvance_iff (h : dq.Exact) :
    (dq.updatePodInAdvance pod scheduler).Exact ↔
      (metaNamespaceKeyFunc pod = "" → dq.FreeFor "" scheduler) := by
  unfold updatePodInAdvance removePod
  by_cases hne : metaNamespaceKeyFunc pod = ""
  · -- the set of the old scheduler keeps the empty key, as if nothing had been removed
    have hsame : ((dq.removePodByKey (metaNamespaceKeyFunc pod)).addPodTo pod scheduler).Exact ↔
        (dq.addPodTo pod scheduler).Exact := by
      refine forall₂_congr fun key' scheduler' => ?_
      rw [mem_podsOf_addPodTo, mem_podsOf_addPodTo, names_addPodTo, names_addPodTo,
        names_removePodByKey, hne, removePodByKey_empty]
      split_ifs with hkey
      · rfl
      · simp [hkey]
    rw [hsame, exact_addPodTo_iff h, hne]
    simp
  · refine iff_of_true ?_ fun heq => absurd heq hne
    rw [exact_addPodTo_iff (exact_removePodByKey hne h)]
    intro podInfo hlookup
    have hnames := (names_removePodByKey _ _).mp ⟨podInfo, hlookup, rfl⟩
    exact absurd rfl hnames.1

theorem exact_step_iff (h : dq.Exact) (op : DispatchOp) : (dq.step op).Exact ↔ dq.Clean op := by
  cases op with
  | addScheduler schedulerName =>
    refine iff_of_true ?_ trivial
    simp only [step, addScheduler]
    split_ifs
    · exact h
    · exact h
  | deleteScheduler schedulerName => exact iff_of_true h trivial
  | addPod pod => exact exact_addPodTo_iff h
  | addPodInAdvance pod scheduler => exact exact_addPodTo_iff h
  | updatePodInAdvance pod scheduler => exact exact_updatePodInAdvance_iff h
  | getMostIdleSchedulerAndAddPodInAdvance pod o intn =>
    simp only [step, getMostIdleSchedulerAndAddPodInAdvance, Clean]
    split_ifs with hresult
    · rw [exact_addPodTo_iff h]
      simp [hresult]
    · exact iff_of_true h fun hne => absurd hne hresult
  | removePod pod => exact exact_removePodByKey_iff h
  | removePodByKey key => exact exact_removePodByKey_iff h

end

theorem exact_newDispatchInfo : newDispatchInfo.Exact := by
  intro key scheduler
  refine iff_of_false (AList.notMem_empty _) ?_
  rintro ⟨podInfo, hlookup, -⟩
  cases hlookup

/-- The two indexes agree in every state of a run just when no step of it assigns a pod whose
entry names another scheduler, or removes an entry of the empty key. -/
theorem exact_iff_reassigned_after_removal (ops : List DispatchOp) :
    Always step Exact newDispatchInfo ops ↔ Along step Clean newDispatchInfo ops :=
  always_iff_along (fun _ h => h)
    (fun _ op h _ hclean => (exact_step_iff h op).mpr hclean)
    (fun _ op h _ hafter => (exact_step_iff h op).mp hafter)
    exact_newDispatchInfo (along_true newDispatchInfo ops)

/-- A pod is assigned in advance to one scheduler and then, before any removal, to another: the
first scheduler still counts it. -/
theorem reassigned_pod_counted_twice :
    let pod : Pod := { uid := "u", ns := "default", name := "p" }
    let dq := run step newDispatchInfo [.addPodInAdvance pod "s1", .addPodInAdvance pod "s2"]
    "default/p" ∈ dq.schedulerToPods.podsOf "s1" ∧
      dq.pods.lookup "default/p" = some (newPodInfo pod "s2") ∧ ¬ dq.Exact := by
  intro pod dq
  have hcounted : "default/p" ∈ dq.schedulerToPods.podsOf "s1" := by decide
  have hentry : dq.pods.lookup "default/p" = some (newPodInfo pod "s2") := by decide
  refine ⟨hcounted, hentry, ?_⟩
  intro hexact
  obtain ⟨podInfo, hlookup, hscheduler⟩ := (hexact "default/p" "s1").mp hcounted
  rw [hentry, Option.some_inj] at hlookup
  subst hlookup
  exact absurd hscheduler (by decide)

end DispatchInfo

end GodelScheduler.Dispatcher
