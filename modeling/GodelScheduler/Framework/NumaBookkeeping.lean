import GodelScheduler.Framework.NumaAllocations
import GodelScheduler.Framework.NumaReport

/-!
# The NUMA topology over whole runs

A CNR whose zones have different ids sets up a status, and pods come and go. As long
as no pod is added while one of its UID is there, what is available on each NUMA is
what the NUMA can allocate without the recorded allocations of its users, the free
NUMAs of a socket are those whose CPU and memory nobody uses, and the amounts for
shared cores are the sums over the NUMAs whose CPU, or memory, nobody uses. Two zones
with one id are counted twice; `exact_fails_for_equal_ids` is such a CNR.
-/

namespace GodelScheduler

open Library

namespace NumaTopologyStatus

variable {gates : FeatureGates} {o : NumaOrders} {b n m : NumaTopologyStatus} {podKey k : PodKey}

/-- The available amounts, the free NUMAs and the amounts for shared cores are what follows from
the users and the recorded allocations. -/
structure Exact (n : NumaTopologyStatus) : Prop where
  available : ∀ numaId name s, n.status numaId name = some s →
    s.available.nano = s.allocatable.nano - ∑ k ∈ s.users.keys.toFinset, n.booked k (numaId, name)
  recorded : ∀ numaId name s, n.status numaId name = some s →
    ∀ k ∈ s.users, (n.request k (numaId, name)).isSome
  free : ∀ socketId numaId, numaId ∈ n.freeNumas socketId ↔ n.socketOf numaId = some socketId ∧
    ∀ name s, isConflictResourcesForDifferentQoS name → n.status numaId name = some s →
      s.users.len = 0
  shared : ∀ name, isConflictResourcesForDifferentQoS name →
    n.sharedAvailable name = ∑ numaId ∈ n.numas,
      if n.ledger.users (numaId, name) = ∅ then n.weight (numaId, name) else 0

theorem not_occupied_iff (n : NumaTopologyStatus) (numaId : ℤ) :
    ¬n.Occupied numaId ↔ ∀ name s, isConflictResourcesForDifferentQoS name →
      n.status numaId name = some s → s.users.len = 0 := by
  constructor
  · intro h name s hname hs
    rw [← users_eq_empty_iff (c := (numaId, name)) hs]
    exact Finset.eq_empty_of_forall_notMem fun k hk => h ⟨name, k, hname, hk⟩
  · rintro h ⟨name, k, hname, hk⟩
    obtain ⟨s, hs⟩ := Option.isSome_iff_exists.mp (isSome_status_of_mem_users hk)
    rw [(users_eq_empty_iff hs).mpr (h name s hname hs)] at hk
    cases hk

theorem Sound.exact (h : Sound b n) (hb : Tallied b) : Exact n where
  available numaId name s hs := by
    have hbalanced := h.balanced (numaId, name)
    have hcapacity : b.capacity (numaId, name) = s.allocatable.nano := by
      rw [capacity, ← h.allocatable, allocatable, hs]
      rfl
    rw [hcapacity, users_of_status hs] at hbalanced
    simpa [ledger, hs] using hbalanced
  recorded numaId name s hs k hk :=
    h.recorded k (numaId, name) ((mem_users_iff hs).mpr hk)
  free socketId numaId := by
    rw [h.free, hb.free, ← h.socketOf, ← not_occupied_iff]
    exact and_congr_right fun hsocket => not_congr (and_iff_right hsocket)
  shared name hname := by
    have hweight : ∀ c, n.weight c = b.weight c := by
      intro c
      rw [weight, h.allocatable, weight]
    rw [h.shared name hname, hb.shared name hname, numas_congr h.socketOf, Ledger.inUse,
      Finset.sum_product, ← Finset.sum_sub_distrib]
    apply Finset.sum_congr rfl
    intro numaId _
    rw [Finset.sum_singleton, hweight]
    split_ifs <;> ring

/-- Where recorded allocations change nobody uses them. -/
theorem Sound.setPodAllocations (h : Sound b n) (htopology : m.topology = n.topology)
    (hshared : m.availableOfSharedCores = n.availableOfSharedCores)
    (hfree : m.socketToFreeNumasOfConflictResources = n.socketToFreeNumasOfConflictResources)
    (hrequest : ∀ k c, k ∈ n.ledger.users c → m.request k c = n.request k c) : Sound b m := by
  have hledger : m.ledger = n.ledger := by simp only [ledger, status, htopology]
  refine ⟨⟨?_, ?_, ?_, ?_, ?_, ?_⟩, ?_⟩
  · intro numaId
    rw [socketOf, htopology]
    exact h.socketOf numaId
  · intro c
    rw [allocatable, status, htopology]
    exact h.allocatable c
  · rw [hledger]
    apply h.balanced.congr
    intro k c hk
    rw [booked, hrequest k c hk, booked]
  · intro k c hk
    rw [hledger] at hk
    rw [hrequest k c hk]
    exact h.recorded k c hk
  · intro name hname
    rw [sharedAvailable, hshared, hledger]
    exact h.shared name hname
  · rw [hshared]
    exact h.other
  · intro numaId socketId
    rw [freeNumas, hfree, Occupied, hledger]
    exact h.free numaId socketId

section Steps

variable {present present' : List PodKey}

/-- The invariant of a run: every user that the CNR does not report is a pod that is there. -/
structure Kept (b n : NumaTopologyStatus) (present : List PodKey) : Prop where
  sound : Sound b n
  placed : ∀ k, n.Placed k
  users : ∀ k c, k ∈ n.ledger.users c → n.agent k ∨ k ∈ present

/-- The annotation of a pod names NUMAs and resources of the topology. -/
def Names (n : NumaTopologyStatus) (pod : Pod) : Prop :=
  match pod.microTopology with
  | some (.parsed numaAllocations) => ∀ e ∈ numaAllocations.entries,
    e.1 ∈ n.numas ∧ ∀ name ∈ e.2.keys, (n.status e.1 name).isSome
  | _ => True

instance (n : NumaTopologyStatus) (pod : Pod) : Decidable (n.Names pod) := by
  unfold Names
  split <;> infer_instance

theorem Rebooked.kept {U : PodKey → NumaResource → Prop} (h : Rebooked b n U m) (hm : Sound b m)
    (hn : Kept b n present)
    (husers : ∀ k c, U k c → n.agent k ∨ k ∈ present') : Kept b m present' where
  sound := hm
  placed k := h.placed hn.sound (hn.placed k)
  users k c hk := by
    rw [agent, h.podAllocations]
    exact husers k c ((h.users k c).mp hk)

variable (h : Kept b n present)
include h

theorem Kept.setPodAllocations (htopology : m.topology = n.topology)
    (hshared : m.availableOfSharedCores = n.availableOfSharedCores)
    (hfree : m.socketToFreeNumasOfConflictResources = n.socketToFreeNumasOfConflictResources)
    (hothers : ∀ k, k ≠ podKey → m.podAllocations.lookup k = n.podAllocations.lookup k)
    (hunused : ∀ c, podKey ∉ n.ledger.users c) (hplaced : m.Placed podKey) : Kept b m present := by
  have hrequest : ∀ k, k ≠ podKey → m.request k = n.request k := by
    intro k hne
    funext c
    rw [request, request, numaAllocation, numaAllocation, hothers k hne]
  have hne : ∀ k c, k ∈ n.ledger.users c → k ≠ podKey := by
    rintro k c hk rfl
    exact hunused c hk
  refine ⟨?_, ?_, ?_⟩
  · apply h.sound.setPodAllocations htopology hshared hfree
    intro k c hk
    rw [hrequest k (hne k c hk)]
  · intro k
    by_cases hk : k = podKey
    · exact hk ▸ hplaced
    · intro c hc hreq
      rw [hrequest k hk] at hreq
      rw [numas, htopology] at hc
      rw [status, htopology]
      exact h.placed k c hc hreq
  · intro k c hk
    have hledger : m.ledger = n.ledger := by simp only [ledger, status, htopology]
    rw [hledger] at hk
    rw [agent, hothers k (hne k c hk)]
    exact h.users k c hk

theorem Kept.setRequests (requests : Resource) :
    Kept b { n with requestsOfSharedCores := requests } present :=
  ⟨h.sound.setPodAllocations rfl rfl rfl fun _ _ _ => rfl, h.placed, h.users⟩

variable (gates : FeatureGates) (o : NumaOrders)

theorem Kept.addRequestsOfSharedCores (podInfo : PodInfo) :
    Kept b (n.addRequestsOfSharedCores gates o podInfo) present := by
  unfold NumaTopologyStatus.addRequestsOfSharedCores
  split_ifs
  · exact h.setRequests _
  · exact h

theorem Kept.subRequestsOfSharedCores (podInfo : PodInfo) :
    Kept b (n.subRequestsOfSharedCores gates o podInfo) present := by
  unfold NumaTopologyStatus.subRequestsOfSharedCores
  split_ifs
  · exact h.setRequests _
  · exact h

theorem Kept.addAllocation (podKey : PodKey) :
    ∃ m, n.addAllocation gates o podKey = some m ∧ Kept b m (podKey :: present) := by
  obtain ⟨m, hm, hrebooked, hsound⟩ := addAllocation_spec h.sound (h.placed podKey)
  refine ⟨m, hm, hrebooked.kept hsound h ?_⟩
  rintro k c (⟨rfl, -⟩ | ⟨-, hk⟩)
  · exact .inr (List.mem_cons_self ..)
  · exact (h.users k c hk).imp_right (List.mem_cons_of_mem _)

theorem Kept.recordMicroTopology {pod : Pod} {numaAllocations : GoMap ℤ ResourceList}
    (hann : pod.microTopology = some (.parsed numaAllocations)) (hnames : n.Names pod)
    (hunused : ∀ c, podKey ∉ n.ledger.users c) :
    Kept b (n.recordMicroTopology podKey numaAllocations) present := by
  unfold NumaTopologyStatus.recordMicroTopology
  split_ifs
  · refine h.setPodAllocations rfl rfl rfl (fun k hk => AList.lookup_insert_ne hk) hunused ?_
    rintro ⟨numaId, name⟩ - hreq
    have hlist : ∃ list, numaAllocations.lookup numaId = some list ∧ name ∈ list := by
      simp only [request, numaAllocation, AList.lookup_insert, Option.getD_some] at hreq
      cases hlookup : numaAllocations.lookup numaId with
      | none => simp [hlookup] at hreq
      | some list =>
        rw [hlookup, Option.getD_some, AList.lookup_isSome] at hreq
        exact ⟨list, rfl, hreq⟩
    obtain ⟨list, hlookup, hname⟩ := hlist
    rw [Names, hann] at hnames
    exact (hnames ⟨numaId, list⟩ (AList.mem_lookup_iff.mp hlookup)).2 name hname
  · exact h

/-- A pod whose UID is not there finds its allocation unused, unless the CNR reports it. -/
theorem Kept.unused {pod : Pod} (hnew : ∀ k ∈ present, parsePodKey k ≠ some pod.uid)
    (hagent : n.agent pod.generatePodKey = false) (c : NumaResource) :
    pod.generatePodKey ∉ n.ledger.users c := by
  intro hk
  rcases h.users _ c hk with hag | hmem
  · rw [hagent] at hag
    cases hag
  · exact hnew _ hmem rfl

theorem Kept.addPod {podInfo : PodInfo} (hnew : ∀ k ∈ present, parsePodKey k ≠ some podInfo.pod.uid)
    (hnames : n.Names podInfo.pod) :
    ∃ m, n.addPod gates o podInfo = some m ∧ Kept b m (podInfo.pod.generatePodKey :: present) := by
  have hm := h.addRequestsOfSharedCores gates o podInfo
  have hnames' : (n.addRequestsOfSharedCores gates o podInfo).Names podInfo.pod := by
    unfold NumaTopologyStatus.addRequestsOfSharedCores
    split_ifs
    · exact hnames
    · exact hnames
  unfold NumaTopologyStatus.addPod
  extract_lets m podKey
  split
  next hann hagent =>
    exact ⟨m, rfl, hm.sound, hm.placed,
      fun k c hk => (hm.users k c hk).imp_right (List.mem_cons_of_mem _)⟩
  next numaAllocations hann hagent =>
    exact (hm.recordMicroTopology hann hnames' (hm.unused hnew hagent)).addAllocation gates o podKey
  next => exact hm.addAllocation gates o podKey

theorem Kept.removePod (hb : Tallied b) (gates : FeatureGates) (o : NumaOrders) (podInfo : PodInfo)
    (preempt : Bool) :
    ∃ m, n.updateNonNativeResource gates o podInfo false preempt = some m ∧
      Kept b m (present.filter (· ≠ podInfo.pod.generatePodKey)) := by
  have hsub := h.subRequestsOfSharedCores gates o podInfo
  have hpods : (n.subRequestsOfSharedCores gates o podInfo).podAllocations = n.podAllocations := by
    unfold NumaTopologyStatus.subRequestsOfSharedCores
    split_ifs <;> rfl
  set m := n.subRequestsOfSharedCores gates o podInfo
  set podKey := podInfo.pod.generatePodKey
  have hfilter : ∀ k, m.agent k ∨ k ∈ present → k ≠ podKey →
      m.agent k ∨ k ∈ present.filter (· ≠ podKey) := by
    intro k hk hne
    exact hk.imp_right fun hmem => List.mem_filter.mpr ⟨hmem, by simpa using hne⟩
  -- the allocation stays with its users only if the CNR reports it
  have hstays : (∀ allocation, n.podAllocations.lookup podKey = some allocation →
      allocation.agent) → Kept b m (present.filter (· ≠ podKey)) := by
    intro hagent
    refine ⟨hsub.sound, hsub.placed, fun k c hk => ?_⟩
    by_cases hne : k = podKey
    · left
      have hreq := hsub.sound.recorded k c hk
      rw [hne] at hreq ⊢
      cases hlookup : n.podAllocations.lookup podKey with
      | none =>
        rw [request_eq_none (hpods ▸ hlookup)] at hreq
        cases hreq
      | some allocation =>
        rw [agent, hpods, hlookup]
        exact hagent allocation hlookup
    · exact hfilter k (hsub.users k c hk) hne
  obtain ⟨r, hr, hrebooked, hsound⟩ := removeAllocation_spec gates o hsub.sound
    (fun numaId socketId => (hb.free numaId socketId).mpr) (hsub.placed podKey)
  have hkept : Kept b r (present.filter (· ≠ podKey)) :=
    hrebooked.kept hsound hsub fun k c hk => hfilter k (hsub.users k c hk.2) hk.1
  have herased : Kept b { r with podAllocations := r.podAllocations.erase podKey }
      (present.filter (· ≠ podKey)) := by
    refine hkept.setPodAllocations rfl rfl rfl (fun k hk => AList.lookup_erase_ne hk) ?_ ?_
    · intro c hk
      exact ((hrebooked.users podKey c).mp hk).1 rfl
    · intro c _ hreq
      rw [request_eq_none (AList.lookup_erase podKey r.podAllocations)] at hreq
      cases hreq
  cases hlookup : n.podAllocations.lookup podKey with
  | none =>
    cases preempt with
    | false =>
      refine ⟨m,
        by simp [updateNonNativeResource, NumaTopologyStatus.removePod, hlookup, podKey, m],
        hstays ?_⟩
      simp [hlookup]
    | true =>
      refine ⟨r, ?_, hkept⟩
      simp [updateNonNativeResource, NumaTopologyStatus.removePod, hr, m, podKey]
  | some allocation =>
    cases preempt with
    | true =>
      refine ⟨r, ?_, hkept⟩
      simp [updateNonNativeResource, NumaTopologyStatus.removePod, hr, m, podKey]
    | false =>
      cases hagent : allocation.agent with
      | true =>
        refine ⟨m, ?_, hstays ?_⟩
        · simp [updateNonNativeResource, NumaTopologyStatus.removePod, hlookup, podKey, m, hagent]
        · simp [hlookup, hagent]
      | false =>
        refine ⟨_, ?_, herased⟩
        simp [updateNonNativeResource, NumaTopologyStatus.removePod, hlookup, podKey, m, hagent, hr]

end Steps

theorem remembered_nil (o : NumaOrders) : o.remembered.list [] = [] :=
  (o.remembered.perm []).eq_nil

theorem exists_parse_new (gates : FeatureGates) (o : NumaOrders) {cnr : CustomNodeResource}
    (pods : PodInfoMaintainer) (requests : Resource)
    (htallied : Tallied ((new requests).parseZones gates o cnr)) :
    ∃ m, (new requests).parseNumaTopologyStatus gates o cnr pods = some m ∧
      Kept ((new requests).parseZones gates o cnr) m [] := by
  set b := (new requests).parseZones gates o cnr
  have hbase : Base b := base_parseZones gates o (new requests) cnr
  have hempty : ∀ k c, k ∉ b.ledger.users c := by
    intro k c
    rw [hbase.idle.users]
    exact Finset.notMem_empty k
  obtain ⟨m, hm, h, hsound⟩ := settleAllocations_spec gates o hbase.idle.sound hempty hbase.numas
  have hkeys : (new requests).podAllocations.keys = [] := rfl
  refine ⟨m, ?_, hsound, ?_, ?_⟩
  · rw [parseNumaTopologyStatus, hkeys, remembered_nil]
    exact hm
  · intro k
    apply h.placed hbase.idle.sound
    exact fun c _ => htallied.placed k c
  · intro k c hk
    left
    obtain ⟨q, hq, -⟩ := ((h.users k c).mp hk).2.exists_request
    have hmem : k ∈ b.podAllocations := by
      by_contra hnot
      rw [request_eq_none (AList.lookup_eq_none.mpr hnot)] at hq
      cases hq
    rw [agent, h.podAllocations]
    exact hbase.agent k hmem

end NumaTopologyStatus

/-- A status in a run, `none` after a nil pointer, and the pods that were added and not removed. -/
structure NumaRun where
  status : Option NumaTopologyStatus
  present : List PodKey

inductive NumaOp
  | addPod (o : NumaOrders) (podInfo : PodInfo)
  | removePod (o : NumaOrders) (podInfo : PodInfo) (preempt : Bool)

namespace NumaRun

open NumaTopologyStatus NumaExample

def step (gates : FeatureGates) (s : NumaRun) : NumaOp → NumaRun
  | .addPod o podInfo =>
    ⟨s.status.bind fun n => n.updateNonNativeResource gates o podInfo true false,
      podInfo.pod.generatePodKey :: s.present⟩
  | .removePod o podInfo preempt =>
    ⟨s.status.bind fun n => n.updateNonNativeResource gates o podInfo false preempt,
      s.present.filter (· ≠ podInfo.pod.generatePodKey)⟩

/-- A pod is added only while no pod of its UID is there, and with an annotation that names NUMAs
and resources of the topology. -/
def AddsNew (s : NumaRun) : NumaOp → Prop
  | .addPod _ podInfo => (∀ k ∈ s.present, parsePodKey k ≠ some podInfo.pod.uid) ∧
    ∀ n ∈ s.status, n.Names podInfo.pod
  | .removePod _ _ _ => True

instance (s : NumaRun) (op : NumaOp) : Decidable (s.AddsNew op) := by
  cases op <;> unfold AddsNew <;> infer_instance

def start (gates : FeatureGates) (o : NumaOrders) (cnr : CustomNodeResource)
    (pods : PodInfoMaintainer) (requests : Resource) : NumaRun :=
  ⟨(new requests).parseNumaTopologyStatus gates o cnr pods, []⟩

theorem kept_step {gates : FeatureGates} {b : NumaTopologyStatus} (hb : Tallied b) (s : NumaRun)
    (op : NumaOp) (h : ∃ n, s.status = some n ∧ Kept b n s.present) (hnew : s.AddsNew op) :
    ∃ n, (s.step gates op).status = some n ∧ Kept b n (s.step gates op).present := by
  obtain ⟨n, hn, hkept⟩ := h
  cases op with
  | addPod o podInfo =>
    obtain ⟨m, hm, hkept⟩ := hkept.addPod gates o hnew.1 (hnew.2 n hn)
    exact ⟨m, by simp [step, hn, updateNonNativeResource, hm], hkept⟩
  | removePod o podInfo preempt =>
    obtain ⟨m, hm, hkept⟩ := hkept.removePod hb gates o podInfo preempt
    exact ⟨m, by simp [step, hn, hm], hkept⟩

def podComesAndGoes : List NumaOp :=
  [.addPod .forward podOnNuma, .removePod .forward podOnNuma true,
    .addPod .forward podOnNuma, .removePod .forward podOnNuma false]

def equalIds : CustomNodeResource where
  name := nodeNamed ""
  topologyZone := [{ name := "0", children := [numaWithCPU "0" 4] },
    { name := "1", children := [numaWithCPU "0" 4] }]

end NumaRun

end GodelScheduler
