import GodelScheduler.Framework.NumaAllocations
import GodelScheduler.Framework.NumaReport

/-!
# The NUMA topology after CNR events

Setting a CNR reads what it reports and takes over the annotations of the pods that
were recorded before; removing the CNR forgets what is recorded. So a removal before
a CNR is set is noticed if some recorded pod that the CNR does not report has an
annotation that matters: one that names a resource of the new topology, or a NUMA the
topology does not have, which the source looks up without a check.
-/

namespace GodelScheduler

open Library NumaTopologyStatus Quantity Option

variable (cnr : CustomNodeResource)

namespace CustomNodeResource

/-- The zone that counts under an id: the last one. -/
def zoneOf (numaId : ℤ) : Option (ℤ × TopologyChild) :=
  (cnr.numaZones.filter fun zone => zoneId zone = numaId).getLast?

def hasNuma (numaId : ℤ) : Bool := (cnr.zoneOf numaId).isSome

/-- The NUMA can allocate the resource or has a recorded request for it. -/
def hasResource (numaId : ℤ) (name : ResourceName) : Bool :=
  (cnr.zoneOf numaId).any fun zone =>
    (zone.2.allocatableOf name).isSome || zone.2.requested name

/-- An allocation of the pod is reported, of whatever resources. -/
def reports (podKey : PodKey) : Bool :=
  cnr.numaZones.any fun zone =>
    zone.2.allocations.any fun a => a.consumer = podKey && a.requests.isSome

end CustomNodeResource

/-- The fields of a node info that CNR events write. -/
structure NumaNodeInfo where
  podInfoMaintainer : PodInfoMaintainer
  cnr : Option CustomNodeResource
  numaTopologyStatus : NumaTopologyStatus

namespace NumaNodeInfo

variable (gates : FeatureGates) (o : NumaOrders)

def setCNR (n : NumaNodeInfo) (cnr : CustomNodeResource) : Option NumaNodeInfo := do
  let status ← n.numaTopologyStatus.parseNumaTopologyStatus gates o cnr n.podInfoMaintainer
  pure { n with cnr := some cnr, numaTopologyStatus := status }

def removeCNR (n : NumaNodeInfo) : NumaNodeInfo :=
  { n with cnr := none, numaTopologyStatus := n.numaTopologyStatus.removeCNR }

/-- The pod is stored before the topology follows. -/
def addPod (n : NumaNodeInfo) (podInfo : PodInfo) : Option NumaNodeInfo := do
  let status ← n.numaTopologyStatus.updateNonNativeResource gates o podInfo true false
  pure { n with
    podInfoMaintainer := n.podInfoMaintainer.addPodInfo podInfo.pod
    numaTopologyStatus := status }

end NumaNodeInfo

namespace NumaTopologyStatus

variable {gates : FeatureGates} {o o' : NumaOrders} {b n m n' m' : NumaTopologyStatus}
  {podKey k : PodKey} {cnr : CustomNodeResource} {pods : PodInfoMaintainer}

section

variable (gates o n cnr) (numaId : ℤ)

theorem parseZones_eq :
    (n.parseZones gates o cnr).socketOf numaId = (cnr.zoneOf numaId).map Prod.fst ∧
      ∀ name, (n.parseZones gates o cnr).status numaId name =
        (cnr.zoneOf numaId).bind fun zone => zone.2.statusOf name := by
  refine foldl_of_step (P := fun done (m : NumaTopologyStatus) =>
    m.socketOf numaId =
        ((done.filter fun zone => zoneId zone = numaId).getLast?).map Prod.fst ∧
      ∀ name, m.status numaId name =
        ((done.filter fun zone => zoneId zone = numaId).getLast?).bind fun zone =>
          zone.2.statusOf name) cnr.numaZones ⟨rfl, fun _ => rfl⟩ ?_
  rintro done zone rest m - ⟨hsocket, hstatus⟩
  have hparsed := parsed_parseNuma gates o m zone
  simp only [hparsed.socketOf, hparsed.status, hsocket, hstatus, List.filter_append]
  by_cases heq : zoneId zone = numaId
  · simp [heq]
  · have hne : numaId ≠ zoneId zone := fun h => heq h.symm
    simp [heq, hne]

theorem isSome_status_parseZones (name : ResourceName) :
    ((n.parseZones gates o cnr).status numaId name).isSome = cnr.hasResource numaId name := by
  rw [(parseZones_eq gates o n cnr numaId).2, CustomNodeResource.hasResource]
  cases cnr.zoneOf numaId with
  | none => rfl
  | some zone =>
    rw [bind_some, any_some, TopologyChild.statusOf]
    cases zone.2.allocatableOf name with
    | some q => rfl
    | none => by_cases hreq : zone.2.requested name <;> simp [hreq]

theorem mem_numas_parseZones : numaId ∈ (n.parseZones gates o cnr).numas ↔ cnr.hasNuma numaId := by
  rw [mem_numas, (parseZones_eq gates o n cnr numaId).1, isSome_map,
    CustomNodeResource.hasNuma]

theorem mem_podAllocations_parseZones (k : PodKey) :
    k ∈ (n.parseZones gates o cnr).podAllocations ↔ cnr.reports k := by
  refine foldl_of_step (P := fun done (m : NumaTopologyStatus) => k ∈ m.podAllocations ↔
    done.any fun zone => zone.2.allocations.any fun a => a.consumer = k && a.requests.isSome)
    cnr.numaZones ?_ ?_
  · simp only [List.any_nil, Bool.false_eq_true, iff_false]
    exact AList.notMem_empty k
  · intro done zone rest m _ h
    rw [(parsed_parseNuma gates o m zone).mem, h, List.any_append, Bool.or_eq_true]
    simp

variable {gates o n cnr}

/-- Statuses with the same entries, whatever the order of their maps. -/
structure Agrees (n m : NumaTopologyStatus) : Prop where
  socketOf : ∀ numaId, m.socketOf numaId = n.socketOf numaId
  status : ∀ numaId name, m.status numaId name = n.status numaId name
  shared : m.availableOfSharedCores = n.availableOfSharedCores
  free : ∀ numaId socketId, numaId ∈ m.freeNumas socketId ↔ numaId ∈ n.freeNumas socketId
  request : ∀ k c, m.request k c = n.request k c
  requests : m.requestsOfSharedCores = n.requestsOfSharedCores

theorem shared_eq {c c' : Resource} (hcpu : n.sharedAvailable "cpu" = m.sharedAvailable "cpu")
    (hmem : n.sharedAvailable "memory" = m.sharedAvailable "memory")
    (h : ∃ milliCPU memory, n.availableOfSharedCores = { c with milliCPU, memory })
    (h' : ∃ milliCPU memory, m.availableOfSharedCores = { c' with milliCPU, memory })
    (heq : c = c') : n.availableOfSharedCores = m.availableOfSharedCores := by
  obtain ⟨milliCPU, memory, hn⟩ := h
  obtain ⟨milliCPU', memory', hm⟩ := h'
  simp only [sharedAvailable, if_true, hn, hm] at hcpu
  simp only [sharedAvailable, hn, hm, show ("memory" : String) ≠ "cpu" by decide, if_false] at hmem
  rw [hn, hm, heq, hcpu, hmem]

theorem Agrees.sharedAvailable (h : Agrees n m) (name : ResourceName) :
    m.sharedAvailable name = n.sharedAvailable name := by
  rw [NumaTopologyStatus.sharedAvailable, h.shared, NumaTopologyStatus.sharedAvailable]

theorem Agrees.parsed {zone : ℤ × TopologyChild} (h : Agrees n m) (hn : Parsed n zone n')
    (hm : Parsed m zone m') : Agrees n' m' where
  socketOf numaId := by rw [hm.socketOf, hn.socketOf, h.socketOf]
  status numaId name := by rw [hm.status, hn.status, h.status]
  shared := by
    apply shared_eq _ _ hm.other hn.other h.shared
    · rw [hm.shared _ (by decide), hn.shared _ (by decide), h.sharedAvailable]
    · rw [hm.shared _ (by decide), hn.shared _ (by decide), h.sharedAvailable]
  free numaId socketId := by rw [hm.free, hn.free, h.free]
  request k c := by rw [hm.request, hn.request, h.request]
  requests := by rw [hm.requests, hn.requests, h.requests]

theorem agrees_parseZones (gates : FeatureGates) (o o' : NumaOrders) (n n' : NumaTopologyStatus)
    (cnr : CustomNodeResource) (h : n'.requestsOfSharedCores = n.requestsOfSharedCores) :
    Agrees (n.parseZones gates o cnr) (n'.parseZones gates o' cnr) := by
  unfold parseZones
  rw [h]
  apply List.foldl_rel
  · exact ⟨fun _ => rfl, fun _ _ => rfl, rfl, fun _ _ => Iff.rfl, fun _ _ => rfl, rfl⟩
  · intro zone _ n m h
    exact h.parsed (parsed_parseNuma gates o n zone) (parsed_parseNuma gates o' m zone)

end

variable {keys : List PodKey}

section

/-- The pods in `keys` that were not reported are taken over with their annotations. -/
structure Remembers (pods : PodInfoMaintainer) (b : NumaTopologyStatus) (keys : List PodKey)
    (m : NumaTopologyStatus) : Prop where
  rest : ∃ podAllocations, m = { b with podAllocations }
  lookup : ∀ k, m.podAllocations.lookup k = (b.podAllocations.lookup k).or
    (if k ∈ keys then (pods.numaAllocations k).map fun numaAllocations => { numaAllocations }
      else none)

theorem lookup_rememberPod (k k' : PodKey) : (rememberPod pods m k).podAllocations.lookup k' =
    (m.podAllocations.lookup k').or (if k' = k then
      (pods.numaAllocations k).map fun numaAllocations => { numaAllocations } else none) := by
  unfold rememberPod
  split_ifs with hmem hk hk
  · obtain ⟨a, ha⟩ := GoMap.mem_iff_lookup.mp (hk ▸ hmem)
    simp [ha]
  · simp
  · subst hk
    have hnone : m.podAllocations.lookup k' = none := AList.lookup_eq_none.mpr hmem
    cases pods.numaAllocations k' <;> simp [hnone]
  · cases pods.numaAllocations k <;> simp [hk]

theorem Remembers.rememberPod (h : Remembers pods b keys m) (k : PodKey) :
    Remembers pods b (keys ++ [k]) (rememberPod pods m k) := by
  constructor
  · obtain ⟨podAllocations, rfl⟩ := h.rest
    unfold NumaTopologyStatus.rememberPod
    split_ifs
    · exact ⟨_, rfl⟩
    · split <;> exact ⟨_, rfl⟩
  · intro k'
    rw [lookup_rememberPod, h.lookup, Option.or_assoc]
    by_cases hk : k' = k
    · subst hk
      by_cases hdone : k' ∈ keys <;> simp [hdone]
    · simp [hk]

theorem remembers_foldl (pods : PodInfoMaintainer) (b : NumaTopologyStatus)
    (keys : List PodKey) : Remembers pods b keys (keys.foldl (rememberPod pods) b) :=
  foldl_of_step keys ⟨⟨_, rfl⟩, by simp⟩
    fun _ k _ _ _ h => h.rememberPod k

end

section

theorem keepsRest_settleRequests (gates : FeatureGates) (podKey : PodKey) (numaId : ℤ)
    (list : ResourceList) (names : List ResourceName) (l : NumaTopologyStatus × Bool) :
    KeepsRest l.1 (names.foldl (settleRequest gates podKey numaId list) l).1 := by
  refine List.foldlRecOn names _ (motive := fun (l' : _ × Bool) => KeepsRest l.1 l'.1)
    (KeepsRest.refl _) ?_
  intro l' h name _
  apply h.trans
  unfold settleRequest
  split
  · exact KeepsRest.refl _
  next s hs =>
    extract_lets podRequest
    split_ifs
    · exact KeepsRest.refl _
    · exact (writes_useResource (c := (numaId, name)) gates hs podKey podRequest).rest

/-- What booking the pods leaves alone, seen from a later status. -/
def SameShape (n m : NumaTopologyStatus) : Prop :=
  m.podAllocations = n.podAllocations ∧ m.numas = n.numas

theorem settleNumaAllocation_eq_some {e : Sigma fun _ : ℤ => ResourceList}
    (h : settleNumaAllocation gates o podKey n e = some m) : e.1 ∈ n.numas ∧ SameShape n m := by
  unfold settleNumaAllocation at h
  split at h
  · cases h
  next numaStatus hlookup =>
    have hkeeps := keepsRest_settleRequests gates podKey e.1 e.2
      ((o.resourceStatuses podKey e.1).list numaStatus.resourceStatuses.keys) (n, true)
    refine ⟨mem_numas_of_lookup hlookup, ?_⟩
    simp only [some_inj] at h
    subst h
    split_ifs
    · exact ⟨hkeeps.podAllocations, numas_congr hkeeps.socketOf⟩
    · obtain ⟨free, hfree⟩ := updateFree_eq _ false e.1 numaStatus.socketId
      rw [hfree]
      exact ⟨hkeeps.podAllocations, numas_congr hkeeps.socketOf⟩

/-- The loops that book pods, from what one round that does not fail says. -/
theorem SameShape.of_foldlM {E : Type} {l : List E} {Q : E → Prop}
    {step : NumaTopologyStatus → E → Option NumaTopologyStatus}
    (hstep : ∀ r r' e, SameShape n r → step r e = some r' → Q e ∧ SameShape r r')
    (h : l.foldlM step n = some m) : (∀ e ∈ l, Q e) ∧ SameShape n m := by
  refine of_foldlM_eq_some (P := fun done m => (∀ e ∈ done, Q e) ∧ SameShape n m) l
    ⟨by simp, rfl, rfl⟩ ?_ h
  rintro done e rest r r' - ⟨hdone, hshape⟩ hr
  obtain ⟨hQ, hpods, hnumas⟩ := hstep r r' e hshape hr
  refine ⟨?_, hpods.trans hshape.1, hnumas.trans hshape.2⟩
  simpa [or_imp, forall_and] using ⟨hdone, hQ⟩

theorem settleAllocation_eq_some (h : n.settleAllocation gates o podKey = some m) :
    (∀ numaId ∈ n.allocatedNumas podKey, numaId ∈ n.numas) ∧ SameShape n m := by
  unfold settleAllocation at h
  cases hlookup : n.podAllocations.lookup podKey with
  | none =>
    rw [hlookup] at h
    cases h
    refine ⟨fun numaId hmem => ?_, rfl, rfl⟩
    rw [allocatedNumas, hlookup] at hmem
    exact absurd hmem (AList.notMem_empty numaId)
  | some allocation =>
    rw [hlookup] at h
    have hall := SameShape.of_foldlM (Q := fun e => e.1 ∈ n.numas) (fun r r' e hshape hr => by
      rw [← hshape.2]
      exact settleNumaAllocation_eq_some hr) h
    refine ⟨fun numaId hmem => ?_, hall.2⟩
    rw [allocatedNumas, hlookup] at hmem
    obtain ⟨list, hlist⟩ := GoMap.mem_iff_lookup.mp hmem
    exact hall.1 ⟨numaId, list⟩
      ((o.numaAllocations podKey).mem_list.mpr (AList.mem_lookup_iff.mp hlist))

/-- A status is set up only if the topology has the NUMAs of every recorded allocation. -/
theorem settleAllocations_eq_some
    (h : (o.podAllocations.list n.podAllocations.keys).foldlM (settleAllocation gates o) n =
      some m) (k : PodKey) : ∀ numaId ∈ n.allocatedNumas k, numaId ∈ n.numas := by
  have hall := SameShape.of_foldlM
    (Q := fun k => ∀ numaId ∈ n.allocatedNumas k, numaId ∈ n.numas) (fun r r' k hshape hr => by
      rw [allocatedNumas, ← hshape.1, ← hshape.2]
      exact settleAllocation_eq_some hr) h
  intro numaId hmem
  refine hall.1 k ?_ numaId hmem
  rw [o.podAllocations.mem_list, ← AList.mem_keys]
  by_contra hnot
  rw [allocatedNumas, AList.lookup_eq_none.mpr hnot] at hmem
  exact absurd hmem (AList.notMem_empty numaId)

end

section

/-- The NUMAs, what they can allocate, what is available, who uses it, the free NUMAs and the
amounts for shared cores are the same. -/
structure SameStatus (n m : NumaTopologyStatus) : Prop where
  socketOf : ∀ numaId, m.socketOf numaId = n.socketOf numaId
  allocatable : ∀ c, m.allocatable c = n.allocatable c
  available : ∀ c, m.ledger.available c = n.ledger.available c
  users : ∀ c, m.ledger.users c = n.ledger.users c
  free : ∀ numaId socketId, numaId ∈ m.freeNumas socketId ↔ numaId ∈ n.freeNumas socketId
  available_shared : m.availableOfSharedCores = n.availableOfSharedCores
  requests_shared : m.requestsOfSharedCores = n.requestsOfSharedCores

/-- Two statuses set up from reports that agree are the same if the users and what is recorded for
them are. -/
theorem Agrees.sameStatus {b' : NumaTopologyStatus} {p p' : GoMap PodKey PodAllocation}
    (h : Agrees b b') (hn : Sound { b with podAllocations := p } n)
    (hm : Sound { b' with podAllocations := p' } m)
    (hrequests : m.requestsOfSharedCores = n.requestsOfSharedCores)
    (husers : ∀ c, m.ledger.users c = n.ledger.users c)
    (hrecorded : ∀ k c, k ∈ n.ledger.users c → m.request k c = n.request k c) :
    SameStatus n m := by
  have hallocatable : ∀ c, b'.allocatable c = b.allocatable c := by
    intro c
    rw [allocatable, h.status, allocatable]
  have hinUse : ∀ name, m.ledger.inUse b'.weight (b'.numas ×ˢ {name}) =
      n.ledger.inUse b.weight (b.numas ×ˢ {name}) := by
    intro name
    have hweight : b'.weight = b.weight := by
      funext c
      rw [weight, hallocatable, weight]
    rw [numas_congr h.socketOf, hweight]
    exact Ledger.inUse_congr fun c _ => husers c
  have hsharedAvailable : ∀ name, isConflictResourcesForDifferentQoS name →
      m.sharedAvailable name = n.sharedAvailable name := by
    intro name hname
    rw [hm.shared name hname, hn.shared name hname]
    exact congrArg₂ (· - ·) (h.sharedAvailable name) (hinUse name)
  refine ⟨?_, ?_, ?_, husers, ?_, ?_, hrequests⟩
  · intro numaId
    rw [hm.socketOf, hn.socketOf]
    exact h.socketOf numaId
  · intro c
    rw [hm.allocatable, hn.allocatable]
    exact hallocatable c
  · intro c
    have hcapacity : b'.capacity c = b.capacity c := by rw [capacity, hallocatable, capacity]
    rw [hm.balanced c, hn.balanced c, husers]
    refine congrArg₂ _ hcapacity ?_
    refine Finset.sum_congr rfl fun k hk => ?_
    rw [booked, hrecorded k c hk, booked]
  · intro numaId socketId
    rw [hm.free, hn.free]
    simp only [Occupied, husers]
    exact and_congr (h.free numaId socketId)
      (not_congr (and_congr_left fun _ => (h.socketOf numaId).congr_left))
  · exact shared_eq (hsharedAvailable "cpu" (by decide)) (hsharedAvailable "memory" (by decide))
      hm.other hn.other h.shared

end

section

/-- What is recorded when a CNR is set, before it is booked. -/
def merged (gates : FeatureGates) (o : NumaOrders) (n : NumaTopologyStatus)
    (cnr : CustomNodeResource) (pods : PodInfoMaintainer) : NumaTopologyStatus :=
  (o.remembered.list n.podAllocations.keys).foldl (rememberPod pods) (n.parseZones gates o cnr)

/-- A topology that has every NUMA of the recorded allocations. -/
def HasNumas (m : NumaTopologyStatus) : Prop := ∀ k, ∀ numaId ∈ m.allocatedNumas k, numaId ∈ m.numas

variable (gates o n cnr pods)

theorem remembers_merged :
    Remembers pods (n.parseZones gates o cnr) (o.remembered.list n.podAllocations.keys)
      (n.merged gates o cnr pods) :=
  remembers_foldl pods (n.parseZones gates o cnr) _

theorem idle_merged : (n.merged gates o cnr pods).Idle := by
  obtain ⟨pods', h⟩ := (remembers_merged gates o n cnr pods).rest
  rw [h]
  exact (base_parseZones gates o n cnr).idle

/-- A CNR is set if the topology has the NUMAs of what is recorded, and then everything recorded
is booked. -/
theorem parse_spec (hnumas : (n.merged gates o cnr pods).HasNumas) :
    ∃ r, n.parseNumaTopologyStatus gates o cnr pods = some r ∧
      Rebooked (n.merged gates o cnr pods) (n.merged gates o cnr pods)
        (fun k c => ((n.merged gates o cnr pods).status c.1 c.2).isSome ∧
          (n.merged gates o cnr pods).Needs k c) r ∧ Sound (n.merged gates o cnr pods) r := by
  have hidle := idle_merged gates o n cnr pods
  apply settleAllocations_spec gates o hidle.sound _ hnumas
  intro k c
  rw [hidle.users]
  exact Finset.notMem_empty k

variable {gates o n cnr pods}

theorem hasNumas_of_parse {r : NumaTopologyStatus}
    (h : n.parseNumaTopologyStatus gates o cnr pods = some r) :
    (n.merged gates o cnr pods).HasNumas :=
  settleAllocations_eq_some h

theorem Remembers.allocatedNumas_of_mem (h : Remembers pods b keys m) (hk : k ∈ b.podAllocations) :
    m.allocatedNumas k = b.allocatedNumas k := by
  obtain ⟨a, ha⟩ := GoMap.mem_iff_lookup.mp hk
  rw [allocatedNumas, h.lookup, allocatedNumas, ha]
  rfl

/-- The annotation of a recorded pod that is not reported. -/
def takenOver (n : NumaTopologyStatus) (cnr : CustomNodeResource) (pods : PodInfoMaintainer)
    (k : PodKey) : Option (GoMap ℤ ResourceList) :=
  if k ∈ n.podAllocations ∧ ¬cnr.reports k then pods.numaAllocations k else none

theorem allocatedNumas_merged (hk : ¬cnr.reports k) :
    (n.merged gates o cnr pods).allocatedNumas k = (n.takenOver cnr pods k).getD ∅ := by
  have hnot : (n.parseZones gates o cnr).podAllocations.lookup k = none := by
    rw [AList.lookup_eq_none, mem_podAllocations_parseZones]
    exact hk
  have hkeys : k ∈ o.remembered.list n.podAllocations.keys ↔ k ∈ n.podAllocations := by
    rw [o.remembered.mem_list, ← AList.mem_keys]
  rw [allocatedNumas, (remembers_merged gates o n cnr pods).lookup, hnot, none_or, takenOver]
  by_cases hmem : k ∈ n.podAllocations
  · rw [if_pos (hkeys.mpr hmem), if_pos ⟨hmem, hk⟩]
    cases pods.numaAllocations k <;> rfl
  · rw [if_neg (hkeys.not.mpr hmem), if_neg fun h => hmem h.1]
    rfl

theorem request_eq_lookup (n : NumaTopologyStatus) (k : PodKey) (c : NumaResource) :
    n.request k c = (((n.allocatedNumas k).lookup c.1).getD ∅).lookup c.2 := rfl

theorem Remembers.request_of_mem (h : Remembers pods b keys m) (hk : k ∈ b.podAllocations)
    (c : NumaResource) : m.request k c = b.request k c := by
  rw [request_eq_lookup, h.allocatedNumas_of_mem hk, request_eq_lookup]

theorem takenOver_not_reported {numaAllocations : GoMap ℤ ResourceList}
    (h : numaAllocations ∈ n.takenOver cnr pods k) : ¬cnr.reports k := by
  intro hk
  rw [takenOver, if_neg fun h => h.2 hk] at h
  cases h

theorem takenOver_removeCNR (n : NumaTopologyStatus) (cnr : CustomNodeResource)
    (pods : PodInfoMaintainer) (k : PodKey) : n.removeCNR.takenOver cnr pods k = none := by
  rw [takenOver, if_neg]
  exact fun h => AList.notMem_empty k h.1

end

section

variable (gates o n cnr pods)

theorem isSome_status_merged (c : NumaResource) :
    ((n.merged gates o cnr pods).status c.1 c.2).isSome = cnr.hasResource c.1 c.2 := by
  rw [← isSome_status_parseZones gates o n]
  obtain ⟨pods', h⟩ := (remembers_merged gates o n cnr pods).rest
  rw [h]
  rfl

theorem mem_numas_merged (numaId : ℤ) :
    numaId ∈ (n.merged gates o cnr pods).numas ↔ cnr.hasNuma numaId := by
  rw [← mem_numas_parseZones gates o n]
  obtain ⟨pods', h⟩ := (remembers_merged gates o n cnr pods).rest
  rw [h]
  rfl

theorem hasNumas_merged_iff :
    (n.merged gates o cnr pods).HasNumas ↔
      ∀ k, ∀ numaAllocations ∈ n.takenOver cnr pods k, ∀ numaId ∈ numaAllocations,
        cnr.hasNuma numaId := by
  constructor
  · intro h k numaAllocations htaken numaId hmem
    rw [← mem_numas_merged gates o n]
    apply h k
    rw [allocatedNumas_merged (takenOver_not_reported htaken), mem_def.mp htaken]
    exact hmem
  · intro h k numaId hmem
    by_cases hk : cnr.reports k
    · have hbase := (mem_podAllocations_parseZones gates o n cnr k).mpr hk
      have hrem := remembers_merged gates o n cnr pods
      rw [hrem.allocatedNumas_of_mem hbase] at hmem
      rw [mem_numas_merged, ← mem_numas_parseZones gates o n]
      exact (base_parseZones gates o n cnr).numas k numaId hmem
    · rw [allocatedNumas_merged hk] at hmem
      rw [mem_numas_merged]
      cases htaken : n.takenOver cnr pods k with
      | none =>
        rw [htaken] at hmem
        exact absurd hmem (AList.notMem_empty numaId)
      | some numaAllocations =>
        rw [htaken] at hmem
        exact h k numaAllocations htaken numaId hmem

theorem hasNumas_merged_removeCNR : (n.removeCNR.merged gates o cnr pods).HasNumas := by
  rw [hasNumas_merged_iff]
  intro k numaAllocations htaken
  rw [takenOver_removeCNR] at htaken
  cases htaken

variable {gates o n cnr pods}

theorem request_merged_of_reports (o o' : NumaOrders) (hk : cnr.reports k) (c : NumaResource) :
    (n.removeCNR.merged gates o' cnr pods).request k c =
      (n.merged gates o cnr pods).request k c := by
  rw [(remembers_merged gates o' n.removeCNR cnr pods).request_of_mem
      ((mem_podAllocations_parseZones gates o' n.removeCNR cnr k).mpr hk),
    (remembers_merged gates o n cnr pods).request_of_mem
      ((mem_podAllocations_parseZones gates o n cnr k).mpr hk)]
  exact (agrees_parseZones gates o o' n n.removeCNR cnr rfl).request k c

theorem request_merged_removeCNR (hk : ¬cnr.reports k) (c : NumaResource) :
    (n.removeCNR.merged gates o cnr pods).request k c = none := by
  rw [request_eq_lookup, allocatedNumas_merged hk, takenOver_removeCNR]
  rfl

theorem needs_merged_removeCNR_iff (o o' : NumaOrders) (c : NumaResource) :
    (n.removeCNR.merged gates o' cnr pods).Needs k c ↔
      cnr.reports k ∧ (n.merged gates o cnr pods).Needs k c := by
  by_cases hk : cnr.reports k
  · rw [Needs, request_merged_of_reports o o' hk, Needs, and_iff_right hk]
  · refine iff_of_false ?_ fun h => hk h.1
    rw [Needs, request_merged_removeCNR hk, not_not]
    rfl

/-- A pod that is not reported needs what its annotation says, if that is taken over. -/
theorem needs_merged_iff (hk : ¬cnr.reports k) (c : NumaResource) :
    (n.merged gates o cnr pods).Needs k c ↔ ∃ numaAllocations ∈ n.takenOver cnr pods k,
      ∃ e ∈ numaAllocations.entries, c.1 = e.1 ∧
        ∃ q, e.2.lookup c.2 = some q ∧ q.milliValue ≠ 0 := by
  rw [Needs, request_eq_lookup, allocatedNumas_merged hk]
  cases n.takenOver cnr pods k with
  | none => simp [zero, milliValue]
  | some numaAllocations =>
    simp only [getD_some, mem_def, some_inj, exists_eq_left']
    constructor
    · intro h
      cases hlist : numaAllocations.lookup c.1 with
      | none => simp [hlist, zero, milliValue] at h
      | some list =>
        rw [hlist, getD_some] at h
        refine ⟨⟨c.1, list⟩, AList.mem_lookup_iff.mp hlist, rfl, ?_⟩
        cases hq : list.lookup c.2 with
        | none => simp [hq, zero, milliValue] at h
        | some q => exact ⟨q, rfl, by simpa [hq] using h⟩
    · rintro ⟨⟨numaId, list⟩, hmem, heq, q, hq, hmilli⟩
      have hlist : numaAllocations.lookup c.1 = some list := by
        rw [heq]
        exact AList.mem_lookup_iff.mpr hmem
      rw [hlist, getD_some, hq]
      exact hmilli

end

end NumaTopologyStatus

namespace NumaNodeInfo

/-- No annotation that a removal of the CNR forgets matters to the new CNR: the NUMAs it names are
there, and the resources it requests are not. -/
def ForgetsNothing (n : NumaNodeInfo) (cnr : CustomNodeResource) : Prop :=
  ∀ k, ∀ numaAllocations ∈ n.numaTopologyStatus.takenOver cnr n.podInfoMaintainer k,
    ∀ e ∈ numaAllocations.entries, cnr.hasNuma e.1 ∧
      ∀ name q, e.2.lookup name = some q → q.milliValue ≠ 0 → ¬cnr.hasResource e.1 name

variable {gates : FeatureGates} {o o' : NumaOrders} {n : NumaNodeInfo} {cnr : CustomNodeResource}

theorem ForgetsNothing.hasNumas (h : n.ForgetsNothing cnr) :
    (n.numaTopologyStatus.merged gates o cnr n.podInfoMaintainer).HasNumas := by
  rw [hasNumas_merged_iff]
  intro k numaAllocations htaken numaId hmem
  obtain ⟨list, hlist⟩ := GoMap.mem_iff_lookup.mp hmem
  exact (h k numaAllocations htaken ⟨numaId, list⟩ (AList.mem_lookup_iff.mp hlist)).1

/-- Without annotations that matter the same pods need the resources of the topology. -/
theorem ForgetsNothing.needs_iff (h : n.ForgetsNothing cnr) {c : NumaResource}
    (hc : cnr.hasResource c.1 c.2) {k : PodKey} :
    (n.numaTopologyStatus.removeCNR.merged gates o' cnr n.podInfoMaintainer).Needs k c ↔
      (n.numaTopologyStatus.merged gates o cnr n.podInfoMaintainer).Needs k c := by
  rw [needs_merged_removeCNR_iff o o', and_iff_right_iff_imp]
  intro hneeds
  by_contra hk
  obtain ⟨numaAllocations, htaken, e, he, heq, q, hq, hmilli⟩ := (needs_merged_iff hk c).mp hneeds
  exact (h k numaAllocations htaken e he).2 c.2 q hq hmilli (heq ▸ hc)

theorem setCNR_eq_some_iff {r : NumaNodeInfo} : n.setCNR gates o cnr = some r ↔
    ∃ s, n.numaTopologyStatus.parseNumaTopologyStatus gates o cnr n.podInfoMaintainer = some s ∧
      { n with cnr := some cnr, numaTopologyStatus := s } = r := by
  rw [setCNR, bind_eq_bind, bind_eq_some_iff]
  simp only [pure_def, some_inj]

/-- Removing the CNR before one is set makes no difference if and only if nothing that matters is
forgotten. -/
theorem sameStatus_setCNR_iff (gates : FeatureGates) (o o' : NumaOrders) (n : NumaNodeInfo)
    (cnr : CustomNodeResource) :
    (∃ r r', n.setCNR gates o cnr = some r ∧ n.removeCNR.setCNR gates o' cnr = some r' ∧
      SameStatus r.numaTopologyStatus r'.numaTopologyStatus) ↔ n.ForgetsNothing cnr := by
  set s := n.numaTopologyStatus
  set pods := n.podInfoMaintainer
  obtain ⟨t', ht', hrebooked', hsound'⟩ := parse_spec gates o' s.removeCNR cnr pods
    (hasNumas_merged_removeCNR gates o' s cnr pods)
  constructor
  · rintro ⟨r, r', hr, hr', hsame⟩
    obtain ⟨t, ht, rfl⟩ := setCNR_eq_some_iff.mp hr
    obtain ⟨t'', ht'', rfl⟩ := setCNR_eq_some_iff.mp hr'
    obtain rfl : t' = t'' := some_inj.mp (ht'.symm.trans ht'')
    have hnumas := hasNumas_of_parse ht
    obtain ⟨t₂, ht₂, hrebooked, -⟩ := parse_spec gates o s cnr pods hnumas
    obtain rfl : t₂ = t := some_inj.mp (ht₂.symm.trans ht)
    intro k numaAllocations htaken e he
    have hk := takenOver_not_reported htaken
    refine ⟨(hasNumas_merged_iff gates o s cnr pods).mp hnumas k numaAllocations htaken e.1
      (List.mem_keys_of_mem he), fun name q hq hmilli hres => hk ?_⟩
    have huses : k ∈ t₂.ledger.users (e.1, name) := by
      rw [hrebooked.users, isSome_status_merged, needs_merged_iff hk]
      exact ⟨hres, numaAllocations, htaken, e, he, rfl, q, hq, hmilli⟩
    rw [← hsame.users, hrebooked'.users] at huses
    exact ((needs_merged_removeCNR_iff o o' (e.1, name)).mp huses.2).1
  · intro h
    obtain ⟨t, ht, hrebooked, hsound⟩ := parse_spec gates o s cnr pods h.hasNumas
    have hagrees := agrees_parseZones gates o o' s s.removeCNR cnr rfl
    obtain ⟨p, hp⟩ := (remembers_merged gates o s cnr pods).rest
    obtain ⟨p', hp'⟩ := (remembers_merged gates o' s.removeCNR cnr pods).rest
    rw [hp] at hsound
    rw [hp'] at hsound'
    have husers : ∀ c, t'.ledger.users c = t.ledger.users c := by
      intro c
      ext k
      rw [hrebooked'.users, hrebooked.users, isSome_status_merged, isSome_status_merged]
      exact and_congr_right fun hres => h.needs_iff hres
    refine ⟨_, _, setCNR_eq_some_iff.mpr ⟨t, ht, rfl⟩, setCNR_eq_some_iff.mpr ⟨t', ht', rfl⟩,
      hagrees.sameStatus hsound hsound' ?_ husers ?_⟩
    · rw [hrebooked'.requests, hrebooked.requests, hp, hp']
      exact hagrees.requests
    · intro k c hk
      rw [← husers, hrebooked'.users] at hk
      have hreports := ((needs_merged_removeCNR_iff o o' c).mp hk.2).1
      rw [hrebooked'.request, hrebooked.request]
      exact request_merged_of_reports o o' hreports c

def nodeWithPod : Option NumaNodeInfo := do
  let n ← setCNR ⟨true, true⟩ .forward ⟨.new, none, .new {}⟩ NumaExample.twoNumas
  n.addPod ⟨true, true⟩ .forward NumaExample.podOnNuma

/-- The pod's cores are available again after the CNR has gone and come back. -/
theorem removal_forgets_pod : ∃ n, nodeWithPod = some n ∧
    ¬∃ r r', n.setCNR ⟨true, true⟩ .forward NumaExample.twoNumas = some r ∧
      n.removeCNR.setCNR ⟨true, true⟩ .forward NumaExample.twoNumas = some r' ∧
      SameStatus r.numaTopologyStatus r'.numaTopologyStatus := by
  obtain ⟨n, hn⟩ := isSome_iff_exists.mp (show nodeWithPod.isSome by decide)
  refine ⟨n, hn, ?_⟩
  rintro ⟨r, r', hr, hr', hsame⟩
  have hkept : (nodeWithPod.bind fun n => n.setCNR ⟨true, true⟩ .forward NumaExample.twoNumas).map
      (fun r => r.numaTopologyStatus.ledger.available (0, "cpu")) = some 2000000000 := by decide
  have hforgotten : (nodeWithPod.bind fun n =>
      n.removeCNR.setCNR ⟨true, true⟩ .forward NumaExample.twoNumas).map
      (fun r => r.numaTopologyStatus.ledger.available (0, "cpu")) = some 4000000000 := by decide
  rw [hn, bind_some, hr, map_some, some_inj, ← hsame.available] at hkept
  rw [hn, bind_some, hr', map_some, some_inj, hkept] at hforgotten
  exact absurd hforgotten (by decide)

end NumaNodeInfo

end GodelScheduler
