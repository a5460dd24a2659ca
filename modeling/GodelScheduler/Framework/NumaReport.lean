import GodelScheduler.Framework.NumaBooks

/-!
# What a CNR reports

The status read off a CNR before any pod is booked, in closed form: a NUMA zone
gives every resource it can allocate or that is allocated on it a status, and the
allocations on it are recorded. Nothing here depends on the orders in which the
maps are gone through. Two zones with one id are both counted for shared cores and
among the free NUMAs, while only the later one is in the topology.
-/

namespace GodelScheduler

open Library TopologyChild NumaTopologyStatus GoMap List

def Allocation.request (a : Allocation) (name : ResourceName) : Option Quantity :=
  (a.requests.bind fun list => list.lookup name).filter fun q => q.milliValue ≠ 0

variable (child : TopologyChild) (name : ResourceName)

namespace TopologyChild

def requested : Bool :=
  child.allocations.any fun a => (a.request name).isSome

def allocatableOf : Option Quantity :=
  child.allocatable.bind fun list => list.lookup name

def weightOf : ℤ :=
  ((child.allocatableOf name).map (Resource.quantityOf name)).getD 0

def statusOf : Option ResourceStatus :=
  match child.allocatableOf name with
  | some q => some ⟨q, q, ∅⟩
  | none => if child.requested name then some .new else none

end TopologyChild

/-- The last of the recorded requests of a pod, after those recorded before. -/
def lastRequest (allocations : List Allocation) (podKey : PodKey) (name : ResourceName)
    (request : Option Quantity) : Option Quantity :=
  allocations.foldl
    (fun request a => if a.consumer = podKey then (a.request name).or request else request) request

namespace NumaTopologyStatus

variable {gates : FeatureGates} {o : NumaOrders} {n m : NumaTopologyStatus} {podKey k : PodKey}
  {numaId numaId' socketId : ℤ} {name : ResourceName} {c : NumaResource} {list : ResourceList}
  {s s' t : NumaStatus × NumaTopologyStatus} {allocations : List Allocation}

section

theorem numaAllocation_setNumaAllocation (n : NumaTopologyStatus) (podKey k : PodKey)
    (numaId numaId' : ℤ) (list : ResourceList) :
    (n.setNumaAllocation podKey numaId list).numaAllocation k numaId' =
      if k = podKey ∧ numaId' = numaId then list else n.numaAllocation k numaId' := by
  simp only [setNumaAllocation, numaAllocation, lookup_insert']
  by_cases hk : k = podKey
  · subst hk
    by_cases hnuma : numaId' = numaId <;> simp [lookup_insert', hnuma]
  · simp [hk]

/-- Some list was recorded for a pod on a NUMA, any number of times. -/
structure Touched (podKey : PodKey) (numaId : ℤ) (n m : NumaTopologyStatus) : Prop where
  request : ∀ k c, ¬(k = podKey ∧ c.1 = numaId) → m.request k c = n.request k c
  mem : ∀ k, k ∈ m.podAllocations ↔ k = podKey ∨ k ∈ n.podAllocations
  agent : ∀ k, m.agent k ↔ k = podKey ∨ n.agent k
  numas : ∀ k numaId', numaId' ∈ m.allocatedNumas k ↔
    k = podKey ∧ numaId' = numaId ∨ numaId' ∈ n.allocatedNumas k
  rest : ∃ podAllocations, m = { n with podAllocations }

theorem touched_setNumaAllocation (n : NumaTopologyStatus) (podKey : PodKey) (numaId : ℤ)
    (list : ResourceList) : Touched podKey numaId n (n.setNumaAllocation podKey numaId list) where
  request k c hne := by
    rw [request, numaAllocation_setNumaAllocation, if_neg hne]
    rfl
  mem k := by simp [setNumaAllocation, AList.mem_insert]
  agent k := by
    simp only [agent, setNumaAllocation, lookup_insert']
    split_ifs with hk <;> simp [hk]
  numas k numaId' := by
    simp only [allocatedNumas, setNumaAllocation, lookup_insert']
    split_ifs with hk
    · subst hk
      simp [AList.mem_insert]
    · simp [hk]
  rest := ⟨_, rfl⟩

theorem Touched.trans {l : NumaTopologyStatus} (h : Touched podKey numaId n m)
    (h' : Touched podKey numaId m l) : Touched podKey numaId n l where
  request k c hne := (h'.request k c hne).trans (h.request k c hne)
  mem k := by rw [h'.mem, h.mem, or_self_left]
  agent k := by rw [h'.agent, h.agent, or_self_left]
  numas k numaId' := by rw [h'.numas, h.numas, or_self_left]
  rest := by
    obtain ⟨_, rfl⟩ := h.rest
    obtain ⟨pods, rfl⟩ := h'.rest
    exact ⟨pods, rfl⟩

end

section

/-- The allocations on a NUMA that are recorded so far. -/
structure Recorded (numaId : ℤ) (s : NumaStatus × NumaTopologyStatus)
    (allocations : List Allocation) (t : NumaStatus × NumaTopologyStatus) : Prop where
  socketId : t.1.socketId = s.1.socketId
  statuses : ∀ name, t.1.resourceStatuses.lookup name =
    if allocations.any fun a => (a.request name).isSome
    then some ((s.1.resourceStatuses.lookup name).getD .new)
    else s.1.resourceStatuses.lookup name
  request : ∀ k c, t.2.request k c =
    if c.1 = numaId then lastRequest allocations k c.2 (s.2.request k c) else s.2.request k c
  mem : ∀ k, k ∈ t.2.podAllocations ↔
    k ∈ s.2.podAllocations ∨ ∃ a ∈ allocations, a.consumer = k ∧ a.requests.isSome
  agent : ∀ k, t.2.agent k ↔
    s.2.agent k ∨ ∃ a ∈ allocations, a.consumer = k ∧ a.requests.isSome
  numas : ∀ k numaId', numaId' ∈ t.2.allocatedNumas k ↔ numaId' ∈ s.2.allocatedNumas k ∨
    numaId' = numaId ∧ ∃ a ∈ allocations, a.consumer = k ∧ a.requests.isSome
  rest : ∃ podAllocations, t.2 = { s.2 with podAllocations }

theorem Recorded.refl (numaId : ℤ) (s : NumaStatus × NumaTopologyStatus) :
    Recorded numaId s [] s where
  socketId := rfl
  statuses name := by simp
  request k c := by simp [lastRequest]
  mem k := by simp
  agent k := by simp
  numas k numaId' := by simp
  rest := ⟨_, rfl⟩

theorem request_setNumaAllocation_self (n : NumaTopologyStatus) (podKey : PodKey) (numaId : ℤ)
    (list : ResourceList) (name : ResourceName) :
    (n.setNumaAllocation podKey numaId list).request podKey (numaId, name) = list.lookup name := by
  rw [request, numaAllocation_setNumaAllocation, if_pos ⟨rfl, rfl⟩]

theorem writesField_recordRequest_status (podKey : PodKey) (numaId : ℤ) :
    WritesField (fun (s : NumaStatus × NumaTopologyStatus) name => s.1.resourceStatuses.lookup name)
      some (fun _ q v => if q.milliValue = 0 then v else some (v.getD .new))
      (recordRequest podKey numaId) := by
  refine .of_some fun s e name => ?_
  unfold recordRequest
  by_cases hq : e.2.milliValue = 0
  · simp [hq]
  · simp only [hq, if_false, lookup_insert']
    split_ifs with hname
    · rw [hname]
    · rfl

theorem writesField_recordRequest_request (podKey : PodKey) (numaId : ℤ) :
    WritesField
      (fun (s : NumaStatus × NumaTopologyStatus) name => s.2.request podKey (numaId, name))
      some (fun _ q v => if q.milliValue = 0 then v else some q) (recordRequest podKey numaId) := by
  refine .of_some fun s e name => ?_
  unfold recordRequest
  by_cases hq : e.2.milliValue = 0
  · simp [hq]
  · simp only [hq, if_false, request_setNumaAllocation_self, lookup_insert']
    rfl

theorem touched_recordRequests (podKey : PodKey) (numaId : ℤ)
    (l : List (Sigma fun _ : ResourceName => Quantity)) (hs : Touched podKey numaId n s.2) :
    Touched podKey numaId n (l.foldl (recordRequest podKey numaId) s).2 ∧
      (l.foldl (recordRequest podKey numaId) s).1.socketId = s.1.socketId := by
  induction l generalizing s with
  | nil => exact ⟨hs, rfl⟩
  | cons e l ih =>
    rw [foldl_cons]
    have hstep : Touched podKey numaId n (recordRequest podKey numaId s e).2 ∧
        (recordRequest podKey numaId s e).1.socketId = s.1.socketId := by
      unfold recordRequest
      split_ifs
      · exact ⟨hs, rfl⟩
      · exact ⟨hs.trans (touched_setNumaAllocation ..), rfl⟩
    obtain ⟨htouched, hsocket⟩ := ih hstep.1
    exact ⟨htouched, hsocket.trans hstep.2⟩

section

variable (order : RangeOrder (Sigma fun _ : ResourceName => Quantity)) (podRequests : ResourceList)
  (podKey : PodKey) (numaId : ℤ) (s : NumaStatus × NumaTopologyStatus) (name : ResourceName)

theorem lookup_recordRequests :
    ((order.list podRequests.entries).foldl
        (recordRequest podKey numaId) s).1.resourceStatuses.lookup name =
      if ((podRequests.lookup name).filter fun q => q.milliValue ≠ 0).isSome
      then some ((s.1.resourceStatuses.lookup name).getD .new)
      else s.1.resourceStatuses.lookup name := by
  refine ((writesField_recordRequest_status podKey numaId).view_range podRequests order rfl
    s).trans ?_
  cases podRequests.lookup name with
  | none => rfl
  | some q => by_cases hq : q.milliValue = 0 <;> simp [hq, Option.filter_some]

theorem request_recordRequests :
    ((order.list podRequests.entries).foldl
        (recordRequest podKey numaId) s).2.request podKey (numaId, name) =
      ((podRequests.lookup name).filter fun q => q.milliValue ≠ 0).or
        (s.2.request podKey (numaId, name)) := by
  refine ((writesField_recordRequest_request podKey numaId).view_range podRequests order rfl
    s).trans ?_
  cases podRequests.lookup name with
  | none => rfl
  | some q => by_cases hq : q.milliValue = 0 <;> simp [hq, Option.filter_some]

end

theorem recorded_recordAllocation (o : NumaOrders) (numaId : ℤ)
    (s : NumaStatus × NumaTopologyStatus) (a : Allocation) :
    Recorded numaId s [a] (recordAllocation o numaId s a) := by
  cases hreqs : a.requests with
  | none =>
    have hnone : ∀ name, a.request name = none := by
      intro name
      simp [Allocation.request, hreqs]
    have hstep : recordAllocation o numaId s a = s := by simp [recordAllocation, hreqs]
    rw [hstep]
    refine ⟨rfl, ?_, ?_, ?_, ?_, ?_, _, rfl⟩ <;> simp [hreqs, hnone, lastRequest]
  | some podRequests =>
    have hrequest : ∀ name, a.request name =
        (podRequests.lookup name).filter fun q => q.milliValue ≠ 0 := by
      intro name
      simp [Allocation.request, hreqs]
    set start := s.2.setNumaAllocation a.consumer numaId (s.2.numaAllocation a.consumer numaId)
      with hstart
    have hstep : recordAllocation o numaId s a =
        ((o.reported numaId a.consumer).list podRequests.entries).foldl
          (recordRequest a.consumer numaId) (s.1, start) := by
      simp [recordAllocation, hreqs, hstart]
    obtain ⟨htouched, hsocket⟩ := touched_recordRequests (s := (s.1, start)) a.consumer numaId
      ((o.reported numaId a.consumer).list podRequests.entries) (touched_setNumaAllocation ..)
    rw [hstep]
    refine ⟨hsocket, ?_, ?_, ?_, ?_, ?_, htouched.rest⟩
    · intro name
      rw [lookup_recordRequests, any_cons, any_nil, Bool.or_false, hrequest]
    · rintro k ⟨numaId', name⟩
      by_cases hself : k = a.consumer ∧ numaId' = numaId
      · obtain ⟨rfl, rfl⟩ := hself
        rw [request_recordRequests, hstart, request_setNumaAllocation_self, ← hrequest]
        simp [lastRequest, request]
      · rw [htouched.request k (numaId', name) hself]
        by_cases hnuma : numaId' = numaId
        · have hne : ¬a.consumer = k := fun h => hself ⟨h.symm, hnuma⟩
          simp [lastRequest, hne]
        · simp [hnuma]
    all_goals
      simp only [htouched.mem, htouched.agent, htouched.numas, mem_singleton, exists_eq_left,
        hreqs, Option.isSome_some, and_true]
    · intro k
      rw [or_comm, eq_comm]
    · intro k
      rw [or_comm, eq_comm (a := k)]
    · intro k numaId'
      rw [or_comm, and_comm, eq_comm (a := k)]

theorem Recorded.append {a : Allocation} (h : Recorded numaId s allocations t)
    (h' : Recorded numaId t [a] s') : Recorded numaId s (allocations ++ [a]) s' where
  socketId := h'.socketId.trans h.socketId
  statuses name := by
    rw [h'.statuses, h.statuses, any_append]
    by_cases hany : allocations.any fun a => (a.request name).isSome
    · simp [hany]
    · simp [hany]
  request k c := by
    rw [h'.request, h.request]
    by_cases hc : c.1 = numaId
    · simp [hc, lastRequest, foldl_append]
    · simp [hc]
  mem k := by
    rw [h'.mem, h.mem]
    simp only [mem_append, or_and_right, exists_or, or_assoc]
  agent k := by
    rw [h'.agent, h.agent]
    simp only [mem_append, or_and_right, exists_or, or_assoc]
  numas k numaId' := by
    rw [h'.numas, h.numas]
    simp only [mem_append, or_and_right, exists_or, or_assoc, and_or_left]
  rest := by
    obtain ⟨_, heq⟩ := h.rest
    obtain ⟨pods, heq'⟩ := h'.rest
    exact ⟨pods, by rw [heq', heq]⟩

theorem recorded_foldl (o : NumaOrders) (numaId : ℤ) (s : NumaStatus × NumaTopologyStatus)
    (allocations : List Allocation) :
    Recorded numaId s allocations (allocations.foldl (recordAllocation o numaId) s) :=
  foldl_of_step allocations (Recorded.refl numaId s)
    fun _ a _ t _ h => h.append (recorded_recordAllocation o numaId t a)

end

section

variable (gates : FeatureGates)

theorem writesField_setAllocatable_status :
    WritesField (fun (s : NumaStatus × NumaTopologyStatus) name => s.1.resourceStatuses.lookup name)
      some (fun _ q v => some { v.getD .new with allocatable := q, available := q })
      (setAllocatable gates) := by
  refine .of_some fun s e name => ?_
  simp only [setAllocatable, lookup_insert']
  split_ifs with hname
  · rw [hname]
  · rfl

/-- The amount for shared cores, of CPU and memory only. -/
def sharedView (s : NumaStatus × NumaTopologyStatus) (name : ResourceName) : ℤ :=
  if isConflictResourcesForDifferentQoS name then s.2.sharedAvailable name else 0

theorem writesField_setAllocatable_shared :
    WritesField sharedView
      (fun name => if isConflictResourcesForDifferentQoS name then some name else none)
      (fun name q v => v + Resource.quantityOf name q) (setAllocatable gates) where
  view_step s e name := by
    unfold sharedView setAllocatable
    by_cases hconflict : isConflictResourcesForDifferentQoS name
    · simp only [hconflict, if_true]
      rw [sharedAvailable_update gates s.2 true true e.1 e.2 hconflict]
      by_cases hname : e.1 = name
      · simp [hname, hconflict]
      · by_cases he : isConflictResourcesForDifferentQoS e.1 <;> simp [hname, he]
    · by_cases hname : e.1 = name
      · simp [hname, hconflict]
      · by_cases he : isConflictResourcesForDifferentQoS e.1 <;> simp [hname, he, hconflict]
  field_inj name name' f h h' := by
    split_ifs at h h'
    exact (Option.some_inj.mp h).trans (Option.some_inj.mp h').symm

theorem setAllocatables_rest (l : List (Sigma fun _ : ResourceName => Quantity))
    (s : NumaStatus × NumaTopologyStatus) :
    (l.foldl (setAllocatable gates) s).1.socketId = s.1.socketId ∧
      ∃ milliCPU memory, (l.foldl (setAllocatable gates) s).2 =
        { s.2 with
          availableOfSharedCores := { s.2.availableOfSharedCores with milliCPU, memory } } := by
  induction l generalizing s with
  | nil => exact ⟨rfl, s.2.availableOfSharedCores.milliCPU, s.2.availableOfSharedCores.memory, rfl⟩
  | cons e l ih =>
    obtain ⟨hsocket, milliCPU, memory, heq⟩ := ih (setAllocatable gates s e)
    obtain ⟨milliCPU', memory', heq'⟩ :=
      updateAvailableOfSharedCores_eq gates s.2 true true e.1 e.2
    refine ⟨hsocket, milliCPU, memory, ?_⟩
    rw [foldl_cons, heq]
    simp only [setAllocatable, heq']

structure Allocates (socketId numaId : ℤ) (child : TopologyChild) (n : NumaTopologyStatus)
    (t : NumaStatus × NumaTopologyStatus) : Prop where
  socket : t.1.socketId = socketId
  statuses : ∀ name,
    t.1.resourceStatuses.lookup name = (child.allocatableOf name).map fun q => ⟨q, q, ∅⟩
  shared : ∀ name, isConflictResourcesForDifferentQoS name →
    t.2.sharedAvailable name = n.sharedAvailable name + child.weightOf name
  free : ∀ numaId' socketId', numaId' ∈ t.2.freeNumas socketId' ↔
    numaId' ∈ n.freeNumas socketId' ∨
      child.allocatable.isSome ∧ numaId' = numaId ∧ socketId' = socketId
  rest : ∃ milliCPU memory free, t.2 =
    { n with
      availableOfSharedCores := { n.availableOfSharedCores with milliCPU, memory }
      socketToFreeNumasOfConflictResources := free }

theorem allocates_parseAllocatable (o : NumaOrders) (socketId numaId : ℤ) (child : TopologyChild)
    (n : NumaTopologyStatus) :
    Allocates socketId numaId child n
      (parseAllocatable gates o socketId numaId child.allocatable (⟨socketId, ∅⟩, n)) := by
  cases hallocatable : child.allocatable with
  | none =>
    have hnone : ∀ name, child.allocatableOf name = none := by
      intro name
      simp [allocatableOf, hallocatable]
    refine ⟨rfl, ?_, ?_, ?_, n.availableOfSharedCores.milliCPU, n.availableOfSharedCores.memory,
      n.socketToFreeNumasOfConflictResources, rfl⟩
    · simp [parseAllocatable, hnone]
    · simp [parseAllocatable, weightOf, hnone]
    · simp [parseAllocatable, hallocatable]
  | some list =>
    have hlookup : ∀ name, child.allocatableOf name = list.lookup name := by
      intro name
      simp [allocatableOf, hallocatable]
    set order := o.allocatable numaId
    set start : NumaStatus × NumaTopologyStatus := (⟨socketId, ∅⟩, n)
    set t := (order.list list.entries).foldl (setAllocatable gates) start with ht
    have hparse : parseAllocatable gates o socketId numaId (some list) start =
        (t.1, t.2.updateFreeNumaForConflictResources true numaId socketId) := rfl
    obtain ⟨hsocket, milliCPU, memory, hrest⟩ :=
      setAllocatables_rest gates (order.list list.entries) start
    rw [← ht] at hsocket hrest
    obtain ⟨free, hfree⟩ := updateFree_eq t.2 true numaId socketId
    rw [hparse]
    refine ⟨hsocket, ?_, ?_, ?_, milliCPU, memory, free, ?_⟩
    · intro name
      refine ((writesField_setAllocatable_status gates).view_range list order rfl start).trans ?_
      rw [hlookup]
      cases list.lookup name <;> rfl
    · intro name hconflict
      have hview := (writesField_setAllocatable_shared gates).view_range list order
        (if_pos hconflict) start
      rw [← ht, sharedView, sharedView, if_pos hconflict, if_pos hconflict] at hview
      rw [weightOf, hlookup]
      refine (congrArg (sharedAvailable · name) hfree).trans (hview.trans ?_)
      cases list.lookup name <;> simp [start]
    · intro numaId' socketId'
      rw [mem_freeNumas_update, hrest]
      split_ifs with h
      · simp [h, hallocatable]
      · simp [freeNumas, start, h]
    · rw [hfree, hrest]

end

section

def zoneId (zone : ℤ × TopologyChild) : ℤ := atoi zone.2.name

structure Parsed (n : NumaTopologyStatus) (zone : ℤ × TopologyChild) (m : NumaTopologyStatus) :
    Prop where
  socketOf : ∀ numaId, m.socketOf numaId =
    if numaId = zoneId zone then some zone.1 else n.socketOf numaId
  status : ∀ numaId name, m.status numaId name =
    if numaId = zoneId zone then zone.2.statusOf name else n.status numaId name
  shared : ∀ name, isConflictResourcesForDifferentQoS name →
    m.sharedAvailable name = n.sharedAvailable name + zone.2.weightOf name
  other : ∃ milliCPU memory,
    m.availableOfSharedCores = { n.availableOfSharedCores with milliCPU, memory }
  free : ∀ numaId socketId, numaId ∈ m.freeNumas socketId ↔ numaId ∈ n.freeNumas socketId ∨
    zone.2.allocatable.isSome ∧ numaId = zoneId zone ∧ socketId = zone.1
  request : ∀ k c, m.request k c = if c.1 = zoneId zone
    then lastRequest zone.2.allocations k c.2 (n.request k c) else n.request k c
  mem : ∀ k, k ∈ m.podAllocations ↔
    k ∈ n.podAllocations ∨ ∃ a ∈ zone.2.allocations, a.consumer = k ∧ a.requests.isSome
  agent : ∀ k, m.agent k ↔
    n.agent k ∨ ∃ a ∈ zone.2.allocations, a.consumer = k ∧ a.requests.isSome
  numas : ∀ k numaId, numaId ∈ m.allocatedNumas k ↔ numaId ∈ n.allocatedNumas k ∨
    numaId = zoneId zone ∧ ∃ a ∈ zone.2.allocations, a.consumer = k ∧ a.requests.isSome
  requests : m.requestsOfSharedCores = n.requestsOfSharedCores

theorem parsed_parseNuma (gates : FeatureGates) (o : NumaOrders) (n : NumaTopologyStatus)
    (zone : ℤ × TopologyChild) : Parsed n zone (n.parseNuma gates o zone) := by
  have hallocates := allocates_parseAllocatable gates o zone.1 (zoneId zone) zone.2 n
  set s := parseAllocatable gates o zone.1 (zoneId zone) zone.2.allocatable (⟨zone.1, ∅⟩, n)
  have hrecorded := recorded_foldl o (zoneId zone) s zone.2.allocations
  set t := zone.2.allocations.foldl (recordAllocation o (zoneId zone)) s
  have hparse : n.parseNuma gates o zone =
      { t.2 with topology := t.2.topology.insert (zoneId zone) t.1 } := rfl
  obtain ⟨pods, hpods⟩ := hrecorded.rest
  obtain ⟨milliCPU, memory, free, hs⟩ := hallocates.rest
  have htopology : t.2.topology = n.topology := by rw [hpods, hs]
  have hrequest : s.2.request = n.request := by rw [hs]; rfl
  have hshared : ∀ name, t.2.sharedAvailable name = s.2.sharedAvailable name := by
    intro name
    rw [hpods]
    rfl
  have hfree : ∀ socketId, t.2.freeNumas socketId = s.2.freeNumas socketId := by
    intro socketId
    rw [hpods]
    rfl
  rw [hparse]
  refine ⟨?_, ?_, ?_, ?_, ?_, ?_, ?_, ?_, ?_, ?_⟩
  · intro numaId
    simp only [socketOf, htopology, lookup_insert']
    split_ifs
    · simp [hrecorded.socketId, hallocates.socket]
    · rfl
  · intro numaId name
    simp only [status, htopology, lookup_insert']
    split_ifs
    · rw [Option.bind_some, hrecorded.statuses, hallocates.statuses, statusOf, requested]
      cases zone.2.allocatableOf name <;> simp
    · rfl
  · intro name hname
    exact (hshared name).trans (hallocates.shared name hname)
  · refine ⟨milliCPU, memory, ?_⟩
    simp only [hpods, hs]
  · intro numaId socketId
    rw [← hallocates.free, ← hfree]
    rfl
  · intro k c
    rw [← hrequest]
    exact hrecorded.request k c
  · intro k
    rw [show n.podAllocations = s.2.podAllocations by rw [hs]]
    exact hrecorded.mem k
  · intro k
    rw [show n.agent k = s.2.agent k by rw [hs]; rfl]
    exact hrecorded.agent k
  · intro k numaId
    rw [show n.allocatedNumas k = s.2.allocatedNumas k by rw [hs]; rfl]
    exact hrecorded.numas k numaId
  · simp only [hpods, hs]

end

section

def Idle (n : NumaTopologyStatus) : Prop :=
  ∀ (c : NumaResource) s, n.status c.1 c.2 = some s → s.users = ∅ ∧ s.available = s.allocatable

/-- Nothing is booked yet, and every recorded allocation was reported with its NUMA. -/
structure Base (n : NumaTopologyStatus) : Prop where
  idle : n.Idle
  agent : ∀ k ∈ n.podAllocations, n.agent k
  numas : ∀ k, ∀ numaId ∈ n.allocatedNumas k, numaId ∈ n.numas

theorem base_new (requests : Resource) : Base (new requests) where
  idle c s hs := by simp [new, status] at hs
  agent k hk := absurd hk (AList.notMem_empty k)
  numas k numaId hmem := by
    simp only [allocatedNumas, new, AList.lookup_empty, Option.getD_none] at hmem
    exact absurd hmem (AList.notMem_empty numaId)

theorem statusOf_idle {child : TopologyChild} {r : ResourceStatus}
    (h : child.statusOf name = some r) : r.users = ∅ ∧ r.available = r.allocatable := by
  unfold statusOf at h
  split at h
  · cases h
    exact ⟨rfl, rfl⟩
  · split_ifs at h
    cases h
    exact ⟨rfl, rfl⟩

variable {zone : ℤ × TopologyChild}

theorem Parsed.mem_numas (h : Parsed n zone m) :
    numaId ∈ m.numas ↔ numaId = zoneId zone ∨ numaId ∈ n.numas := by
  rw [NumaTopologyStatus.mem_numas, NumaTopologyStatus.mem_numas, h.socketOf]
  split_ifs with heq
  · simp [heq]
  · simp [heq]

theorem Base.parsed (hn : Base n) (h : Parsed n zone m) : Base m where
  idle c s hs := by
    rw [h.status] at hs
    split_ifs at hs
    · exact statusOf_idle hs
    · exact hn.idle c s hs
  agent k hk := by
    rw [h.agent]
    exact ((h.mem k).mp hk).imp_left (hn.agent k)
  numas k numaId hmem := by
    rw [h.mem_numas]
    rcases (h.numas k numaId).mp hmem with hmem | ⟨heq, -⟩
    · exact .inr (hn.numas k numaId hmem)
    · exact .inl heq

theorem base_parseZones (gates : FeatureGates) (o : NumaOrders) (n : NumaTopologyStatus)
    (cnr : CustomNodeResource) : Base (n.parseZones gates o cnr) :=
  List.foldlRecOn cnr.numaZones _ (base_new n.requestsOfSharedCores)
    fun m h zone _ => h.parsed (parsed_parseNuma gates o m zone)

theorem Idle.users (h : n.Idle) (c : NumaResource) : n.ledger.users c = ∅ := by
  cases hs : n.status c.1 c.2 with
  | none => simp [ledger, hs]
  | some s =>
    rw [users_of_status hs, (h c s hs).1]
    rfl

theorem Idle.sound (h : n.Idle) : Sound n n := by
  have hempty := h.users
  refine ⟨⟨fun _ => rfl, fun _ => rfl, ?_, ?_, ?_, ?_⟩, ?_⟩
  · intro c
    rw [hempty, Finset.sum_empty, sub_zero]
    cases hs : n.status c.1 c.2 with
    | none => simp [ledger, capacity, allocatable, hs]
    | some s => simp [ledger, capacity, allocatable, hs, (h c s hs).2]
  · intro k c hk
    rw [hempty] at hk
    cases hk
  · intro name _
    simp [Ledger.inUse, hempty]
  · exact ⟨_, _, rfl⟩
  · intro numaId socketId
    simp [Occupied, hempty]

/-- The derived amounts are those of the topology. -/
structure Tallied (n : NumaTopologyStatus) : Prop where
  placed : ∀ k c, (n.request k c).isSome → (n.status c.1 c.2).isSome
  shared : ∀ name, isConflictResourcesForDifferentQoS name →
    n.sharedAvailable name = ∑ numaId ∈ n.numas, n.weight (numaId, name)
  free : ∀ numaId socketId,
    numaId ∈ n.freeNumas socketId ↔ n.socketOf numaId = some socketId

theorem tallied_new (requests : Resource) : Tallied (new requests) where
  placed k c hreq := by
    simp [request, numaAllocation, new] at hreq
  shared name _ := by
    simp [sharedAvailable, new, numas]
  free numaId socketId := by
    simp only [freeNumas, new, AList.lookup_empty, Option.getD_none, socketOf, Option.map_none,
      reduceCtorEq, iff_false]
    exact AList.notMem_empty numaId

theorem weight_of_statusOf (h : Parsed n zone m) (name : ResourceName) :
    m.weight (zoneId zone, name) = zone.2.weightOf name := by
  have hzero : Resource.quantityOf name .zero = 0 := by
    unfold Resource.quantityOf
    split_ifs <;> rfl
  rw [weight, allocatable, h.status, if_pos rfl, statusOf, weightOf]
  cases zone.2.allocatableOf name with
  | some q => rfl
  | none => by_cases hreq : zone.2.requested name <;> simp [hreq, ResourceStatus.new, hzero]

theorem isSome_lastRequest {allocations : List Allocation}
    (h : (lastRequest allocations k name none).isSome) :
    ∃ a ∈ allocations, (a.request name).isSome := by
  by_contra hnone
  have hlast : lastRequest allocations k name none = none :=
    List.foldlRecOn (motive := (· = none)) allocations _ rfl (by
      rintro _ rfl a ha
      have hrequest : a.request name = none := by
        rw [← Option.not_isSome_iff_eq_none]
        exact fun hsome => hnone ⟨a, ha, hsome⟩
      simp [hrequest])
  rw [hlast] at h
  cases h

theorem Tallied.parsed (hn : Tallied n) (h : Parsed n zone m) (hnew : zoneId zone ∉ n.numas)
    (hallocatable : zone.2.allocatable.isSome) : Tallied m where
  placed k c hreq := by
    rw [h.request] at hreq
    rw [h.status]
    split_ifs at hreq ⊢ with hc
    · have hnone : n.request k c = none := by
        rw [← Option.not_isSome_iff_eq_none]
        intro hsome
        obtain ⟨s, hs⟩ := Option.isSome_iff_exists.mp (hn.placed k c hsome)
        exact hnew (hc ▸ mem_numas_of_status hs)
      rw [hnone] at hreq
      obtain ⟨a, ha, hsome⟩ := isSome_lastRequest hreq
      have hrequested : zone.2.requested c.2 := any_eq_true.mpr ⟨a, ha, hsome⟩
      rw [statusOf]
      split
      · rfl
      · rw [if_pos hrequested]
        rfl
    · exact hn.placed k c hreq
  shared name hname := by
    have hnumas : m.numas = insert (zoneId zone) n.numas := by
      ext numaId
      rw [h.mem_numas, Finset.mem_insert]
    have hothers : ∀ numaId ∈ n.numas, m.weight (numaId, name) = n.weight (numaId, name) := by
      intro numaId hmem
      have hne : numaId ≠ zoneId zone := fun heq => hnew (heq ▸ hmem)
      rw [weight, weight, allocatable, allocatable, h.status, if_neg hne]
    rw [h.shared name hname, hn.shared name hname, hnumas, Finset.sum_insert hnew,
      weight_of_statusOf h, Finset.sum_congr rfl hothers, add_comm]
  free numaId socketId := by
    rw [h.free, h.socketOf, hn.free]
    split_ifs with heq
    · have hnone : n.socketOf numaId = none := by
        rw [← Option.not_isSome_iff_eq_none, ← mem_numas, heq]
        exact hnew
      simp [hallocatable, heq ▸ hnone, heq, eq_comm]
    · simp [heq]

/-- With one zone for each id, and each with what it can allocate, the derived amounts are those
of the topology. -/
theorem tallied_parseZones (gates : FeatureGates) (o : NumaOrders) (n : NumaTopologyStatus)
    {cnr : CustomNodeResource} (hnodup : (cnr.numaZones.map zoneId).Nodup)
    (hallocatable : ∀ zone ∈ cnr.numaZones, zone.2.allocatable.isSome) :
    Tallied (n.parseZones gates o cnr) := by
  have hround : ∀ done zone rest m, cnr.numaZones = done ++ zone :: rest →
      (Tallied m ∧ ∀ numaId, numaId ∈ m.numas ↔ numaId ∈ done.map zoneId) →
      Tallied (m.parseNuma gates o zone) ∧ ∀ numaId,
        numaId ∈ (m.parseNuma gates o zone).numas ↔ numaId ∈ (done ++ [zone]).map zoneId := by
    rintro done zone rest m hl ⟨hm, hnumas⟩
    have hparsed := parsed_parseNuma gates o m zone
    have hnew : zoneId zone ∉ m.numas := by
      rw [hl, map_append, map_cons] at hnodup
      rw [hnumas]
      intro hdone
      exact (nodup_append.mp hnodup).2.2 _ hdone _ (mem_cons_self ..) rfl
    have hzone : zone ∈ cnr.numaZones := by
      rw [hl]
      simp
    refine ⟨hm.parsed hparsed hnew (hallocatable zone hzone), ?_⟩
    intro numaId
    rw [hparsed.mem_numas, hnumas, map_append, mem_append, map_singleton,
      mem_singleton, or_comm]
  exact (foldl_of_step cnr.numaZones
    ⟨tallied_new n.requestsOfSharedCores, by simp [new, numas]⟩ hround).1

end

end NumaTopologyStatus

end GodelScheduler
