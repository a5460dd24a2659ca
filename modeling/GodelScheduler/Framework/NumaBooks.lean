import GodelScheduler.Framework.NumaTopology
import GodelScheduler.Library.Ledger
import GodelScheduler.Library.Runs

/-!
# The books of a NUMA topology

A NUMA topology keeps a ledger whose cells are the resources of the NUMAs and whose
bookings are the recorded allocations. Besides it keeps the amounts for shared cores
and the free NUMAs, which follow from who uses what. `Accounts` relates the ledger
and the shared amounts to a status `b` before any use, `Sound` the free NUMAs as
well. A loop over the requests of a pod keeps the first, a loop over its NUMAs both.
-/

namespace GodelScheduler

open Library Ledger Resource GoMap

abbrev NumaResource := ℤ × ResourceName

namespace NumaTopologyStatus

variable {gates : FeatureGates} {b n m : NumaTopologyStatus} {podKey k : PodKey}
  {numaId numaId' socketId socketId' : ℤ} {name name' : ResourceName} {s s' : ResourceStatus}
  {q : Quantity} {c : NumaResource} {numaStatus : NumaStatus}

section

def ledger (n : NumaTopologyStatus) : Ledger NumaResource PodKey where
  users c := ((n.status c.1 c.2).map fun s => s.users.keys.toFinset).getD ∅
  available c := ((n.status c.1 c.2).map fun s => s.available.nano).getD 0

def allocatable (n : NumaTopologyStatus) (c : NumaResource) : Option Quantity :=
  (n.status c.1 c.2).map ResourceStatus.allocatable

section

variable (n : NumaTopologyStatus)

def request (podKey : PodKey) (c : NumaResource) : Option Quantity :=
  (n.numaAllocation podKey c.1).lookup c.2

def allocatedNumas (podKey : PodKey) : GoMap ℤ ResourceList :=
  ((n.podAllocations.lookup podKey).getD {}).numaAllocations

def booked (podKey : PodKey) (c : NumaResource) : ℤ :=
  ((n.request podKey c).map Quantity.nano).getD 0

def numas : Finset ℤ := n.topology.keys.toFinset

def socketOf (numaId : ℤ) : Option ℤ :=
  (n.topology.lookup numaId).map NumaStatus.socketId

/-- The CPU or memory left to the pods with shared cores. -/
def sharedAvailable (name : ResourceName) : ℤ :=
  if name = "cpu" then n.availableOfSharedCores.milliCPU else n.availableOfSharedCores.memory

/-- Some pod uses CPU or memory of the NUMA. -/
def Occupied (numaId : ℤ) : Prop :=
  ∃ name k, isConflictResourcesForDifferentQoS name ∧ k ∈ n.ledger.users (numaId, name)

end

section

variable (hs : n.status c.1 c.2 = some s)
include hs

theorem users_of_status : n.ledger.users c = s.users.keys.toFinset := by
  simp [ledger, hs]

theorem available_of_status : n.ledger.available c = s.available.nano := by
  simp [ledger, hs]

theorem mem_users_iff : k ∈ n.ledger.users c ↔ k ∈ s.users := by
  rw [users_of_status hs, List.mem_toFinset, AList.mem_keys]

theorem users_eq_empty_iff : n.ledger.users c = ∅ ↔ s.users.len = 0 := by
  rw [users_of_status hs, List.toFinset_eq_empty_iff, len, List.length_eq_zero_iff]

end

theorem isSome_status_of_mem_users (hk : k ∈ n.ledger.users c) : (n.status c.1 c.2).isSome := by
  cases hs : n.status c.1 c.2 with
  | none => simp [ledger, hs] at hk
  | some s => rfl

theorem mem_numas : numaId ∈ n.numas ↔ (n.socketOf numaId).isSome := by
  simp [numas, socketOf, AList.mem_keys, AList.lookup_isSome]

theorem mem_numas_of_status (hs : n.status numaId name = some s) : numaId ∈ n.numas := by
  rw [mem_numas, socketOf]
  cases hlookup : n.topology.lookup numaId with
  | none => simp [status, hlookup] at hs
  | some numaStatus => rfl

theorem numas_congr (h : ∀ numaId, m.socketOf numaId = n.socketOf numaId) : m.numas = n.numas := by
  ext numaId
  rw [mem_numas, mem_numas, h]

theorem socketOf_eq_some (h : n.topology.lookup numaId = some numaStatus) :
    n.socketOf numaId = some numaStatus.socketId := by
  simp [socketOf, h]

theorem mem_numas_of_lookup (h : n.topology.lookup numaId = some numaStatus) :
    numaId ∈ n.numas := by
  rw [mem_numas, socketOf_eq_some h]
  rfl

end

section

theorem status_setStatus (hs : n.status numaId name = some s) (s' : ResourceStatus)
    (numaId' : ℤ) (name' : ResourceName) :
    (n.setStatus numaId name s').status numaId' name' =
      if (numaId', name') = (numaId, name) then some s' else n.status numaId' name' := by
  cases hlookup : n.topology.lookup numaId with
  | none => simp [status, hlookup] at hs
  | some numaStatus =>
    simp only [setStatus, hlookup, status, Prod.mk.injEq, lookup_insert']
    by_cases hnuma : numaId' = numaId
    · subst hnuma
      simp only [if_true, Option.bind_some, lookup_insert', true_and, hlookup]
    · simp [hnuma]

variable (n numaId name s)

@[simp] theorem socketOf_setStatus (numaId' : ℤ) :
    (n.setStatus numaId name s).socketOf numaId' = n.socketOf numaId' := by
  cases hlookup : n.topology.lookup numaId with
  | none => simp [setStatus, hlookup]
  | some numaStatus =>
    simp only [setStatus, hlookup, socketOf, lookup_insert']
    split_ifs with h
    · subst h
      simp [hlookup]
    · rfl

theorem setStatus_eq : ∃ topology, n.setStatus numaId name s = { n with topology } := by
  unfold setStatus
  split
  · exact ⟨n.topology, rfl⟩
  · exact ⟨_, rfl⟩

end

section

variable (gates n) (isAdd needUpdate : Bool) (name : ResourceName) (val : Quantity)

theorem updateAvailableOfSharedCores_eq :
    ∃ milliCPU memory, n.updateAvailableOfSharedCores gates isAdd needUpdate name val =
      { n with
        availableOfSharedCores := { n.availableOfSharedCores with milliCPU, memory } } := by
  unfold updateAvailableOfSharedCores isConflictResourcesForDifferentQoS
  by_cases hcpu : name = "cpu"
  · subst hcpu
    cases isAdd <;> cases needUpdate <;>
      exact ⟨_, n.availableOfSharedCores.memory, rfl⟩
  · by_cases hmem : name = "memory"
    · subst hmem
      cases isAdd <;> cases needUpdate <;>
        exact ⟨n.availableOfSharedCores.milliCPU, _, rfl⟩
    · refine ⟨n.availableOfSharedCores.milliCPU, n.availableOfSharedCores.memory, ?_⟩
      simp [hcpu, hmem]

/-- The amount of the resource itself changes if an update is needed, the other one never. -/
theorem sharedAvailable_update (hname' : isConflictResourcesForDifferentQoS name') :
    (n.updateAvailableOfSharedCores gates isAdd needUpdate name val).sharedAvailable name' =
      n.sharedAvailable name' + if needUpdate ∧ name = name' then
        (if isAdd then Resource.quantityOf name val else -Resource.quantityOf name val) else 0 := by
  have hcases : name' = "cpu" ∨ name' = "memory" := by
    simpa [isConflictResourcesForDifferentQoS] using hname'
  unfold updateAvailableOfSharedCores isConflictResourcesForDifferentQoS sharedAvailable
  by_cases hcpu : name = "cpu"
  · subst hcpu
    rcases hcases with rfl | rfl <;> cases isAdd <;> cases needUpdate <;>
      simp [addQuantity, subQuantity, quantityOf, sub_eq_add_neg]
  · by_cases hmem : name = "memory"
    · subst hmem
      rcases hcases with rfl | rfl <;> cases isAdd <;> cases needUpdate <;>
        simp [addQuantity, subQuantity, quantityOf, sub_eq_add_neg]
    · have hne : name ≠ name' := by
        rintro rfl
        rcases hcases with h | h
        · exact hcpu h
        · exact hmem h
      simp [hcpu, hmem, hne]

end

section

theorem mem_freeNumas_update (isAdd : Bool) :
    numaId' ∈ (n.updateFreeNumaForConflictResources isAdd numaId socketId).freeNumas socketId' ↔
      if numaId' = numaId ∧ socketId' = socketId then isAdd = true
      else numaId' ∈ n.freeNumas socketId' := by
  unfold updateFreeNumaForConflictResources
  extract_lets numas
  by_cases h : socketId' = socketId
  · subst h
    cases isAdd with
    | true => simp [freeNumas, AList.mem_insert, or_iff_not_imp_left]
    | false =>
      have herase : numaId' ∈ numas ↔ ¬numaId' = numaId ∧ numaId' ∈ n.freeNumas socketId' :=
        AList.mem_erase
      have hempty : numas.len = 0 → numaId' ∉ numas := by
        intro hlen
        rw [AList.mem_keys, List.length_eq_zero_iff.mp hlen]
        exact List.not_mem_nil
      by_cases hlen : numas.len = 0 <;> simp_all [freeNumas]
  · cases isAdd <;> by_cases hlen : numas.len = 0 <;> simp [freeNumas, hlen, h]

theorem updateFree_eq (n : NumaTopologyStatus) (isAdd : Bool) (numaId socketId : ℤ) :
    ∃ free, n.updateFreeNumaForConflictResources isAdd numaId socketId =
      { n with socketToFreeNumasOfConflictResources := free } := by
  cases isAdd <;> exact ⟨_, rfl⟩

end

variable {change : ℤ}

section

/-- What a write to a resource of a NUMA leaves alone. -/
structure KeepsRest (n m : NumaTopologyStatus) : Prop where
  podAllocations : m.podAllocations = n.podAllocations
  requests : m.requestsOfSharedCores = n.requestsOfSharedCores
  free : m.socketToFreeNumasOfConflictResources = n.socketToFreeNumasOfConflictResources
  socketOf : ∀ numaId, m.socketOf numaId = n.socketOf numaId

theorem KeepsRest.refl (n : NumaTopologyStatus) : KeepsRest n n := ⟨rfl, rfl, rfl, fun _ => rfl⟩

theorem KeepsRest.trans {l : NumaTopologyStatus} (h : KeepsRest n m) (h' : KeepsRest m l) :
    KeepsRest n l :=
  ⟨h'.podAllocations.trans h.podAllocations, h'.requests.trans h.requests, h'.free.trans h.free,
    fun numaId => (h'.socketOf numaId).trans (h.socketOf numaId)⟩

theorem request_congr (h : m.podAllocations = n.podAllocations) : m.request = n.request := by
  funext k c
  rw [request, request, numaAllocation, numaAllocation, h]

theorem KeepsRest.freeNumas (h : KeepsRest n m) : m.freeNumas = n.freeNumas := by
  funext socketId
  rw [NumaTopologyStatus.freeNumas, NumaTopologyStatus.freeNumas, h.free]

theorem keepsRest_setStatus (n : NumaTopologyStatus) (numaId : ℤ) (name : ResourceName)
    (s : ResourceStatus) : KeepsRest n (n.setStatus numaId name s) := by
  obtain ⟨topology, heq⟩ := setStatus_eq n numaId name s
  refine ⟨?_, ?_, ?_, socketOf_setStatus n numaId name s⟩ <;> rw [heq]

theorem keepsRest_updateAvailable (gates : FeatureGates) (n : NumaTopologyStatus)
    (isAdd needUpdate : Bool) (name : ResourceName) (val : Quantity) :
    KeepsRest n (n.updateAvailableOfSharedCores gates isAdd needUpdate name val) := by
  obtain ⟨milliCPU, memory, heq⟩ :=
    updateAvailableOfSharedCores_eq gates n isAdd needUpdate name val
  rw [heq]
  exact ⟨rfl, rfl, rfl, fun _ => rfl⟩

/-- A resource status is written and the shared amounts follow. -/
structure Writes (n m : NumaTopologyStatus) (c : NumaResource) (s' : ResourceStatus)
    (change : ℤ) : Prop where
  rest : KeepsRest n m
  status : ∀ numaId name,
    m.status numaId name = if (numaId, name) = c then some s' else n.status numaId name
  shared : ∀ name, isConflictResourcesForDifferentQoS name →
    m.sharedAvailable name = n.sharedAvailable name + if c.2 = name then change else 0
  other : ∃ milliCPU memory,
    m.availableOfSharedCores = { n.availableOfSharedCores with milliCPU, memory }

theorem writes_setStatus (gates : FeatureGates) (hs : n.status c.1 c.2 = some s)
    (s' : ResourceStatus) (isAdd needUpdate : Bool) (val : Quantity) :
    Writes n ((n.setStatus c.1 c.2 s').updateAvailableOfSharedCores gates isAdd needUpdate c.2 val)
      c s' (if needUpdate then
        (if isAdd then Resource.quantityOf c.2 val else -Resource.quantityOf c.2 val) else 0) where
  rest := (keepsRest_setStatus n c.1 c.2 s').trans (keepsRest_updateAvailable ..)
  status numaId name := by
    obtain ⟨milliCPU, memory, heq⟩ := updateAvailableOfSharedCores_eq gates
      (n.setStatus c.1 c.2 s') isAdd needUpdate c.2 val
    rw [heq]
    exact status_setStatus hs s' numaId name
  shared name hname := by
    obtain ⟨topology, heq⟩ := setStatus_eq n c.1 c.2 s'
    rw [sharedAvailable_update gates _ isAdd needUpdate c.2 val hname, heq]
    congr 1
    by_cases h : c.2 = name <;> cases needUpdate <;> simp [h]
  other := by
    obtain ⟨milliCPU, memory, heq⟩ := updateAvailableOfSharedCores_eq gates
      (n.setStatus c.1 c.2 s') isAdd needUpdate c.2 val
    obtain ⟨topology, heq'⟩ := setStatus_eq n c.1 c.2 s'
    refine ⟨milliCPU, memory, ?_⟩
    rw [heq, heq']

theorem Writes.allocatable (h : Writes n m c s' change) (hs : n.status c.1 c.2 = some s)
    (hs' : s'.allocatable = s.allocatable) (d : NumaResource) :
    m.allocatable d = n.allocatable d := by
  unfold NumaTopologyStatus.allocatable
  rw [h.status]
  split_ifs with hd
  · have hd : d = c := hd
    rw [hd, hs, Option.map_some, Option.map_some, hs']
  · rfl

theorem Writes.ledger (h : Writes n m c s' change) :
    m.ledger = ⟨Function.update n.ledger.users c s'.users.keys.toFinset,
      Function.update n.ledger.available c s'.available.nano⟩ := by
  have heq : ∀ d : NumaResource, (d.1, d.2) = d := fun _ => rfl
  unfold NumaTopologyStatus.ledger
  congr 1 <;> funext d <;> by_cases hd : d = c
  all_goals simp only [h.status, heq, hd, if_true, if_false, Option.map_some, Option.getD_some,
    Function.update_self, Function.update_of_ne, ne_eq, not_false_eq_true]

end

section

def capacity (n : NumaTopologyStatus) (c : NumaResource) : ℤ :=
  ((n.allocatable c).map Quantity.nano).getD 0

/-- What a resource counts for shared cores. -/
def weight (n : NumaTopologyStatus) (c : NumaResource) : ℤ :=
  ((n.allocatable c).map (Resource.quantityOf c.2)).getD 0

/-- The ledger of `n` is balanced, and the resources in use are missing from the shared amounts
of `b`. -/
structure Accounts (b n : NumaTopologyStatus) : Prop where
  socketOf : ∀ numaId, n.socketOf numaId = b.socketOf numaId
  allocatable : ∀ c, n.allocatable c = b.allocatable c
  balanced : n.ledger.Balanced b.capacity n.booked
  recorded : ∀ k c, k ∈ n.ledger.users c → (n.request k c).isSome
  shared : ∀ name, isConflictResourcesForDifferentQoS name →
    n.sharedAvailable name =
      b.sharedAvailable name - n.ledger.inUse b.weight (b.numas ×ˢ {name})
  other : ∃ milliCPU memory,
    n.availableOfSharedCores = { b.availableOfSharedCores with milliCPU, memory }

theorem KeepsRest.booked (h : KeepsRest n m) : m.booked = n.booked := by
  funext k c
  rw [NumaTopologyStatus.booked, request_congr h.podAllocations, NumaTopologyStatus.booked]

/-- A write to one resource keeps the accounts if its ledger is balanced and the shared amount
follows the resources in use. -/
theorem Accounts.of_writes (h : Accounts b n) (hw : Writes n m c s' change)
    (hs : n.status c.1 c.2 = some s) (hs' : s'.allocatable = s.allocatable)
    (hbalanced : m.ledger.Balanced b.capacity n.booked)
    (hrecorded : ∀ k d, k ∈ m.ledger.users d → (n.request k d).isSome)
    (hchange : m.ledger.inUse b.weight (b.numas ×ˢ {c.2}) =
      n.ledger.inUse b.weight (b.numas ×ˢ {c.2}) - change) : Accounts b m where
  socketOf numaId := (hw.rest.socketOf numaId).trans (h.socketOf numaId)
  allocatable d := (hw.allocatable hs hs' d).trans (h.allocatable d)
  balanced := by
    rw [hw.rest.booked]
    exact hbalanced
  recorded k d hk := by
    rw [request_congr hw.rest.podAllocations]
    exact hrecorded k d hk
  shared name hname := by
    rw [hw.shared name hname, h.shared name hname]
    split_ifs with heq
    · subst heq
      rw [hchange]
      ring
    · have hcongr : m.ledger.inUse b.weight (b.numas ×ˢ {name}) =
          n.ledger.inUse b.weight (b.numas ×ˢ {name}) := by
        apply inUse_congr
        intro d hd
        rw [hw.ledger]
        apply Function.update_of_ne
        rintro rfl
        exact heq (Finset.mem_singleton.mp (Finset.mem_product.mp hd).2)
      rw [hcongr]
      ring
  other := by
    obtain ⟨milliCPU, memory, heq⟩ := hw.other
    obtain ⟨milliCPU', memory', heq'⟩ := h.other
    exact ⟨milliCPU, memory, by rw [heq, heq']⟩

theorem Accounts.mem_cells (h : Accounts b n) (hs : n.status c.1 c.2 = some s) :
    c ∈ b.numas ×ˢ ({c.2} : Finset ResourceName) := by
  have hmem := mem_numas_of_status hs
  rw [mem_numas, h.socketOf, ← mem_numas] at hmem
  exact Finset.mem_product.mpr ⟨hmem, Finset.mem_singleton_self _⟩

theorem Accounts.weight (h : Accounts b n) (hs : n.status c.1 c.2 = some s) :
    b.weight c = Resource.quantityOf c.2 s.allocatable := by
  rw [NumaTopologyStatus.weight, ← h.allocatable, NumaTopologyStatus.allocatable, hs]
  rfl

theorem booked_of_request (hreq : n.request podKey c = some q) : n.booked podKey c = q.nano := by
  rw [booked, hreq]
  rfl

section

variable (gates : FeatureGates) (hs : n.status c.1 c.2 = some s)
include hs

section

variable (podKey : PodKey) (q : Quantity)

theorem writes_useResource :
    Writes n (n.useResource gates podKey c.1 c.2 q s) c
      { s with available := s.available.sub q, users := s.users.insert podKey () }
      (if n.ledger.users c = ∅ then -Resource.quantityOf c.2 s.allocatable else 0) := by
  have hw := writes_setStatus gates hs
    { s with available := s.available.sub q, users := s.users.insert podKey () }
    false (s.users.len == 0) s.allocatable
  simpa only [users_eq_empty_iff hs, beq_iff_eq, Bool.false_eq_true, if_false, useResource] using hw

theorem ledger_useResource :
    (n.useResource gates podKey c.1 c.2 q s).ledger = n.ledger.take podKey c q.nano := by
  rw [(writes_useResource gates hs podKey q).ledger, take, users_of_status hs,
    available_of_status hs, toFinset_keys_insert]
  rfl

theorem writes_freeResource :
    Writes n (n.freeResource gates podKey c.1 c.2 q s) c
      { s with available := s.available.add q, users := s.users.erase podKey }
      (if (n.ledger.users c).erase podKey = ∅
        then Resource.quantityOf c.2 s.allocatable else 0) := by
  have hw := writes_setStatus gates hs
    { s with available := s.available.add q, users := s.users.erase podKey }
    true (GoMap.len (s.users.erase podKey) == 0) s.allocatable
  have hempty : (n.ledger.users c).erase podKey = ∅ ↔ GoMap.len (s.users.erase podKey) = 0 := by
    rw [len, List.length_eq_zero_iff, users_of_status hs, ← List.toFinset_eq_empty_iff,
      toFinset_keys_erase]
  simpa only [hempty, beq_iff_eq, if_true, freeResource] using hw

theorem ledger_freeResource :
    (n.freeResource gates podKey c.1 c.2 q s).ledger = n.ledger.release podKey c q.nano := by
  rw [(writes_freeResource gates hs podKey q).ledger, release, users_of_status hs,
    available_of_status hs, toFinset_keys_erase]
  rfl

end

variable (h : Accounts b n) (hreq : n.request podKey c = some q)
include h hreq

theorem Accounts.useResource (hk : podKey ∉ s.users) :
    Accounts b (n.useResource gates podKey c.1 c.2 q s) := by
  have hledger := ledger_useResource gates hs podKey q
  apply h.of_writes (writes_useResource gates hs podKey q) hs rfl
  · rw [hledger, ← booked_of_request hreq]
    apply h.balanced.take
    rwa [mem_users_iff hs]
  · intro k d hd
    rw [hledger, mem_users_take] at hd
    rcases hd with hd | ⟨rfl, rfl⟩
    · exact h.recorded k d hd
    · rw [hreq]
      rfl
  · rw [hledger, inUse_take (h.mem_cells hs), h.weight hs]
    split_ifs <;> ring

theorem Accounts.freeResource (hk : podKey ∈ s.users) :
    Accounts b (n.freeResource gates podKey c.1 c.2 q s) := by
  have hledger := ledger_freeResource gates hs podKey q
  have hmem : podKey ∈ n.ledger.users c := (mem_users_iff hs).mpr hk
  apply h.of_writes (writes_freeResource gates hs podKey q) hs rfl
  · rw [hledger, ← booked_of_request hreq]
    exact h.balanced.release hmem
  · intro k d hd
    rw [hledger, mem_users_release] at hd
    exact h.recorded k d hd.1
  · rw [hledger, inUse_release (h.mem_cells hs) hmem, h.weight hs]

end

theorem Accounts.of_eq (h : Accounts b n) (htopology : m.topology = n.topology)
    (hpods : m.podAllocations = n.podAllocations)
    (hshared : m.availableOfSharedCores = n.availableOfSharedCores) : Accounts b m := by
  obtain ⟨pods, topology, requests, shared, free⟩ := m
  subst htopology hpods hshared
  exact ⟨h.socketOf, h.allocatable, h.balanced, h.recorded, h.shared, h.other⟩

end

section

/-- The free NUMAs are those of `b` whose CPU and memory nobody uses, and the accounts are kept. -/
structure Sound (b n : NumaTopologyStatus) : Prop extends Accounts b n where
  free : ∀ numaId socketId, numaId ∈ n.freeNumas socketId ↔
    numaId ∈ b.freeNumas socketId ∧ ¬(b.socketOf numaId = some socketId ∧ n.Occupied numaId)

/-- How `m` came from `n`: the users changed to `U`, and what is recorded is the same. -/
structure Rebooked (b n : NumaTopologyStatus) (U : PodKey → NumaResource → Prop)
    (m : NumaTopologyStatus) : Prop where
  accounts : Accounts b m
  podAllocations : m.podAllocations = n.podAllocations
  requests : m.requestsOfSharedCores = n.requestsOfSharedCores
  users : ∀ k c, k ∈ m.ledger.users c ↔ U k c

variable {U V : PodKey → NumaResource → Prop}

theorem Rebooked.congr (h : Rebooked b n U m) (hiff : ∀ k c, U k c ↔ V k c) : Rebooked b n V m :=
  ⟨h.accounts, h.podAllocations, h.requests, fun k c => (h.users k c).trans (hiff k c)⟩

theorem Accounts.rebooked (h : Accounts b n) : Rebooked b n (fun k c => k ∈ n.ledger.users c) n :=
  ⟨h, rfl, rfl, fun _ _ => Iff.rfl⟩

variable (h : Rebooked b n U m)
include h

theorem Rebooked.request : m.request = n.request := request_congr h.podAllocations

theorem Rebooked.of_keepsRest {l : NumaTopologyStatus} (hrest : KeepsRest m l)
    (haccounts : Accounts b l) (husers : ∀ k c, k ∈ l.ledger.users c ↔ V k c) : Rebooked b n V l :=
  ⟨haccounts, hrest.podAllocations.trans h.podAllocations, hrest.requests.trans h.requests, husers⟩

theorem Rebooked.useResource (gates : FeatureGates) (hs : m.status c.1 c.2 = some s)
    (hk : podKey ∉ s.users) (hreq : n.request podKey c = some q) :
    Rebooked b n (fun k d => U k d ∨ k = podKey ∧ d = c)
      (m.useResource gates podKey c.1 c.2 q s) := by
  rw [← h.request] at hreq
  apply h.of_keepsRest (writes_useResource gates hs podKey q).rest
    (Accounts.useResource gates hs h.accounts hreq hk)
  intro k d
  rw [ledger_useResource gates hs, mem_users_take, h.users]

theorem Rebooked.freeResource (gates : FeatureGates) (hs : m.status c.1 c.2 = some s)
    (hk : podKey ∈ s.users) (hreq : n.request podKey c = some q) :
    Rebooked b n (fun k d => U k d ∧ ¬(k = podKey ∧ d = c))
      (m.freeResource gates podKey c.1 c.2 q s) := by
  rw [← h.request] at hreq
  apply h.of_keepsRest (writes_freeResource gates hs podKey q).rest
    (Accounts.freeResource gates hs h.accounts hreq hk)
  intro k d
  rw [ledger_freeResource gates hs, mem_users_release, h.users]

variable (hn : Sound b n) (hothers : ∀ k c, c.1 ≠ numaId → (U k c ↔ k ∈ n.ledger.users c))
include hn hothers

/-- What is left after the loop over the resources of a NUMA: its place among the free ones. -/
theorem Rebooked.sound {l : NumaTopologyStatus}
    (hrest : ∃ free, l = { m with socketToFreeNumasOfConflictResources := free })
    (hkept : ∀ numaId' socketId', numaId' ≠ numaId →
      (numaId' ∈ l.freeNumas socketId' ↔ numaId' ∈ n.freeNumas socketId'))
    (hself : ∀ socketId', numaId ∈ l.freeNumas socketId' ↔ numaId ∈ b.freeNumas socketId' ∧
      ¬(b.socketOf numaId = some socketId' ∧ m.Occupied numaId)) :
    Rebooked b n U l ∧ Sound b l := by
  obtain ⟨free, rfl⟩ := hrest
  have haccounts : Accounts b { m with socketToFreeNumasOfConflictResources := free } :=
    h.accounts.of_eq rfl rfl rfl
  refine ⟨⟨haccounts, h.podAllocations, h.requests, h.users⟩, haccounts, ?_⟩
  intro numaId' socketId'
  by_cases heq : numaId' = numaId
  · subst heq
    exact hself socketId'
  · have hoccupied : m.Occupied numaId' ↔ n.Occupied numaId' := by
      apply exists_congr
      intro name
      apply exists_congr
      intro k
      rw [h.users, hothers k (numaId', name) heq]
    rw [hkept numaId' socketId' heq, hn.free]
    exact and_congr_right' (not_congr (and_congr_right' hoccupied.symm))

variable (hfree : m.freeNumas = n.freeNumas)
include hfree

theorem Rebooked.sound_of_update {isAdd : Bool} (hsocket : b.socketOf numaId = some socketId)
    (hbase : isAdd → numaId ∈ b.freeNumas socketId) (hoccupied : ¬m.Occupied numaId ↔ isAdd) :
    Rebooked b n U (m.updateFreeNumaForConflictResources isAdd numaId socketId) ∧
      Sound b (m.updateFreeNumaForConflictResources isAdd numaId socketId) := by
  apply h.sound hn hothers (updateFree_eq m isAdd numaId socketId)
  · intro numaId' socketId' hne
    rw [mem_freeNumas_update, if_neg fun h => hne h.1, hfree]
  · intro socketId'
    rw [mem_freeNumas_update, hfree, hn.free, hsocket]
    by_cases heq : socketId' = socketId
    · subst heq
      simpa [hoccupied] using hbase
    · simp [heq, Ne.symm heq]

theorem Rebooked.sound_of_iff (hoccupied : m.Occupied numaId ↔ n.Occupied numaId) :
    Rebooked b n U m ∧ Sound b m := by
  apply h.sound hn hothers ⟨m.socketToFreeNumasOfConflictResources, rfl⟩
  · intro numaId' socketId' _
    rw [hfree]
  · intro socketId'
    rw [hfree, hn.free, hoccupied]

end

end NumaTopologyStatus

end GodelScheduler
