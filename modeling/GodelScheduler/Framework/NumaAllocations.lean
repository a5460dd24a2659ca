import GodelScheduler.Framework.NumaBooks

/-!
# Allocations of one pod

A pod takes and gives back what is recorded for it in two nested loops, over the
NUMAs of its allocation and over the resources on each. The three loops of the
source differ in what they skip: adding a pod skips what it already uses, removing
it what it does not use, and setting a CNR the requests of nothing.
-/

namespace GodelScheduler

open Library NumaTopologyStatus List

namespace NumaTopologyStatus

variable {gates : FeatureGates} {o : NumaOrders} {b n m : NumaTopologyStatus} {podKey k : PodKey}
  {numaId socketId : ℤ} {name : ResourceName} {s : ResourceStatus} {q : Quantity}
  {T T' : ResourceName → Prop} {l : NumaTopologyStatus × Bool} {list : ResourceList}

section Loops

theorem mem_keys_concat {K V : Type*} (done : List (Sigma fun _ : K => V))
    (e : Sigma fun _ : K => V) (x : K) : x ∈ (done ++ [e]).keys ↔ x ∈ done.keys ∨ x = e.1 := by
  rw [List.keys, map_append, mem_append, map_singleton, mem_singleton]

variable {U : PodKey → NumaResource → Prop}

theorem Accounts.isSome_status (h : Accounts b n) (c : NumaResource) :
    (n.status c.1 c.2).isSome = (b.status c.1 c.2).isSome := by
  simpa [NumaTopologyStatus.allocatable] using congrArg Option.isSome (h.allocatable c)

theorem Rebooked.isSome_status (h : Rebooked b n U m) (hn : Sound b n) (c : NumaResource) :
    (m.status c.1 c.2).isSome = (n.status c.1 c.2).isSome :=
  (h.accounts.isSome_status c).trans (hn.isSome_status c).symm

theorem Rebooked.trans {U V : PodKey → NumaResource → Prop} {r : NumaTopologyStatus}
    (h : Rebooked b n U m) (h' : Rebooked b m V r) : Rebooked b n V r :=
  ⟨h'.accounts, h'.podAllocations.trans h.podAllocations, h'.requests.trans h.requests, h'.users⟩

/-- The users after a pod has taken, or given back, the resources in `R`. -/
def usersAfter (n : NumaTopologyStatus) (podKey : PodKey) (R : NumaResource → Prop) (uses : Bool)
    (k : PodKey) (c : NumaResource) : Prop :=
  k = podKey ∧ R c ∧ uses ∨ ¬(k = podKey ∧ R c) ∧ k ∈ n.ledger.users c

theorem usersAfter_of_ne {R : NumaResource → Prop} {uses : Bool} (k : PodKey) (c : NumaResource)
    (hne : c.1 ≠ numaId) :
    n.usersAfter podKey (fun c => c.1 = numaId ∧ R c) uses k c ↔ k ∈ n.ledger.users c := by
  cases uses <;> simp [usersAfter, hne]

/-- What is recorded lies on resources the topology has. -/
def Placed (n : NumaTopologyStatus) (podKey : PodKey) : Prop :=
  ∀ c : NumaResource, c.1 ∈ n.numas → (n.request podKey c).isSome → (n.status c.1 c.2).isSome

theorem Rebooked.numaAllocation (h : Rebooked b n U m) : m.numaAllocation = n.numaAllocation := by
  funext k numaId
  rw [NumaTopologyStatus.numaAllocation, NumaTopologyStatus.numaAllocation, h.podAllocations]

theorem Rebooked.placed (h : Rebooked b n U m) (hn : Sound b n) (hplaced : n.Placed podKey) :
    m.Placed podKey := by
  intro c hc hreq
  rw [mem_numas, h.accounts.socketOf, ← hn.socketOf, ← mem_numas] at hc
  rw [h.request] at hreq
  rw [h.isSome_status hn]
  exact hplaced c hc hreq

theorem mem_keys_of_isSome_request {allocation : PodAllocation} {c : NumaResource}
    (hlookup : n.podAllocations.lookup podKey = some allocation)
    (hreq : (n.request podKey c).isSome) : c.1 ∈ allocation.numaAllocations := by
  by_contra hmem
  have hnone : allocation.numaAllocations.lookup c.1 = none := AList.lookup_eq_none.mpr hmem
  simp [request, numaAllocation, hlookup, hnone] at hreq

theorem request_eq_none (hlookup : n.podAllocations.lookup podKey = none) (c : NumaResource) :
    n.request podKey c = none := by
  simp [request, numaAllocation, hlookup]

/-- The loop over the NUMAs of a pod, from what one round does: it changes the use of the
resources in `R` on its own NUMA. -/
theorem exists_foldlM_numas {order : RangeOrder (Sigma fun _ : ℤ => ResourceList)}
    {R : NumaResource → Prop} {uses : Bool}
    {step : NumaTopologyStatus → (Sigma fun _ : ℤ => ResourceList) → Option NumaTopologyStatus}
    (hn : Sound b n) (hR : ∀ c, R c → (n.request podKey c).isSome)
    (hstep : ∀ U m numaId list, n.numaAllocation podKey numaId = list →
      numaId ∈ n.allocatedNumas podKey → Rebooked b n U m → Sound b m →
      (∀ name, podKey ∈ m.ledger.users (numaId, name) ↔ podKey ∈ n.ledger.users (numaId, name)) →
      ∃ m', step m ⟨numaId, list⟩ = some m' ∧
        Rebooked b m (m.usersAfter podKey (fun c => c.1 = numaId ∧ R c) uses) m' ∧ Sound b m') :
    ∃ m, (match n.podAllocations.lookup podKey with
        | none => some n
        | some allocation => (order.list allocation.numaAllocations.entries).foldlM step n) =
      some m ∧ Rebooked b n (n.usersAfter podKey R uses) m ∧ Sound b m := by
  cases hlookup : n.podAllocations.lookup podKey with
  | none =>
    have hnone : ∀ c, ¬R c := by
      intro c h
      simpa [request_eq_none hlookup] using hR c h
    exact ⟨n, rfl, hn.toAccounts.rebooked.congr (by simp [usersAfter, hnone]), hn⟩
  | some allocation =>
    set entries := allocation.numaAllocations.entries
    have hnodup : (order.list entries).keys.Nodup :=
      ((order.perm entries).map Sigma.fst).nodup_iff.mpr allocation.numaAllocations.keys_nodup
    have hround : ∀ done e rest m, order.list entries = done ++ e :: rest →
        (Rebooked b n (n.usersAfter podKey (fun c => c.1 ∈ done.keys ∧ R c) uses) m ∧ Sound b m) →
        ∃ m', step m e = some m' ∧
          Rebooked b n (n.usersAfter podKey (fun c => c.1 ∈ (done ++ [e]).keys ∧ R c) uses) m' ∧
          Sound b m' := by
      rintro done ⟨numaId, list⟩ rest m hl ⟨h, hm⟩
      have hmem : ⟨numaId, list⟩ ∈ entries := by
        rw [← order.mem_list, hl]
        simp
      have hlist : n.numaAllocation podKey numaId = list := by
        have hlist : allocation.numaAllocations.lookup numaId = some list :=
          AList.mem_lookup_iff.mpr hmem
        simp [numaAllocation, hlookup, hlist]
      have hnuma : numaId ∈ n.allocatedNumas podKey := by
        rw [allocatedNumas, hlookup]
        exact mem_keys_of_mem hmem
      have hnew : numaId ∉ done.keys :=
        notMem_done ((congrArg List.keys hl).trans map_append) hnodup
      obtain ⟨m', hm', hrebooked, hsound⟩ := hstep _ m numaId list hlist hnuma h hm (by
        intro name
        rw [h.users, usersAfter]
        simp [hnew])
      refine ⟨m', hm', (h.trans hrebooked).congr ?_, hsound⟩
      intro k c
      simp only [usersAfter, h.users, mem_keys_concat]
      cases uses <;> simp only [Bool.false_eq_true, and_false, and_true] <;> tauto
    obtain ⟨m, hm, h, hsound⟩ := exists_foldlM_of_step (order.list entries)
      ⟨hn.toAccounts.rebooked.congr (by simp [usersAfter]), hn⟩ hround
    refine ⟨m, hm, h.congr fun k c => ?_, hsound⟩
    have hkeys : R c → c.1 ∈ (order.list entries).keys := fun h =>
      ((order.perm entries).map Sigma.fst).mem_iff.mpr
        (mem_keys_of_isSome_request hlookup (hR c h))
    simp only [usersAfter, and_iff_right_of_imp hkeys]

/-- The loop over the requests of a pod on a NUMA, from what one round does. -/
theorem exists_foldlM_requests (order : RangeOrder (Sigma fun _ : ResourceName => Quantity))
    (step : NumaTopologyStatus × Bool → (Sigma fun _ : ResourceName => Quantity) →
      Option (NumaTopologyStatus × Bool))
    {Q : (ResourceName → Prop) → NumaTopologyStatus × Bool → Prop} (hnuma : numaId ∈ n.numas)
    (hplaced : n.Placed podKey) (h : Q (fun _ => False) l)
    (hstep : ∀ T l name q, n.request podKey (numaId, name) = some q →
      (n.status numaId name).isSome → Q T l →
      ∃ l', step l ⟨name, q⟩ = some l' ∧ Q (fun x => T x ∨ x = name) l') :
    ∃ l', (order.list (n.numaAllocation podKey numaId).entries).foldlM step l = some l' ∧
      Q (fun name => (n.request podKey (numaId, name)).isSome) l' := by
  set list := n.numaAllocation podKey numaId
  have hround : ∀ done e rest l, order.list list.entries = done ++ e :: rest →
      Q (fun name => name ∈ done.keys) l →
      ∃ l', step l e = some l' ∧ Q (fun name => name ∈ (done ++ [e]).keys) l' := by
    rintro done ⟨name, q⟩ rest l hl hQ
    have hmem : ⟨name, q⟩ ∈ list.entries := by
      rw [← order.mem_list, hl]
      simp
    have hreq : n.request podKey (numaId, name) = some q := AList.mem_lookup_iff.mpr hmem
    simp only [mem_keys_concat]
    exact hstep _ l name q hreq (hplaced (numaId, name) hnuma (by rw [hreq]; rfl)) hQ
  have hnil : (fun name => name ∈ ([] : List (Sigma fun _ : ResourceName => Quantity)).keys) =
      fun _ => False := by simp
  obtain ⟨l', hl', hQ⟩ := exists_foldlM_of_step (order.list list.entries) (hnil ▸ h) hround
  have hkeys : ∀ name, name ∈ (order.list list.entries).keys ↔
      (n.request podKey (numaId, name)).isSome := by
    intro name
    rw [request, AList.lookup_isSome]
    exact ((order.perm list.entries).map Sigma.fst).mem_iff
  simp only [hkeys] at hQ
  exact ⟨l', hl', hQ⟩

/-- In the loop over the requests of a pod on a NUMA it has taken those in `T`; the flag is lost
with the first CPU or memory taken. -/
structure Taking (b n : NumaTopologyStatus) (podKey : PodKey) (numaId : ℤ)
    (T : ResourceName → Prop) (l : NumaTopologyStatus × Bool) : Prop where
  rebooked : Rebooked b n
    (fun k c => k ∈ n.ledger.users c ∨ k = podKey ∧ c.1 = numaId ∧ T c.2) l.1
  free : l.1.freeNumas = n.freeNumas
  occupied : l.2 = false → l.1.Occupied numaId
  unchanged : l.2 = true → (l.1.Occupied numaId ↔ n.Occupied numaId)

theorem Sound.taking (h : Sound b n) (podKey : PodKey) (numaId : ℤ) :
    Taking b n podKey numaId (fun _ => False) (n, true) where
  rebooked := h.toAccounts.rebooked.congr (by simp)
  free := rfl
  occupied h := by cases h
  unchanged _ := Iff.rfl

theorem Taking.congr (h : Taking b n podKey numaId T l)
    (hT : ∀ k name, k ∈ n.ledger.users (numaId, name) ∨ k = podKey ∧ T name ↔
      k ∈ n.ledger.users (numaId, name) ∨ k = podKey ∧ T' name) :
    Taking b n podKey numaId T' l := by
  refine ⟨h.rebooked.congr ?_, h.free, h.occupied, h.unchanged⟩
  rintro k ⟨numaId', name⟩
  by_cases heq : numaId' = numaId
  · subst heq
    simpa using hT k name
  · simp [heq]

theorem Taking.useResource (h : Taking b n podKey numaId T l) (gates : FeatureGates)
    (hs : l.1.status numaId name = some s) (hk : podKey ∉ s.users)
    (hreq : n.request podKey (numaId, name) = some q) :
    Taking b n podKey numaId (fun x => T x ∨ x = name)
      (l.1.useResource gates podKey numaId name q s,
        l.2 && !isConflictResourcesForDifferentQoS name) where
  rebooked := (h.rebooked.useResource (c := (numaId, name)) gates hs hk hreq).congr (by
    rintro k ⟨numaId', name'⟩
    simp only [Prod.mk.injEq]
    tauto)
  free := (writes_useResource (c := (numaId, name)) gates hs podKey q).rest.freeNumas.trans h.free
  occupied hflag := by
    have hledger := ledger_useResource (c := (numaId, name)) gates hs podKey q
    rw [Bool.and_eq_false_iff] at hflag
    rcases hflag with hflag | hconflict
    · obtain ⟨name', k, hname', hk'⟩ := h.occupied hflag
      refine ⟨name', k, hname', ?_⟩
      rw [hledger, Ledger.mem_users_take]
      exact .inl hk'
    · refine ⟨name, podKey, by simpa using hconflict, ?_⟩
      rw [hledger, Ledger.mem_users_take]
      exact .inr ⟨rfl, rfl⟩
  unchanged hflag := by
    rw [Bool.and_eq_true, Bool.not_eq_true'] at hflag
    rw [← h.unchanged hflag.1]
    apply exists_congr
    intro name'
    apply exists_congr
    intro k
    rw [ledger_useResource (c := (numaId, name)) gates hs podKey q, Ledger.mem_users_take]
    refine and_congr_right fun hname' => or_iff_left ?_
    rintro ⟨-, heq⟩
    obtain rfl : name' = name := congrArg Prod.snd heq
    simp [hflag.2] at hname'

/-- The NUMA leaves the free ones if the flag is lost. -/
theorem Taking.sound (h : Taking b n podKey numaId T l) (hn : Sound b n)
    (hsocket : n.socketOf numaId = some socketId) {R : NumaResource → Prop}
    (hR : ∀ name, R (numaId, name) ↔ T name) :
    let m := if l.2 then l.1 else l.1.updateFreeNumaForConflictResources false numaId socketId
    Rebooked b n (n.usersAfter podKey (fun c => c.1 = numaId ∧ R c) true) m ∧ Sound b m := by
  have hrebooked : Rebooked b n (n.usersAfter podKey (fun c => c.1 = numaId ∧ R c) true) l.1 := by
    apply h.rebooked.congr
    rintro k ⟨numaId', name⟩
    by_cases heq : numaId' = numaId
    · subst heq
      simp only [usersAfter, hR]
      tauto
    · simp [usersAfter, heq]
  rw [hn.socketOf] at hsocket
  cases hflag : l.2 with
  | true => exact hrebooked.sound_of_iff hn usersAfter_of_ne h.free (h.unchanged hflag)
  | false =>
    rw [if_neg Bool.false_ne_true]
    apply hrebooked.sound_of_update hn usersAfter_of_ne h.free hsocket
    · simp
    · simpa using h.occupied hflag

end Loops

section

theorem taking_addRequest (hn : Sound b n) (hreq : n.request podKey (numaId, name) = some q)
    (hplaced : (n.status numaId name).isSome) (h : Taking b n podKey numaId T l) :
    ∃ l', addRequest gates podKey numaId l ⟨name, q⟩ = some l' ∧
      Taking b n podKey numaId (fun x => T x ∨ x = name) l' := by
  rw [← h.rebooked.isSome_status hn (numaId, name)] at hplaced
  obtain ⟨s, hs⟩ := Option.isSome_iff_exists.mp hplaced
  by_cases hk : podKey ∈ s.users
  · refine ⟨l, by simp [addRequest, hs, hk], h.congr fun k name' => ?_⟩
    have huses := (h.rebooked.users podKey (numaId, name)).mp ((mem_users_iff hs).mpr hk)
    constructor
    · tauto
    · rintro (hk' | ⟨rfl, hk' | rfl⟩)
      · exact .inl hk'
      · exact .inr ⟨rfl, hk'⟩
      · simpa using huses
  · exact ⟨_, by simp [addRequest, hs, hk], h.useResource gates hs hk hreq⟩

theorem addNumaAllocation_spec (hn : Sound b n) (hlist : n.numaAllocation podKey numaId = list)
    (hplaced : n.Placed podKey) :
    ∃ m, addNumaAllocation gates o podKey n ⟨numaId, list⟩ = some m ∧
      Rebooked b n (n.usersAfter podKey (fun c => c.1 = numaId ∧ c.1 ∈ b.numas ∧
        (n.request podKey c).isSome) true) m ∧ Sound b m := by
  subst hlist
  rw [← numas_congr hn.socketOf]
  cases hlookup : n.topology.lookup numaId with
  | none =>
    have hnot : numaId ∉ n.numas := by
      rw [mem_numas, socketOf, hlookup]
      simp
    refine ⟨n, by simp [addNumaAllocation, hlookup], hn.toAccounts.rebooked.congr ?_, hn⟩
    rintro k ⟨numaId', name⟩
    by_cases heq : numaId' = numaId <;> simp [usersAfter, heq, hnot]
  | some numaStatus =>
    have hmem := mem_numas_of_lookup hlookup
    obtain ⟨l, hl, h⟩ := exists_foldlM_requests (o.requests podKey numaId)
      (addRequest gates podKey numaId) hmem hplaced (hn.taking podKey numaId)
      fun T l name q hreq hs h => taking_addRequest hn hreq hs h
    refine ⟨_, by simp [addNumaAllocation, hlookup, hl], h.sound hn (socketOf_eq_some hlookup) ?_⟩
    exact fun name => and_iff_right hmem

theorem addAllocation_spec (hn : Sound b n) (hplaced : n.Placed podKey) :
    ∃ m, n.addAllocation gates o podKey = some m ∧
      Rebooked b n (n.usersAfter podKey (fun c => c.1 ∈ b.numas ∧
        (n.request podKey c).isSome) true) m ∧ Sound b m := by
  apply exists_foldlM_numas hn fun c h => h.2
  intro U m numaId list hlist _ h hm _
  rw [← h.request]
  rw [← h.numaAllocation] at hlist
  exact addNumaAllocation_spec hm hlist (h.placed hn hplaced)

end

section

/-- In the loop over the requests of a pod on a NUMA it has given back those in `T`; the flag is
lost once another pod is seen to use CPU or memory. -/
structure Giving (b n : NumaTopologyStatus) (podKey : PodKey) (numaId : ℤ)
    (T : ResourceName → Prop) (l : NumaTopologyStatus × Bool) : Prop where
  rebooked : Rebooked b n (n.usersAfter podKey (fun c => c.1 = numaId ∧ T c.2) false) l.1
  free : l.1.freeNumas = n.freeNumas
  occupied : l.2 = false → ∃ name k, isConflictResourcesForDifferentQoS name ∧ k ≠ podKey ∧
    k ∈ l.1.ledger.users (numaId, name)

theorem Sound.giving (h : Sound b n) (podKey : PodKey) (numaId : ℤ) :
    Giving b n podKey numaId (fun _ => False) (n, true) where
  rebooked := h.toAccounts.rebooked.congr (by simp [usersAfter])
  free := rfl
  occupied h := by cases h

theorem Giving.freeResource (h : Giving b n podKey numaId T l) (gates : FeatureGates)
    (hs : l.1.status numaId name = some s) (hk : podKey ∈ s.users)
    (hreq : n.request podKey (numaId, name) = some q) :
    Giving b n podKey numaId (fun x => T x ∨ x = name)
      (l.1.freeResource gates podKey numaId name q s,
        l.2 && !(isConflictResourcesForDifferentQoS name &&
          !(GoMap.len (s.users.erase podKey) == 0))) where
  rebooked := (h.rebooked.freeResource (c := (numaId, name)) gates hs hk hreq).congr (by
    rintro k ⟨numaId', name'⟩
    simp only [usersAfter, Prod.mk.injEq, Bool.false_eq_true, and_false, false_or]
    tauto)
  free := (writes_freeResource (c := (numaId, name)) gates hs podKey q).rest.freeNumas.trans h.free
  occupied hflag := by
    have hledger := ledger_freeResource (c := (numaId, name)) gates hs podKey q
    rw [Bool.and_eq_false_iff] at hflag
    rcases hflag with hflag | hconflict
    · obtain ⟨name', k, hname', hne, hk'⟩ := h.occupied hflag
      refine ⟨name', k, hname', hne, ?_⟩
      rw [hledger, Ledger.mem_users_release]
      exact ⟨hk', fun h => hne h.1⟩
    · rw [Bool.not_eq_false', Bool.and_eq_true, Bool.not_eq_true', beq_eq_false_iff_ne] at hconflict
      obtain ⟨k, hk'⟩ := exists_mem_of_length_pos (Nat.pos_of_ne_zero hconflict.2)
      rw [← AList.mem_keys, AList.mem_erase] at hk'
      refine ⟨name, k, hconflict.1, hk'.1, ?_⟩
      rw [hledger, Ledger.mem_users_release]
      exact ⟨(mem_users_iff (c := (numaId, name)) hs).mpr hk'.2, fun h => hk'.1 h.1⟩

theorem isNumaEmptyForConflictResources_iff (n : NumaTopologyStatus) (numaId : ℤ) :
    n.isNumaEmptyForConflictResources numaId ↔ ¬n.Occupied numaId := by
  cases hlookup : n.topology.lookup numaId with
  | none => simp [isNumaEmptyForConflictResources, Occupied, ledger, status, hlookup]
  | some numaStatus =>
    have hstatus : ∀ name, n.status numaId name = numaStatus.resourceStatuses.lookup name := by
      intro name
      simp [status, hlookup]
    simp only [isNumaEmptyForConflictResources, hlookup, Option.all_some,
      NumaStatus.isEmptyForConflictResources, all_eq_true, Bool.or_eq_true, beq_iff_eq,
      Bool.not_eq_true', Occupied, not_exists, not_and]
    constructor
    · intro h name k hname hk
      obtain ⟨s, hs⟩ := Option.isSome_iff_exists.mp (isSome_status_of_mem_users hk)
      have hmem : ⟨name, s⟩ ∈ numaStatus.resourceStatuses.entries :=
        AList.mem_lookup_iff.mp ((hstatus name).symm.trans hs)
      rcases h _ hmem with hlen | hconflict
      · rw [(users_eq_empty_iff hs).mpr hlen] at hk
        cases hk
      · rw [hconflict] at hname
        cases hname
    · rintro h ⟨name, s⟩ hmem
      have hs : n.status numaId name = some s :=
        (hstatus name).trans (AList.mem_lookup_iff.mpr hmem)
      by_cases hname : isConflictResourcesForDifferentQoS name
      · left
        rw [← users_eq_empty_iff (c := (numaId, name)) hs]
        exact Finset.eq_empty_of_forall_notMem fun k => h name k hname
      · right
        simpa using hname

theorem giving_removeRequest (hn : Sound b n) (hreq : n.request podKey (numaId, name) = some q)
    (hplaced : (n.status numaId name).isSome) (h : Giving b n podKey numaId T l) :
    ∃ l', removeRequest gates podKey numaId l ⟨name, q⟩ = some l' ∧
      Giving b n podKey numaId (fun x => T x ∨ x = name) l' := by
  rw [← h.rebooked.isSome_status hn (numaId, name)] at hplaced
  obtain ⟨s, hs⟩ := Option.isSome_iff_exists.mp hplaced
  by_cases hk : podKey ∈ s.users
  · exact ⟨_, by simp [removeRequest, hs, hk], h.freeResource gates hs hk hreq⟩
  · refine ⟨l, by simp [removeRequest, hs, hk], h.rebooked.congr ?_, h.free, h.occupied⟩
    have hunused := (h.rebooked.users podKey (numaId, name)).not.mp
      fun hmem => hk ((mem_users_iff hs).mp hmem)
    rintro k ⟨numaId', name'⟩
    simp only [usersAfter, Bool.false_eq_true, and_false, false_or] at hunused ⊢
    refine and_congr_left fun hmem => not_congr ⟨by tauto, ?_⟩
    rintro ⟨rfl, rfl, hT | rfl⟩
    · exact ⟨rfl, rfl, hT⟩
    · by_contra hT
      exact hunused ⟨fun h => hT ⟨rfl, rfl, h.2.2⟩, hmem⟩

/-- The NUMA joins the free ones if nobody uses its CPU and memory any more. -/
theorem Giving.sound (h : Giving b n podKey numaId T l) (hn : Sound b n)
    (hsocket : n.socketOf numaId = some socketId) (hbase : numaId ∈ b.freeNumas socketId)
    {R : NumaResource → Prop} (hR : ∀ name, R (numaId, name) ↔ T name) :
    let m := if l.2 && l.1.isNumaEmptyForConflictResources numaId
      then l.1.updateFreeNumaForConflictResources true numaId socketId else l.1
    Rebooked b n (n.usersAfter podKey (fun c => c.1 = numaId ∧ R c) false) m ∧ Sound b m := by
  have hrebooked : Rebooked b n (n.usersAfter podKey (fun c => c.1 = numaId ∧ R c) false) l.1 := by
    apply h.rebooked.congr
    rintro k ⟨numaId', name⟩
    by_cases heq : numaId' = numaId
    · subst heq
      simp [usersAfter, hR]
    · simp [usersAfter, heq]
  have hflag : (l.2 && l.1.isNumaEmptyForConflictResources numaId) = true ↔
      ¬l.1.Occupied numaId := by
    rw [Bool.and_eq_true, isNumaEmptyForConflictResources_iff, and_iff_right_iff_imp]
    intro hfree
    by_contra hflag
    obtain ⟨name, k, hname, -, hk⟩ := h.occupied (by simpa using hflag)
    exact hfree ⟨name, k, hname, hk⟩
  by_cases hoccupied : l.1.Occupied numaId
  · rw [if_neg (hflag.not.mpr (not_not_intro hoccupied))]
    apply hrebooked.sound_of_iff hn usersAfter_of_ne h.free
    refine iff_of_true hoccupied ?_
    obtain ⟨name, k, hname, hk⟩ := hoccupied
    refine ⟨name, k, hname, ?_⟩
    rw [h.rebooked.users] at hk
    simpa [usersAfter] using hk.imp id And.right
  · rw [if_pos (hflag.mpr hoccupied)]
    rw [hn.socketOf] at hsocket
    exact hrebooked.sound_of_update hn usersAfter_of_ne h.free hsocket (fun _ => hbase)
      (iff_of_true hoccupied rfl)

theorem removeNumaAllocation_spec (hn : Sound b n)
    (hbase : ∀ numaId socketId, b.socketOf numaId = some socketId → numaId ∈ b.freeNumas socketId)
    (hlist : n.numaAllocation podKey numaId = list) (hplaced : n.Placed podKey) :
    ∃ m, removeNumaAllocation gates o podKey n ⟨numaId, list⟩ = some m ∧
      Rebooked b n (n.usersAfter podKey (fun c => c.1 = numaId ∧
        (n.request podKey c).isSome) false) m ∧ Sound b m := by
  subst hlist
  cases hlookup : n.topology.lookup numaId with
  | none =>
    refine ⟨n, by simp [removeNumaAllocation, hlookup], hn.toAccounts.rebooked.congr ?_, hn⟩
    rintro k ⟨numaId', name⟩
    by_cases heq : numaId' = numaId
    · subst heq
      have hempty : n.ledger.users (numaId', name) = ∅ := by simp [ledger, status, hlookup]
      simp [usersAfter, hempty]
    · simp [usersAfter, heq]
  | some numaStatus =>
    have hsocket := socketOf_eq_some hlookup
    obtain ⟨l, hl, h⟩ := exists_foldlM_requests (o.requests podKey numaId)
      (removeRequest gates podKey numaId) (mem_numas_of_lookup hlookup) hplaced
      (hn.giving podKey numaId) fun T l name q hreq hs h => giving_removeRequest hn hreq hs h
    refine ⟨_, by simp [removeNumaAllocation, hlookup, hl], h.sound hn hsocket ?_ ?_⟩
    · exact hbase numaId _ ((hn.socketOf numaId).symm.trans hsocket)
    · exact fun name => Iff.rfl

/-- A pod that is removed uses nothing any more. -/
theorem removeAllocation_spec (gates : FeatureGates) (o : NumaOrders) (hn : Sound b n)
    (hbase : ∀ numaId socketId, b.socketOf numaId = some socketId → numaId ∈ b.freeNumas socketId)
    (hplaced : n.Placed podKey) :
    ∃ m, n.removeAllocation gates o podKey = some m ∧
      Rebooked b n (fun k c => k ≠ podKey ∧ k ∈ n.ledger.users c) m ∧ Sound b m := by
  have hspec : ∃ m, n.removeAllocation gates o podKey = some m ∧ Rebooked b n
      (n.usersAfter podKey (fun c => (n.request podKey c).isSome) false) m ∧ Sound b m := by
    apply exists_foldlM_numas hn fun c h => h
    intro U m numaId list hlist _ h hm _
    rw [← h.request]
    rw [← h.numaAllocation] at hlist
    exact removeNumaAllocation_spec hm hbase hlist (h.placed hn hplaced)
  obtain ⟨m, hm, h, hsound⟩ := hspec
  refine ⟨m, hm, h.congr fun k c => ?_, hsound⟩
  simp only [usersAfter, Bool.false_eq_true, and_false, false_or]
  refine and_congr_left fun hk => not_congr (and_iff_left_of_imp ?_)
  rintro rfl
  exact hn.recorded k c hk

end

section

/-- A recorded request that is not read as nothing. -/
def Needs (n : NumaTopologyStatus) (podKey : PodKey) (c : NumaResource) : Prop :=
  ((n.request podKey c).getD .zero).milliValue ≠ 0

theorem Needs.exists_request {c : NumaResource} (h : n.Needs podKey c) :
    ∃ q, n.request podKey c = some q ∧ q.milliValue ≠ 0 := by
  cases hreq : n.request podKey c with
  | none =>
    rw [Needs, hreq] at h
    exact absurd rfl h
  | some q =>
    rw [Needs, hreq] at h
    exact ⟨q, rfl, h⟩

theorem taking_settleRequest (hlist : n.numaAllocation podKey numaId = list)
    (hplaced : (l.1.status numaId name).isSome) (hunused : podKey ∉ l.1.ledger.users (numaId, name))
    (h : Taking b n podKey numaId T l) :
    Taking b n podKey numaId (fun x => T x ∨ x = name ∧ n.Needs podKey (numaId, x))
      (settleRequest gates podKey numaId list l name) := by
  obtain ⟨s, hs⟩ := Option.isSome_iff_exists.mp hplaced
  have hrequest : n.request podKey (numaId, name) = list.lookup name := by
    rw [request, hlist]
  by_cases hneeds : n.Needs podKey (numaId, name)
  · obtain ⟨q, hq, hmilli⟩ := hneeds.exists_request
    have hstep : settleRequest gates podKey numaId list l name =
        (l.1.useResource gates podKey numaId name q s,
          l.2 && !isConflictResourcesForDifferentQoS name) := by
      simp [settleRequest, hs, ← hrequest, hq, hmilli]
    rw [hstep]
    refine (h.useResource gates hs (fun hk => hunused ((mem_users_iff hs).mpr hk)) hq).congr ?_
    intro k name'
    by_cases heq : name' = name <;> simp [heq, hneeds]
  · have hstep : settleRequest gates podKey numaId list l name = l := by
      rw [Needs, not_not, hrequest] at hneeds
      simp [settleRequest, hs, hneeds]
    rw [hstep]
    apply h.congr
    intro k name'
    by_cases heq : name' = name <;> simp [heq, hneeds]

theorem taking_settleRequests (gates : FeatureGates) (o : NumaOrders) (hn : Sound b n)
    (hlist : n.numaAllocation podKey numaId = list) {numaStatus : NumaStatus}
    (hlookup : n.topology.lookup numaId = some numaStatus)
    (hunused : ∀ name, podKey ∉ n.ledger.users (numaId, name)) :
    Taking b n podKey numaId
      (fun name => (n.status numaId name).isSome ∧ n.Needs podKey (numaId, name))
      (((o.resourceStatuses podKey numaId).list numaStatus.resourceStatuses.keys).foldl
        (settleRequest gates podKey numaId list) (n, true)) := by
  set order := o.resourceStatuses podKey numaId
  set keys := numaStatus.resourceStatuses.keys
  have hkeys : ∀ name, name ∈ order.list keys ↔ (n.status numaId name).isSome := by
    intro name
    rw [order.mem_list, ← AList.mem_keys, ← AList.lookup_isSome, status, hlookup]
    rfl
  have hnodup : (order.list keys).Nodup := order.nodup_list numaStatus.resourceStatuses.keys_nodup
  have hround : ∀ done name rest l, order.list keys = done ++ name :: rest →
      Taking b n podKey numaId (fun x => x ∈ done ∧ n.Needs podKey (numaId, x)) l →
      Taking b n podKey numaId (fun x => x ∈ done ++ [name] ∧ n.Needs podKey (numaId, x))
        (settleRequest gates podKey numaId list l name) := by
    intro done name rest l hl h
    have hnew := notMem_done hl hnodup
    have hplaced : (l.1.status numaId name).isSome := by
      rw [h.rebooked.isSome_status hn (numaId, name), ← hkeys, hl]
      simp
    have hnot : podKey ∉ l.1.ledger.users (numaId, name) := by
      rw [h.rebooked.users]
      simp [hunused, hnew]
    refine (taking_settleRequest hlist hplaced hnot h).congr ?_
    intro k name'
    simp only [mem_append, mem_singleton]
    tauto
  have h := foldl_of_step (order.list keys) ((hn.taking podKey numaId).congr (by simp)) hround
  simpa only [hkeys] using h

theorem settleNumaAllocation_spec (hn : Sound b n) (hlist : n.numaAllocation podKey numaId = list)
    (hnuma : numaId ∈ b.numas) (hunused : ∀ name, podKey ∉ n.ledger.users (numaId, name)) :
    ∃ m, settleNumaAllocation gates o podKey n ⟨numaId, list⟩ = some m ∧
      Rebooked b n (n.usersAfter podKey (fun c => c.1 = numaId ∧ (n.status c.1 c.2).isSome ∧
        n.Needs podKey c) true) m ∧ Sound b m := by
  cases hlookup : n.topology.lookup numaId with
  | none =>
    rw [mem_numas, ← hn.socketOf, socketOf, hlookup] at hnuma
    cases hnuma
  | some numaStatus =>
    refine ⟨_, by simp [settleNumaAllocation, hlookup],
      (taking_settleRequests gates o hn hlist hlookup hunused).sound hn
        (socketOf_eq_some hlookup) ?_⟩
    exact fun name => Iff.rfl

theorem settleAllocation_spec (podKey : PodKey) (hn : Sound b n)
    (hnumas : ∀ numaId ∈ n.allocatedNumas podKey, numaId ∈ b.numas)
    (hunused : ∀ c, podKey ∉ n.ledger.users c) :
    ∃ m, n.settleAllocation gates o podKey = some m ∧
      Rebooked b n (n.usersAfter podKey (fun c => (b.status c.1 c.2).isSome ∧
        n.Needs podKey c) true) m ∧ Sound b m := by
  apply exists_foldlM_numas hn
  · rintro c ⟨-, hneeds⟩
    obtain ⟨q, hq, -⟩ := hneeds.exists_request
    rw [hq]
    rfl
  · intro U m numaId list hlist hnuma h hm hsame
    have hneeds : m.Needs podKey = n.Needs podKey := by
      funext c
      rw [Needs, h.request, Needs]
    rw [← h.numaAllocation] at hlist
    simp only [← h.accounts.isSome_status, ← hneeds]
    apply settleNumaAllocation_spec hm hlist (hnumas numaId hnuma)
    intro name
    rw [hsame]
    exact hunused _

/-- Setting a CNR books what is recorded for every pod, if the topology has its NUMAs. -/
theorem settleAllocations_spec (gates : FeatureGates) (o : NumaOrders) (hn : Sound b n)
    (hempty : ∀ k c, k ∉ n.ledger.users c)
    (hnumas : ∀ k, ∀ numaId ∈ n.allocatedNumas k, numaId ∈ b.numas) :
    ∃ m, (o.podAllocations.list n.podAllocations.keys).foldlM (settleAllocation gates o) n =
        some m ∧
      Rebooked b n (fun k c => (b.status c.1 c.2).isSome ∧ n.Needs k c) m ∧ Sound b m := by
  set keys := o.podAllocations.list n.podAllocations.keys
  have hnodup : keys.Nodup := o.podAllocations.nodup_list n.podAllocations.keys_nodup
  have hround : ∀ done k rest m, keys = done ++ k :: rest →
      (Rebooked b n (fun k c => k ∈ done ∧ (b.status c.1 c.2).isSome ∧ n.Needs k c) m ∧ Sound b m) →
      ∃ m', m.settleAllocation gates o k = some m' ∧
        Rebooked b n (fun k' c => k' ∈ done ++ [k] ∧ (b.status c.1 c.2).isSome ∧ n.Needs k' c)
          m' ∧ Sound b m' := by
    rintro done k rest m hl ⟨h, hm⟩
    have hnew := notMem_done hl hnodup
    have hneeds : m.Needs = n.Needs := by
      funext k' c
      rw [Needs, h.request, Needs]
    obtain ⟨m', hm', hrebooked, hsound⟩ := settleAllocation_spec k hm
      (by rw [allocatedNumas, h.podAllocations]; exact hnumas k)
      (by simp [h.users, hnew])
    refine ⟨m', hm', (h.trans hrebooked).congr ?_, hsound⟩
    intro k' c
    simp only [usersAfter, h.users, hneeds, mem_append, mem_singleton]
    by_cases heq : k' = k <;> simp [heq, hnew]
  obtain ⟨m, hm, h, hsound⟩ := exists_foldlM_of_step keys
    ⟨hn.toAccounts.rebooked.congr (by simp [hempty]), hn⟩ hround
  refine ⟨m, hm, h.congr fun k c => and_iff_right_of_imp ?_, hsound⟩
  rintro ⟨-, hneeds⟩
  obtain ⟨q, hq, -⟩ := hneeds.exists_request
  by_contra hnot
  rw [o.podAllocations.mem_list, ← AList.mem_keys, ← AList.lookup_eq_none] at hnot
  rw [request_eq_none hnot] at hq
  cases hq

end

end NumaTopologyStatus

end GodelScheduler
