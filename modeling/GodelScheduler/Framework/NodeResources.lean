import GodelScheduler.Framework.NodeInfo

/-!
# The resources of a node

`NodeInfoImpl` is a node info with the columns of its resources: what is
allocatable and what the pods on the node request, for guaranteed and for
best-effort pods. Adding and removing a pod changes the pods as `NodeInfo` does
and the column of the pod's resource type; a pod of an illegal type is counted as
a guaranteed one.

As long as no pod is added twice, a column is the sum of the requests of the pods
of its type (`Accounted`).
-/

namespace GodelScheduler

open Library Resource List

def defaultMilliCPURequest : ℤ := 100

def defaultMemoryRequest : ℤ := 200 * 1024 * 1024

/-- A missing request is replaced by the default, one for zero is not. -/
def getNonzeroRequests (requests : ResourceList) : ℤ × ℤ :=
  (((requests.lookup "cpu").map Quantity.milliValue).getD defaultMilliCPURequest,
    ((requests.lookup "memory").map Quantity.value).getD defaultMemoryRequest)

section

variable (gates : FeatureGates) (o : ResourceOrders)

/-- The resources of a pod, and its CPU and memory with the defaults for missing requests. -/
def calculateResource (pod : Pod) : Resource × ℤ × ℤ :=
  let s := pod.containers.foldl
    (fun s c =>
      let (non0CPUReq, non0MemReq) := getNonzeroRequests c
      (s.1.add gates o c, s.2.1 + non0CPUReq, s.2.2 + non0MemReq))
    (({} : Resource), 0, 0)
  let s := pod.initContainers.foldl
    (fun s ic =>
      let (non0CPUReq, non0MemReq) := getNonzeroRequests ic
      (s.1.setMaxResource o ic, if s.2.1 < non0CPUReq then non0CPUReq else s.2.1,
        if s.2.2 < non0MemReq then non0MemReq else s.2.2))
    s
  match pod.overhead with
  | none => s
  | some overhead =>
    if gates.podOverhead then
      (s.1.add gates o overhead, s.2.1 + ((overhead.lookup "cpu").map Quantity.milliValue).getD 0,
        s.2.2 + ((overhead.lookup "memory").map Quantity.value).getD 0)
    else s

/-- The sum over the containers, raised to the init containers, with the overhead. -/
def totalRequest (pod : Pod) : Resource :=
  let r := pod.initContainers.foldl (Resource.setMaxResource o)
    (pod.containers.foldl (Resource.add gates o) {})
  match pod.overhead with
  | none => r
  | some overhead => if gates.podOverhead then r.add gates o overhead else r

theorem calculateResource_fst (pod : Pod) :
    (calculateResource gates o pod).1 = totalRequest gates o pod := by
  unfold calculateResource totalRequest
  extract_lets s s' r
  have hr : s'.1 = r := by
    rw [show s'.1 = pod.initContainers.foldl (setMaxResource o) s.1 from
        (foldl_hom Prod.fst fun _ _ => rfl).symm,
      show s.1 = pod.containers.foldl (add gates o) {} from
        (foldl_hom Prod.fst fun _ _ => rfl).symm]
  cases pod.overhead with
  | none => exact hr
  | some overhead =>
    split_ifs
    · rw [hr]
    · exact hr

theorem same_totalRequest (o o' : ResourceOrders) (pod : Pod) :
    (totalRequest gates o pod).Same (totalRequest gates o' pod) := by
  have hempty : Resource.Same {} {} := fun _ => rfl
  have hcontainers := foldl_rel (l := pod.containers) hempty
    fun rl _ r r' (h : r.Same r') => h.add gates o o' rl
  have hinit := foldl_rel (l := pod.initContainers) hcontainers
    fun rl _ r r' (h : r.Same r') => h.setMaxResource o o' rl
  unfold totalRequest
  cases pod.overhead with
  | none => exact hinit
  | some overhead =>
    split_ifs
    · exact hinit.add gates o o' overhead
    · exact hinit

end

structure NodeInfoImpl extends NodeInfo where
  guaranteedRequested : Resource := {}
  guaranteedNonZeroRequested : Resource := {}
  bestEffortRequested : Resource := {}
  bestEffortNonZeroRequested : Resource := {}
  guaranteedAllocatable : Resource := {}
  bestEffortAllocatable : Resource := {}

variable {f : ResourceField}

namespace NodeInfoImpl

variable (gates : FeatureGates) (o : ResourceOrders)

def columnOf (pod : Pod) : PodResourceType := pod.podResourceType.getD .guaranteed

variable (n : NodeInfoImpl)

def requested : PodResourceType → Resource
  | .guaranteed => n.guaranteedRequested
  | .bestEffort => n.bestEffortRequested

def allocatable : PodResourceType → Resource
  | .guaranteed => n.guaranteedAllocatable
  | .bestEffort => n.bestEffortAllocatable

/-- Add the resources of a pod to those requested, or take them away. -/
def updateRequested (requested : Resource) (sign : ℤ) (res : Resource) : Resource :=
  (o.scalars.list res.scalarResources.entries).foldl
    (fun r e => r.addScalar e.1 (sign * e.2))
    { requested with
      milliCPU := requested.milliCPU + sign * res.milliCPU
      memory := requested.memory + sign * res.memory
      ephemeralStorage := requested.ephemeralStorage + sign * res.ephemeralStorage }

def updateNonZero (r : Resource) (sign non0CPU non0Mem : ℤ) : Resource :=
  { r with milliCPU := r.milliCPU + sign * non0CPU, memory := r.memory + sign * non0Mem }

def update (pod : Pod) (sign : ℤ) : NodeInfoImpl :=
  let (res, non0CPU, non0Mem) := calculateResource gates o pod
  match pod.podResourceType with
  | some .bestEffort =>
    { n with
      bestEffortRequested := updateRequested o n.bestEffortRequested sign res
      bestEffortNonZeroRequested :=
        updateNonZero n.bestEffortNonZeroRequested sign non0CPU non0Mem }
  | some .guaranteed | none =>
    { n with
      guaranteedRequested := updateRequested o n.guaranteedRequested sign res
      guaranteedNonZeroRequested :=
        updateNonZero n.guaranteedNonZeroRequested sign non0CPU non0Mem }

def addPod (pod : Pod) : NodeInfoImpl :=
  ({ n with podInfoMaintainer := n.podInfoMaintainer.addPodInfo pod } : NodeInfoImpl).update
    gates o pod 1

/-- The stored pod of the same UID is removed and its resources are taken away. -/
def removePod (pod : Pod) : Except String NodeInfoImpl :=
  match pod.getPodKey with
  | .error e => .error e
  | .ok k =>
    match n.podInfoMaintainer.getPodInfo k with
    | some p =>
      .ok (({ n with podInfoMaintainer := n.podInfoMaintainer.removePodInfo p } :
        NodeInfoImpl).update gates o p (-1))
    | none =>
      .error ("no corresponding pod " ++ pod.name ++ " in pods of node " ++
        ((n.getNodeName.map NodeName.val).getD ""))

variable (n : NodeInfoImpl) (pod : Pod)

@[simp] theorem toNodeInfo_update (sign : ℤ) :
    (n.update gates o pod sign).toNodeInfo = n.toNodeInfo := by
  unfold update
  rcases pod.podResourceType with _ | _ | _ <;> rfl

theorem toNodeInfo_addPod : (n.addPod gates o pod).toNodeInfo = n.toNodeInfo.addPod pod :=
  toNodeInfo_update gates o _ pod 1

section

variable {gates o}

variable (n : NodeInfoImpl) (pod : Pod) (sign : ℤ) (type : PodResourceType)

theorem requested_update :
    (n.update gates o pod sign).requested type =
      if type = columnOf pod then
        updateRequested o (n.requested type) sign (totalRequest gates o pod)
      else n.requested type := by
  rw [← calculateResource_fst]
  unfold update columnOf
  rcases pod.podResourceType with _ | _ | _ <;> cases type <;> rfl

theorem allocatable_update : (n.update gates o pod sign).allocatable type = n.allocatable type := by
  unfold update
  rcases pod.podResourceType with _ | _ | _ <;> cases type <;> rfl

theorem writesField_addScalar (sign : ℤ) :
    WritesField Resource.view (fun name => some (ResourceField.scalar name))
      (fun _ q v => some (v.getD 0 + sign * q)) (fun r e => r.addScalar e.1 (sign * e.2)) where
  view_step r e f := by
    split_ifs with hfield
    · cases hfield
      exact r.view_set_self (.scalar e.1) _
    · exact r.view_set_of_ne (fun heq => hfield (congrArg some heq)) _
  field_inj name name' f h h' := by
    cases h
    cases h'
    rfl

theorem amount_updateRequested (r res : Resource) (sign : ℤ) (hf : f ≠ .allowedPodNumber) :
    (updateRequested o r sign res).amount f = r.amount f + sign * res.amount f := by
  have hkeep : (∀ name, f ≠ .scalar name) → (updateRequested o r sign res).view f =
      ({ r with
        milliCPU := r.milliCPU + sign * res.milliCPU
        memory := r.memory + sign * res.memory
        ephemeralStorage := r.ephemeralStorage + sign * res.ephemeralStorage } : Resource).view f
      := by
    intro hne
    apply (writesField_addScalar sign).view_foldl_of_ne
    exact fun e _ he => hne e.1 (Option.some_inj.mp he).symm
  cases f with
  | allowedPodNumber => exact absurd rfl hf
  | scalar name =>
    have hview : (updateRequested o r sign res).view (.scalar name) =
        ((res.scalarResources.lookup name).map fun q =>
          some ((r.view (.scalar name)).getD 0 + sign * q)).getD (r.view (.scalar name)) :=
      (writesField_addScalar sign).view_range _ _ rfl _
    simp only [amount, hview]
    cases hlookup : res.scalarResources.lookup name <;> simp [view, hlookup]
  | milliCPU => simp only [amount, hkeep (by simp)]; rfl
  | memory => simp only [amount, hkeep (by simp)]; rfl
  | ephemeralStorage => simp only [amount, hkeep (by simp)]; rfl

theorem amount_requested_update (hf : f ≠ .allowedPodNumber) :
    ((n.update gates o pod sign).requested type).amount f =
      (n.requested type).amount f +
        if columnOf pod = type then sign * (totalRequest gates o pod).amount f else 0 := by
  rw [requested_update]
  by_cases htype : type = columnOf pod
  · rw [if_pos htype, if_pos htype.symm, amount_updateRequested _ _ _ hf]
  · rw [if_neg htype, if_neg (fun h => htype h.symm), add_zero]

end

end NodeInfoImpl

section Accounting

namespace PodInfoMaintainer

def pods (m : PodInfoMaintainer) : List Pod :=
  (m.bePodsMayBePreempted.entries ++ m.gtPodsMayBePreempted.entries ++
    m.neverBePreempted.entries).map Sigma.snd

/-- Every pod is stored under its UID, in a container of its type, so that it is found again when
it is removed. -/
structure Placed (m : PodInfoMaintainer) : Prop where
  never : ∀ k p, m.neverBePreempted.lookup k = some p → p.uid = k
  gt : ∀ k p, m.gtPodsMayBePreempted.lookup k = some p →
    p.uid = k ∧ p.podResourceType = some .guaranteed
  be : ∀ k p, m.bePodsMayBePreempted.lookup k = some p →
    p.uid = k ∧ p.podResourceType ≠ some .guaranteed

/-- Where the pods of a type that may be preempted are kept. -/
def mayBePreempted (m : PodInfoMaintainer) : PodResourceType → GoMap String Pod
  | .guaranteed => m.gtPodsMayBePreempted
  | .bestEffort => m.bePodsMayBePreempted

/-- A container, `none` for that of the pods that are never preempted. -/
def container (m : PodInfoMaintainer) : Option PodResourceType → GoMap String Pod
  | none => m.neverBePreempted
  | some type => m.mayBePreempted type

/-- The container of a pod: the one of its type, `none` for the pods that are never preempted. -/
def shelfOf (p : Pod) : Option PodResourceType :=
  if passesPodFilters p then p.podResourceType else none

variable {m m' : PodInfoMaintainer} {p : Pod} {k : String} {c : Option PodResourceType}

theorem placed_iff : Placed m ↔ ∀ c k p, (m.container c).lookup k = some p → p.uid = k ∧
    ∀ type, c = some type → (p.podResourceType = some .guaranteed ↔ type = .guaranteed) := by
  constructor
  · rintro h (_ | _ | _) k p hp
    · exact ⟨h.never k p hp, nofun⟩
    · refine ⟨(h.gt k p hp).1, ?_⟩
      rintro _ ⟨⟩
      exact iff_of_true (h.gt k p hp).2 rfl
    · refine ⟨(h.be k p hp).1, ?_⟩
      rintro _ ⟨⟩
      exact iff_of_false (h.be k p hp).2 nofun
  · intro h
    refine ⟨fun k p hp => (h none k p hp).1, fun k p hp => ?_, fun k p hp => ?_⟩
    · obtain ⟨huid, htype⟩ := h (some .guaranteed) k p hp
      exact ⟨huid, (htype _ rfl).mpr rfl⟩
    · obtain ⟨huid, htype⟩ := h (some .bestEffort) k p hp
      exact ⟨huid, fun hgt => nomatch (htype _ rfl).mp hgt⟩

theorem Placed.uid_eq (h : Placed m) (hp : (m.container c).lookup k = some p) : p.uid = k :=
  (placed_iff.mp h c k p hp).1

theorem placed_new : Placed new := by
  rw [placed_iff]
  rintro (_ | _ | _) k p h <;> cases h

theorem getPodInfo_eq_none_iff : m.getPodInfo k = none ↔ ∀ c, k ∉ m.container c := by
  unfold getPodInfo
  simp only [← AList.lookup_eq_none]
  constructor
  · intro h
    split at h
    · cases h
    split at h
    · cases h
    · rintro (_ | _ | _) <;> assumption
  · intro h
    have hnever : m.neverBePreempted.lookup k = none := h none
    have hgt : m.gtPodsMayBePreempted.lookup k = none := h (some .guaranteed)
    rw [hnever, hgt]
    exact h (some .bestEffort)

theorem getPodInfo_congr (h : ∀ c, (m.container c).lookup k = (m'.container c).lookup k) :
    m.getPodInfo k = m'.getPodInfo k := by
  have hnever : m.neverBePreempted.lookup k = _ := h none
  have hgt : m.gtPodsMayBePreempted.lookup k = _ := h (some .guaranteed)
  have hbe : m.bePodsMayBePreempted.lookup k = _ := h (some .bestEffort)
  unfold getPodInfo
  rw [hnever, hgt, hbe]
  rfl

theorem mem_pods : p ∈ m.pods ↔ ∃ c k, (m.container c).lookup k = some p := by
  unfold pods
  simp only [mem_map, mem_append, Sigma.exists, AList.mem_lookup_iff.symm,
    Option.mem_def, or_assoc]
  constructor
  · rintro ⟨k, q, hbe | hgt | hnever, rfl⟩
    · exact ⟨some .bestEffort, k, hbe⟩
    · exact ⟨some .guaranteed, k, hgt⟩
    · exact ⟨none, k, hnever⟩
  · rintro ⟨_ | _ | _, k, h⟩
    · exact ⟨k, p, .inr (.inr h), rfl⟩
    · exact ⟨k, p, .inr (.inl h), rfl⟩
    · exact ⟨k, p, .inl h, rfl⟩

theorem perm_pods (hc : (m'.container c).entries.Perm (⟨k, p⟩ :: (m.container c).entries))
    (hne : ∀ c', c' ≠ c → m'.container c' = m.container c') : m'.pods.Perm (p :: m.pods) := by
  have hpods : ∀ m : PodInfoMaintainer, m.pods = ((m.container (some .bestEffort)).entries ++
    (m.container (some .guaranteed)).entries ++ (m.container none).entries).map Sigma.snd :=
    fun _ => rfl
  rw [hpods, hpods]
  rcases c with _ | _ | _
  · rw [hne (some .bestEffort) nofun, hne (some .guaranteed) nofun]
    exact ((hc.append_left _).trans perm_middle).map Sigma.snd
  · rw [hne (some .bestEffort) nofun, hne none nofun]
    exact (((hc.append_left _).trans perm_middle).append_right _).map Sigma.snd
  · rw [hne (some .guaranteed) nofun, hne none nofun]
    exact ((hc.append_right _).append_right _).map Sigma.snd

theorem podResourceType_of_shelfOf {type : PodResourceType} (h : shelfOf p = some type) :
    p.podResourceType = some type := by
  unfold shelfOf at h
  split_ifs at h
  exact h

theorem container_addPodInfo (m : PodInfoMaintainer) (p : Pod) (c : Option PodResourceType) :
    (m.addPodInfo p).container c =
      if c = shelfOf p then (m.container c).insert p.uid p else m.container c := by
  unfold addPodInfo shelfOf
  extract_lets m₁ m₂
  have hsame : m₂.container c = m.container c := by
    simp only [m₂, m₁]
    split_ifs <;> rfl
  rw [← hsame]
  by_cases hfilter : passesPodFilters p
  · rw [if_neg (by simp [hfilter]), if_pos hfilter]
    rcases htype : p.podResourceType with _ | _ | _
    · simp [passesPodFilters, htype] at hfilter
    · rcases c with _ | _ | _ <;> rfl
    · rcases c with _ | _ | _ <;> rfl
  · rw [if_pos (by simp [hfilter]), if_neg hfilter]
    rcases c with _ | _ | _ <;> rfl

theorem perm_pods_addPodInfo (habsent : m.getPodInfo p.uid = none) :
    (m.addPodInfo p).pods.Perm (p :: m.pods) := by
  refine perm_pods (k := p.uid) (c := shelfOf p) ?_ fun c hc => ?_
  · rw [container_addPodInfo, if_pos rfl,
      AList.entries_insert_of_notMem (getPodInfo_eq_none_iff.mp habsent _)]
  · rw [container_addPodInfo, if_neg hc]

theorem Placed.addPodInfo (h : Placed m) (p : Pod) : Placed (m.addPodInfo p) := by
  rw [placed_iff] at h ⊢
  intro c k q hq
  rw [container_addPodInfo] at hq
  split_ifs at hq with hc
  · rw [GoMap.lookup_insert'] at hq
    split_ifs at hq with hk
    · cases hq
      refine ⟨hk.symm, fun type htype => ?_⟩
      rw [podResourceType_of_shelfOf (hc.symm.trans htype), Option.some_inj]
    · exact h c k q hq
  · exact h c k q hq

section

variable (h : Placed m) (hp : m.getPodInfo k = some p)

include h hp

theorem Placed.container_removePodInfo :
    ∃ c, (m.container c).lookup k = some p ∧ ∀ c', (m.removePodInfo p).container c' =
      if c' = c then (m.container c').erase k else m.container c' := by
  unfold removePodInfo
  extract_lets m₁ m₂
  have hsame : ∀ c, m₂.container c = m.container c := by
    intro c
    simp only [m₂, m₁]
    split_ifs <;> rfl
  rw [placed_iff] at h
  simp only [← hsame] at h ⊢
  rw [getPodInfo_congr fun c => congrArg (AList.lookup k) (hsame c).symm, getPodInfo] at hp
  clear_value m₂
  have h := placed_iff.mpr h
  cases hlookup : m₂.neverBePreempted.lookup k with
  | some q =>
    rw [hlookup] at hp
    cases hp
    obtain rfl := h.never k p hlookup
    rw [if_pos (GoMap.mem_iff_lookup.mpr ⟨p, hlookup⟩)]
    exact ⟨none, hlookup, by rintro (_ | _ | _) <;> rfl⟩
  | none =>
    rw [hlookup] at hp
    have hnot : k ∉ m₂.neverBePreempted := AList.lookup_eq_none.mp hlookup
    cases hlookup' : m₂.gtPodsMayBePreempted.lookup k with
    | some q =>
      rw [hlookup'] at hp
      cases hp
      obtain ⟨rfl, htype⟩ := h.gt k p hlookup'
      rw [if_neg hnot, if_pos htype]
      exact ⟨some .guaranteed, hlookup', by rintro (_ | _ | _) <;> rfl⟩
    | none =>
      rw [hlookup'] at hp
      obtain ⟨rfl, htype⟩ := h.be k p hp
      rw [if_neg hnot, if_neg htype]
      exact ⟨some .bestEffort, hp, by rintro (_ | _ | _) <;> rfl⟩

theorem Placed.perm_pods_removePodInfo : m.pods.Perm (p :: (m.removePodInfo p).pods) := by
  obtain ⟨c, hlookup, hremove⟩ := h.container_removePodInfo hp
  refine perm_pods (k := k) ?_ fun c' hc' => by rw [hremove, if_neg hc']
  rw [hremove, if_pos rfl]
  exact GoMap.perm_entries_erase hlookup

theorem Placed.lookup_removePodInfo {k' : String} (hne : k' ≠ k) :
    ((m.removePodInfo p).container c).lookup k' = (m.container c).lookup k' := by
  obtain ⟨c', -, hremove⟩ := h.container_removePodInfo hp
  rw [hremove]
  split_ifs
  · exact AList.lookup_erase_ne hne
  · rfl

theorem Placed.lookup_of_removePodInfo {k' : String} {q : Pod}
    (hq : ((m.removePodInfo p).container c).lookup k' = some q) :
    (m.container c).lookup k' = some q := by
  obtain ⟨c', -, hremove⟩ := h.container_removePodInfo hp
  rw [hremove] at hq
  split_ifs at hq
  · rw [GoMap.lookup_erase'] at hq
    split_ifs at hq
    exact hq
  · exact hq

theorem Placed.removePodInfo : Placed (m.removePodInfo p) :=
  placed_iff.mpr fun c k' q hq => placed_iff.mp h c k' q (h.lookup_of_removePodInfo hp hq)

end

end PodInfoMaintainer

namespace NodeInfoImpl

variable (gates : FeatureGates) (o : ResourceOrders)

def pods (n : NodeInfoImpl) : List Pod := n.podInfoMaintainer.pods

variable {n m : NodeInfoImpl} {pod : Pod}

theorem removePod_ok (hm : n.removePod gates o pod = .ok m) :
    pod.uid ≠ "" ∧ ∃ p, n.podInfoMaintainer.getPodInfo pod.uid = some p ∧
      m = ({ n with podInfoMaintainer := n.podInfoMaintainer.removePodInfo p } :
        NodeInfoImpl).update gates o p (-1) := by
  unfold removePod Pod.getPodKey at hm
  by_cases huid : pod.uid = ""
  · rw [if_pos huid] at hm
    cases hm
  · rw [if_neg huid] at hm
    simp only at hm
    cases hp : n.podInfoMaintainer.getPodInfo pod.uid with
    | none =>
      rw [hp] at hm
      cases hm
    | some p =>
      rw [hp] at hm
      exact ⟨huid, p, rfl, (Except.ok.inj hm).symm⟩

theorem placed_removePod (h : n.podInfoMaintainer.Placed) (hm : n.removePod gates o pod = .ok m) :
    m.podInfoMaintainer.Placed := by
  obtain ⟨-, p, hp, rfl⟩ := removePod_ok gates o hm
  rw [toNodeInfo_update]
  exact h.removePodInfo hp

/-- A number read off a node that a pod changes by an amount of its own. -/
structure Tally (total : NodeInfoImpl → ℤ) (amount : Pod → ℤ) : Prop where
  update : ∀ o n pod sign, total (n.update gates o pod sign) = total n + sign * amount pod
  keeps : ∀ (n : NodeInfoImpl) m, total { n with podInfoMaintainer := m } = total n

section

variable {gates o} {n : NodeInfoImpl} {total : NodeInfoImpl → ℤ} {amount : Pod → ℤ}

variable (h : Tally gates total amount)

include h

theorem Tally.total_addPod : total (n.addPod gates o pod) = total n + amount pod := by
  rw [NodeInfoImpl.addPod, h.update, h.keeps, one_mul]

theorem Tally.addPod (habsent : n.podInfoMaintainer.getPodInfo pod.uid = none)
    (hsum : total n = (n.pods.map amount).sum) :
    total (n.addPod gates o pod) = ((n.addPod gates o pod).pods.map amount).sum := by
  have hperm : (n.addPod gates o pod).pods.Perm (pod :: n.pods) := by
    unfold pods
    rw [toNodeInfo_addPod]
    exact PodInfoMaintainer.perm_pods_addPodInfo habsent
  rw [(hperm.map amount).sum_eq, map_cons, sum_cons, ← hsum, h.total_addPod, add_comm]

theorem Tally.removePod {m : NodeInfoImpl} (hplaced : n.podInfoMaintainer.Placed)
    (hsum : total n = (n.pods.map amount).sum) (hm : n.removePod gates o pod = .ok m) :
    total m = (m.pods.map amount).sum := by
  obtain ⟨-, p, hp, rfl⟩ := removePod_ok gates o hm
  have hperm := hplaced.perm_pods_removePodInfo hp
  rw [pods, (hperm.map amount).sum_eq, map_cons, sum_cons] at hsum
  rw [h.update, h.keeps, hsum, pods, toNodeInfo_update]
  ring

end

theorem tally_requested (type : PodResourceType) (hf : f ≠ .allowedPodNumber) :
    Tally gates (fun n => (n.requested type).amount f)
      (fun pod => if columnOf pod = type then (totalRequest gates o pod).amount f else 0) where
  update o' n pod sign := by
    rw [amount_requested_update _ _ _ _ hf, (same_totalRequest gates o' o pod).amount, mul_ite,
      mul_zero]
  keeps n m := by
    cases type <;> rfl

def sumRequests (type : PodResourceType) (f : ResourceField) (pods : List Pod) : ℤ :=
  (pods.map fun pod => if columnOf pod = type then (totalRequest gates o pod).amount f else 0).sum

/-- Each column is the sum over the pods of its type. -/
structure Accounted (n : NodeInfoImpl) : Prop where
  placed : n.podInfoMaintainer.Placed
  sum : ∀ type f, f ≠ .allowedPodNumber →
    (n.requested type).amount f = sumRequests gates o type f n.pods

variable {gates o}

theorem sumRequests_cons (type : PodResourceType) (f : ResourceField) (pod : Pod)
    (pods : List Pod) :
    sumRequests gates o type f (pod :: pods) =
      (if columnOf pod = type then (totalRequest gates o pod).amount f else 0) +
        sumRequests gates o type f pods := rfl

theorem sumRequests_perm {pods pods' : List Pod} (h : pods.Perm pods') (type : PodResourceType)
    (f : ResourceField) : sumRequests gates o type f pods = sumRequests gates o type f pods' :=
  (h.map _).sum_eq

theorem accounted_new (gtAllocatable beAllocatable : Resource) :
    Accounted gates o
      { NodeInfo.new with
        guaranteedAllocatable := gtAllocatable
        bestEffortAllocatable := beAllocatable } where
  placed := PodInfoMaintainer.placed_new
  sum type f _ := by
    cases type <;> cases f <;> rfl

theorem Accounted.addPod (h : Accounted gates o n)
    (habsent : n.podInfoMaintainer.getPodInfo pod.uid = none) :
    Accounted gates o (n.addPod gates o pod) := by
  constructor
  · rw [toNodeInfo_addPod]
    exact h.placed.addPodInfo pod
  · intro type f hf
    exact (tally_requested gates o type hf).addPod habsent (h.sum type f hf)

theorem Accounted.removePod (h : Accounted gates o n) (hm : n.removePod gates o pod = .ok m) :
    Accounted gates o m := by
  constructor
  · exact placed_removePod gates o h.placed hm
  · intro type f hf
    exact (tally_requested gates o type hf).removePod h.placed (h.sum type f hf) hm

section

variable (gates o)

def addPods (n : NodeInfoImpl) (pods : List Pod) : NodeInfoImpl :=
  pods.foldl (fun n pod => n.addPod gates o pod) n

def removePods (describe : Pod → String → String) : List Pod → NodeInfoImpl →
    Except String NodeInfoImpl
  | [], n => .ok n
  | pod :: rest, n =>
    match n.removePod gates o pod with
    | .error err => .error (describe pod err)
    | .ok n => removePods describe rest n

/-- What the stored pod of a UID requests. -/
def storedAmount (n : NodeInfoImpl) (type : PodResourceType) (f : ResourceField)
    (uid : String) : ℤ :=
  match n.podInfoMaintainer.getPodInfo uid with
  | none => 0
  | some p => if columnOf p = type then (totalRequest gates o p).amount f else 0

variable {gates o}

theorem amount_addPod (n : NodeInfoImpl) (pod : Pod) (type : PodResourceType)
    (hf : f ≠ .allowedPodNumber) :
    ((n.addPod gates o pod).requested type).amount f =
      (n.requested type).amount f +
        if columnOf pod = type then (totalRequest gates o pod).amount f else 0 :=
  (tally_requested gates o type hf).total_addPod

theorem amount_addPods (n : NodeInfoImpl) (pods : List Pod) (type : PodResourceType)
    (hf : f ≠ .allowedPodNumber) :
    ((n.addPods gates o pods).requested type).amount f =
      (n.requested type).amount f + sumRequests gates o type f pods := by
  induction pods generalizing n with
  | nil => exact (add_zero _).symm
  | cons pod pods ih =>
    refine (ih (n.addPod gates o pod)).trans ?_
    rw [amount_addPod n pod type hf, sumRequests_cons, add_assoc]

/-- What the removal of a pod does, in terms of the node before. -/
structure Removes (gates : FeatureGates) (o : ResourceOrders) (uids : List String)
    (n m : NodeInfoImpl) : Prop where
  placed : m.podInfoMaintainer.Placed
  present : ∀ uid ∈ uids, uid ≠ "" ∧ (n.podInfoMaintainer.getPodInfo uid).isSome
  others : ∀ uid, uid ∉ uids → m.podInfoMaintainer.getPodInfo uid =
    n.podInfoMaintainer.getPodInfo uid
  allocatable : ∀ type, m.allocatable type = n.allocatable type
  amount : ∀ type f, f ≠ .allowedPodNumber → (m.requested type).amount f =
    (n.requested type).amount f - (uids.map (n.storedAmount gates o type f)).sum

theorem removes_removePod (h : n.podInfoMaintainer.Placed) (hm : n.removePod gates o pod = .ok m) :
    Removes gates o [pod.uid] n m := by
  obtain ⟨huid, p, hp, rfl⟩ := removePod_ok gates o hm
  constructor
  · exact placed_removePod gates o h hm
  · intro uid hmem
    rw [mem_singleton.mp hmem, hp]
    exact ⟨huid, rfl⟩
  · intro uid hmem
    rw [toNodeInfo_update]
    refine PodInfoMaintainer.getPodInfo_congr fun c => h.lookup_removePodInfo hp fun heq => ?_
    exact hmem (mem_singleton.mpr heq)
  · intro type
    rw [allocatable_update]
    cases type <;> rfl
  · intro type f hf
    rw [amount_requested_update _ _ _ _ hf, (tally_requested gates o type hf).keeps,
      map_singleton, sum_singleton,
      storedAmount, hp]
    simp only
    split_ifs <;> ring

variable (gates o) in
theorem exists_removePod (huid : pod.uid ≠ "")
    (hp : (n.podInfoMaintainer.getPodInfo pod.uid).isSome) :
    ∃ m, n.removePod gates o pod = .ok m := by
  obtain ⟨p, hp⟩ := Option.isSome_iff_exists.mp hp
  unfold removePod Pod.getPodKey
  rw [if_neg huid]
  simp only [hp]
  exact ⟨_, rfl⟩

theorem Removes.cons {n m l : NodeInfoImpl} {uid : String} {uids : List String}
    (h : Removes gates o [uid] n m) (h' : Removes gates o uids m l) (hnot : uid ∉ uids) :
    Removes gates o (uid :: uids) n l := by
  have hother : ∀ uid' ∈ uids, m.podInfoMaintainer.getPodInfo uid' =
      n.podInfoMaintainer.getPodInfo uid' := by
    intro uid' hmem
    apply h.others
    rw [mem_singleton]
    rintro rfl
    exact hnot hmem
  constructor
  · exact h'.placed
  · intro uid' hmem
    rcases mem_cons.mp hmem with rfl | hmem
    · exact h.present _ (mem_singleton_self _)
    · rw [← hother uid' hmem]
      exact h'.present uid' hmem
  · intro uid' hmem
    rw [mem_cons, not_or] at hmem
    rw [h'.others uid' hmem.2, h.others uid' (by rw [mem_singleton]; exact hmem.1)]
  · intro type
    rw [h'.allocatable, h.allocatable]
  · intro type f hf
    have hsum : uids.map (m.storedAmount gates o type f) =
        uids.map (n.storedAmount gates o type f) := by
      apply map_congr_left
      intro uid' hmem
      unfold storedAmount
      rw [hother uid' hmem]
    rw [h'.amount type f hf, h.amount type f hf, hsum, map_singleton, sum_singleton,
      map_cons, sum_cons]
    ring

variable {describe : Pod → String → String}

theorem removes_removePods {pods : List Pod} (h : n.podInfoMaintainer.Placed)
    (hnd : (pods.map Pod.uid).Nodup) (hm : removePods gates o describe pods n = .ok m) :
    Removes gates o (pods.map Pod.uid) n m := by
  induction pods generalizing n with
  | nil =>
    cases hm
    exact ⟨h, fun _ hmem => (by cases hmem), fun _ _ => rfl, fun _ => rfl, fun _ _ _ => by simp⟩
  | cons pod pods ih =>
    rw [map_cons, nodup_cons] at hnd
    unfold removePods at hm
    cases hone : n.removePod gates o pod with
    | error err =>
      rw [hone] at hm
      cases hm
    | ok n' =>
      rw [hone] at hm
      have hremoves := removes_removePod h hone
      exact hremoves.cons (ih hremoves.placed hnd.2 hm) hnd.1

variable (gates o describe) in
theorem exists_removePods {pods : List Pod} (h : n.podInfoMaintainer.Placed)
    (hnd : (pods.map Pod.uid).Nodup)
    (hpresent : ∀ uid ∈ pods.map Pod.uid, uid ≠ "" ∧ (n.podInfoMaintainer.getPodInfo uid).isSome) :
    ∃ m, removePods gates o describe pods n = .ok m := by
  induction pods generalizing n with
  | nil => exact ⟨n, rfl⟩
  | cons pod pods ih =>
    rw [map_cons, nodup_cons] at hnd
    obtain ⟨huid, hp⟩ := hpresent pod.uid mem_cons_self
    obtain ⟨n', hone⟩ := exists_removePod gates o huid hp
    have hremoves := removes_removePod h hone
    obtain ⟨m, hm⟩ := ih hremoves.placed hnd.2 fun uid hmem => by
      rw [hremoves.others uid]
      · exact hpresent uid (mem_cons_of_mem _ hmem)
      · rw [mem_singleton]
        rintro rfl
        exact hnd.1 hmem
    refine ⟨m, ?_⟩
    unfold removePods
    rw [hone]
    exact hm

end

variable (gates o) in
/-- The nodes reached from one without pods by adding pods that are not there and removing pods. -/
inductive Reached : NodeInfoImpl → Prop
  | new (gtAllocatable beAllocatable : Resource) :
    Reached
      { NodeInfo.new with
        guaranteedAllocatable := gtAllocatable
        bestEffortAllocatable := beAllocatable }
  | addPod {n : NodeInfoImpl} (pod : Pod) : Reached n →
    n.podInfoMaintainer.getPodInfo pod.uid = none → Reached (n.addPod gates o pod)
  | removePod {n m : NodeInfoImpl} (pod : Pod) : Reached n →
    n.removePod gates o pod = .ok m → Reached m

theorem Reached.accounted (h : Reached gates o n) : Accounted gates o n := by
  induction h with
  | new gtAllocatable beAllocatable => exact accounted_new gtAllocatable beAllocatable
  | addPod pod _ habsent ih => exact ih.addPod habsent
  | removePod pod _ hm ih => exact ih.removePod hm

end NodeInfoImpl

end Accounting

end GodelScheduler
