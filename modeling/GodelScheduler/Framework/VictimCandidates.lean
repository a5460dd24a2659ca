import GodelScheduler.Framework.NodeResources
import GodelScheduler.Framework.PodPartition

/-!
# Pods that may be preempted

The queries of the preemption on the pods of a node. The pods of a resource type that
may be preempted are asked for by priority, from the lowest on, and for the sum of their
requests.

Candidates over two adjacent ranges of priorities are those over both ranges, one list
after the other, and taking away a pod at or below a range changes nothing in it.
-/

namespace GodelScheduler

open Library Splay List

section

variable (gates : FeatureGates) (o : ResourceOrders)

/-- The fields the preemption reads. -/
def newPodInfo (pod : Pod) : PodInfo where
  pod := pod
  res := (calculateResource gates o pod).1
  podKey := pod.uid
  podPriority := pod.getPodPriority
  startTime := pod.startTime

end

variable {lower upper : ℤ} {pi : PodInfo} (pods : List PodInfo)

namespace PodInfo

def inOrder : List PodInfo := pods.insertionSort fun a b => compare a b = false

theorem perm_inOrder : (inOrder pods).Perm pods := perm_insertionSort _ _

theorem compare_eq_false {a b : PodInfo} : compare a b = false ↔ rank a ≤ rank b := by
  rw [← not_lt, ← compare_iff, Bool.not_eq_true]

theorem pairwise_inOrder : (inOrder pods).Pairwise fun a b => compare a b = false := by
  have htotal : Std.Total fun a b : PodInfo => compare a b = false :=
    ⟨fun a b => by simpa only [compare_eq_false] using le_total (rank a) (rank b)⟩
  have htrans : IsTrans PodInfo fun a b => compare a b = false :=
    ⟨fun a b c => by simpa only [compare_eq_false] using le_trans⟩
  exact pairwise_insertionSort _ _

theorem sorted_inOrder : (inOrder pods).Pairwise fun a b => a.podPriority ≤ b.podPriority := by
  refine (pairwise_inOrder pods).imp fun {a b} hab => ?_
  have hle := compare_eq_false.mp hab
  rw [rank, rank, Prod.Lex.toLex_le_toLex] at hle
  rcases hle with hlt | ⟨heq, -⟩
  · exact hlt.le
  · exact heq.le

theorem eq_inOrder {sorted pods : List PodInfo} (hperm : sorted.Perm pods)
    (hkeys : ∀ a ∈ pods, ∀ b ∈ pods, a.podKey = b.podKey → a = b)
    (hsorted : sorted.Pairwise fun a b => compare a b = false) : sorted = inOrder pods := by
  refine List.Perm.eq_of_pairwise (fun a b ha hb hab hba => ?_) hsorted (pairwise_inOrder pods)
    (hperm.trans (perm_inOrder pods).symm)
  have hrank := le_antisymm (compare_eq_false.mp hab) (compare_eq_false.mp hba)
  exact hkeys a (hperm.mem_iff.mp ha) b ((perm_inOrder pods).mem_iff.mp hb)
    (congrArg (fun r => (ofLex (ofLex r).2).2) hrank)

def between (lower upper : ℤ) (pi : PodInfo) : Bool :=
  decide (lower < pi.podPriority) && decide (pi.podPriority < upper)

theorem between_iff : between lower upper pi ↔ lower < pi.podPriority ∧ pi.podPriority < upper := by
  simp [between]

theorem filter_between_append {pods : List PodInfo} {lower mid upper : ℤ}
    (hsorted : pods.Pairwise fun a b => a.podPriority ≤ b.podPriority) (hlower : lower ≤ mid)
    (hupper : mid ≤ upper) :
    pods.filter (between lower (upper + 1)) =
      pods.filter (between lower (mid + 1)) ++ pods.filter (between mid (upper + 1)) := by
  induction pods with
  | nil => rfl
  | cons pi pods ih =>
    obtain ⟨hfirst, hrest⟩ := pairwise_cons.mp hsorted
    have ih := ih hrest
    by_cases hmid : pi.podPriority ≤ mid
    · have hright : between mid (upper + 1) pi = false := by
        simp [between, hmid]
      have hleft : between lower (upper + 1) pi = between lower (mid + 1) pi := by
        rw [Bool.eq_iff_iff, between_iff, between_iff]
        omega
      rw [filter_cons, filter_cons, filter_cons, hright, hleft, ih,
        if_neg Bool.false_ne_true]
      split_ifs <;> rfl
    · -- from here on no pod is in the lower range
      have hnone : (pi :: pods).filter (between lower (mid + 1)) = [] := by
        rw [filter_eq_nil_iff]
        intro b hb
        rw [between_iff]
        rcases mem_cons.mp hb with rfl | hb
        · omega
        · have := hfirst b hb
          omega
      rw [hnone, nil_append]
      refine filter_congr fun b hb => ?_
      rw [Bool.eq_iff_iff, between_iff, between_iff]
      rcases mem_cons.mp hb with rfl | hb
      · omega
      · have := hfirst b hb
        omega

end PodInfo

namespace PodInfoMaintainer

open PodInfo

variable (gates : FeatureGates) (o : ResourceOrders)

def podInfos (pods : GoMap String Pod) : List PodInfo :=
  pods.entries.map fun e => newPodInfo gates o e.2

def getVictimCandidates (m : PodInfoMaintainer) (priorityLower priorityUpper : ℤ)
    (resourceType : PodResourceType) : List PodInfo :=
  (inOrder (podInfos gates o (m.mayBePreempted resourceType))).filter
    (between priorityLower priorityUpper)

/-- The CPU and the memory of the pods below a priority. -/
def getMaintainableInfoByPartition (m : PodInfoMaintainer) (priorityUpper : ℤ)
    (resourceType : PodResourceType) : ℤ × ℤ :=
  let pods := (podInfos gates o (m.mayBePreempted resourceType)).filter
    (PodPartitionInfo.compare ⟨priorityUpper⟩)
  (sumMilliCPU pods, sumMemory pods)

variable {gates o} {m : PodInfoMaintainer} {type : PodResourceType}

variable {p : Pod} {k k' : String}

theorem mem_podInfos {pods : GoMap String Pod} :
    pi ∈ podInfos gates o pods ↔ ∃ k p, pods.lookup k = some p ∧ newPodInfo gates o p = pi := by
  simp only [podInfos, mem_map, Sigma.exists]
  exact exists₂_congr fun k p => and_congr_left' AList.mem_lookup_iff.symm

theorem mem_getVictimCandidates :
    pi ∈ m.getVictimCandidates gates o lower upper type ↔
      (∃ k p, (m.mayBePreempted type).lookup k = some p ∧ newPodInfo gates o p = pi) ∧
        lower < pi.podPriority ∧ pi.podPriority < upper := by
  rw [getVictimCandidates, mem_filter, between_iff, (perm_inOrder _).mem_iff, mem_podInfos]

theorem Placed.eq_of_podKey (h : Placed m) (a : PodInfo)
    (ha : a ∈ podInfos gates o (m.mayBePreempted type)) (b : PodInfo)
    (hb : b ∈ podInfos gates o (m.mayBePreempted type)) (hkey : a.podKey = b.podKey) : a = b := by
  obtain ⟨k, p, hp, rfl⟩ := mem_podInfos.mp ha
  obtain ⟨k', p', hp', rfl⟩ := mem_podInfos.mp hb
  have huid : p.uid = p'.uid := hkey
  rw [h.uid_eq (c := some type) hp, h.uid_eq (c := some type) hp'] at huid
  subst huid
  rw [Option.some_inj.mp (hp.symm.trans hp')]

theorem Placed.nodup_podInfos (h : Placed m) :
    (podInfos gates o (m.mayBePreempted type)).Nodup := by
  refine (List.NodupKeys.nodup (m.mayBePreempted type).nodupKeys).map_on fun e he e' he' heq => ?_
  obtain ⟨k, p⟩ := e
  obtain ⟨k', p'⟩ := e'
  obtain rfl : p = p' := congrArg PodInfo.pod heq
  have hk := h.uid_eq (c := some type) (AList.mem_lookup_iff.mpr he)
  have hk' := h.uid_eq (c := some type) (AList.mem_lookup_iff.mpr he')
  rw [← hk, ← hk']

section

theorem getVictimCandidates_append (m : PodInfoMaintainer) {lower mid upper : ℤ}
    (hlower : lower ≤ mid) (hupper : mid ≤ upper) :
    m.getVictimCandidates gates o lower (upper + 1) type =
      m.getVictimCandidates gates o lower (mid + 1) type ++
        m.getVictimCandidates gates o mid (upper + 1) type :=
  filter_between_append (sorted_inOrder _) hlower hupper

theorem sorted_getVictimCandidates (m : PodInfoMaintainer) (lower upper : ℤ) :
    (m.getVictimCandidates gates o lower upper type).Pairwise
      fun a b => a.podPriority ≤ b.podPriority :=
  (sorted_inOrder _).filter _

theorem Placed.nodup_getVictimCandidates (h : Placed m) (lower upper : ℤ) :
    (m.getVictimCandidates gates o lower upper type).Nodup :=
  (((perm_inOrder _).nodup_iff).mpr h.nodup_podInfos).filter _

theorem Placed.getVictimCandidates_congr {m' : PodInfoMaintainer} (h : Placed m) (h' : Placed m')
    (hsame : ∀ k p, lower < p.getPodPriority →
      ((m'.mayBePreempted type).lookup k = some p ↔ (m.mayBePreempted type).lookup k = some p)) :
    m'.getVictimCandidates gates o lower upper type =
      m.getVictimCandidates gates o lower upper type := by
  have hsorted : ∀ pods : List PodInfo,
      ((inOrder pods).filter (between lower upper)).Pairwise fun a b => compare a b = false :=
    fun pods => (pairwise_inOrder pods).filter _
  refine List.Perm.eq_of_pairwise (fun a b ha hb hab hba => ?_) (hsorted _) (hsorted _) ?_
  · have hrank := le_antisymm (compare_eq_false.mp hab) (compare_eq_false.mp hba)
    have hkey : a.podKey = b.podKey := congrArg (fun r => (ofLex (ofLex r).2).2) hrank
    obtain ⟨⟨k, p, hp, rfl⟩, hlower, -⟩ := mem_getVictimCandidates.mp ha
    obtain ⟨⟨k', p', hp', rfl⟩, -⟩ := mem_getVictimCandidates.mp hb
    rw [hsame k p hlower] at hp
    exact h.eq_of_podKey _ (mem_podInfos.mpr ⟨k, p, hp, rfl⟩) _
      (mem_podInfos.mpr ⟨k', p', hp', rfl⟩) hkey
  · refine (perm_ext_iff_of_nodup (h'.nodup_getVictimCandidates lower upper)
      (h.nodup_getVictimCandidates lower upper)).mpr fun pi => ?_
    rw [mem_getVictimCandidates, mem_getVictimCandidates]
    refine and_congr_left fun hrange => exists₂_congr fun k p => and_congr_left ?_
    rintro rfl
    exact hsame k p hrange.1

theorem Placed.getVictimCandidates_removePodInfo (h : Placed m) (hp : m.getPodInfo k = some p)
    (hlow : ∀ q, (m.mayBePreempted type).lookup k = some q → q.getPodPriority ≤ lower) :
    (m.removePodInfo p).getVictimCandidates gates o lower upper type =
      m.getVictimCandidates gates o lower upper type := by
  refine h.getVictimCandidates_congr (h.removePodInfo hp) fun k' q hq => ?_
  by_cases hk : k' = k
  · subst hk
    have hnot : (m.mayBePreempted type).lookup k' ≠ some q := fun hlookup =>
      absurd (hlow q hlookup) (not_le.mpr hq)
    exact iff_of_false
      (fun hlookup => hnot (h.lookup_of_removePodInfo (c := some type) hp hlookup)) hnot
  · exact (congrArg (· = some q) (h.lookup_removePodInfo (c := some type) hp hk)).to_iff

end

section

/-- Each pod is in one container, and a pod that may be preempted is in the one of its type. -/
structure Filed (m : PodInfoMaintainer) : Prop extends Placed m where
  typed : ∀ type k p, (m.mayBePreempted type).lookup k = some p → p.podResourceType = some type
  notNever : ∀ type k, k ∈ m.mayBePreempted type → k ∉ m.neverBePreempted
  apart : ∀ type type' k, k ∈ m.mayBePreempted type → k ∈ m.mayBePreempted type' → type = type'

theorem Filed.same_container (h : Filed m) {c c' : Option PodResourceType} (hk : k ∈ m.container c)
    (hk' : k ∈ m.container c') : c = c' := by
  rcases c, c' with ⟨_ | type, _ | type'⟩
  · rfl
  · exact absurd hk (h.notNever type' k hk')
  · exact absurd hk' (h.notNever type k hk)
  · exact congrArg some (h.apart type type' k hk hk')

/-- No pod is in two containers, and those that may be preempted are in the one of their type. -/
theorem filed_of_placed (h : Placed m)
    (htyped : ∀ type k p, (m.container (some type)).lookup k = some p →
      p.podResourceType = some type)
    (hsame : ∀ c c' k, k ∈ m.container c → k ∈ m.container c' → c = c') : Filed m where
  toPlaced := h
  typed := htyped
  notNever type k hk hnever := nomatch hsame (some type) none k hk hnever
  apart type type' k hk hk' := Option.some_inj.mp (hsame (some type) (some type') k hk hk')

theorem filed_new : Filed new where
  toPlaced := placed_new
  typed type k p h := by cases type <;> cases h
  notNever type k h := by cases type <;> cases h
  apart type type' k h := by cases type <;> cases h

theorem Placed.mem_pods_of_getPodInfo (h : Placed m) (hp : m.getPodInfo k = some p) :
    p ∈ m.pods ∧ p.uid = k := by
  obtain ⟨c, hlookup, -⟩ := h.container_removePodInfo hp
  exact ⟨mem_pods.mpr ⟨c, k, hlookup⟩, h.uid_eq hlookup⟩

theorem Filed.getPodInfo (h : Filed m) {c : Option PodResourceType}
    (hp : (m.container c).lookup k = some p) : m.getPodInfo k = some p := by
  have hmem : k ∈ m.container c := GoMap.mem_iff_lookup.mpr ⟨p, hp⟩
  cases hq : m.getPodInfo k with
  | none => exact absurd hmem (getPodInfo_eq_none_iff.mp hq c)
  | some q =>
    obtain ⟨c', hlookup, -⟩ := h.container_removePodInfo hq
    obtain rfl := h.same_container hmem (GoMap.mem_iff_lookup.mpr ⟨q, hlookup⟩)
    exact hlookup.symm.trans hp

theorem Filed.addPodInfo (h : Filed m) (habsent : m.getPodInfo p.uid = none) :
    Filed (m.addPodInfo p) := by
  have habsent := getPodInfo_eq_none_iff.mp habsent
  have hmem : ∀ c k, k ∈ (m.addPodInfo p).container c →
      c = shelfOf p ∧ k = p.uid ∨ k ∈ m.container c := by
    intro c k hk
    rw [container_addPodInfo] at hk
    split_ifs at hk with hc
    · exact ((AList.mem_insert _).mp hk).imp_left fun heq => ⟨hc, heq⟩
    · exact Or.inr hk
  refine filed_of_placed (h.toPlaced.addPodInfo p) (fun type k q hq => ?_)
    fun c c' k hk hk' => ?_
  · rw [container_addPodInfo] at hq
    split_ifs at hq with hc
    · rw [GoMap.lookup_insert'] at hq
      split_ifs at hq with hkey
      · rw [← Option.some_inj.mp hq]
        exact podResourceType_of_shelfOf hc.symm
      · exact h.typed type k q hq
    · exact h.typed type k q hq
  · rcases hmem c k hk, hmem c' k hk' with ⟨⟨heq, hkey⟩ | hold, ⟨heq', hkey'⟩ | hold'⟩
    · exact heq.trans heq'.symm
    · exact absurd (hkey ▸ hold') (habsent c')
    · exact absurd (hkey' ▸ hold) (habsent c)
    · exact h.same_container hold hold'

theorem Filed.removePodInfo (h : Filed m) (hp : m.getPodInfo k = some p) :
    Filed (m.removePodInfo p) := by
  have hmem : ∀ {c k'}, k' ∈ (m.removePodInfo p).container c → k' ∈ m.container c := by
    intro c k' hk'
    obtain ⟨q, hq⟩ := GoMap.mem_iff_lookup.mp hk'
    exact GoMap.mem_iff_lookup.mpr ⟨q, h.toPlaced.lookup_of_removePodInfo hp hq⟩
  refine filed_of_placed (h.toPlaced.removePodInfo hp) (fun type k' q hq => ?_)
    fun c c' k' hk' hk'' => h.same_container (hmem hk') (hmem hk'')
  exact h.typed type k' q (h.toPlaced.lookup_of_removePodInfo hp hq)

theorem Filed.getPodInfo_uid (h : Filed m) (hp : p ∈ m.pods) : m.getPodInfo p.uid = some p := by
  obtain ⟨c, k, hlookup⟩ := mem_pods.mp hp
  rw [h.uid_eq hlookup]
  exact h.getPodInfo hlookup

theorem Filed.getPodInfo_removePodInfo_self (h : Filed m) (hp : m.getPodInfo k = some p) :
    (m.removePodInfo p).getPodInfo k = none := by
  obtain ⟨c, hlookup, hremove⟩ := h.container_removePodInfo hp
  refine getPodInfo_eq_none_iff.mpr fun c' hk => ?_
  rw [hremove] at hk
  split_ifs at hk with hc
  · exact (AList.mem_erase.mp hk).1 rfl
  · exact hc (h.same_container hk (GoMap.mem_iff_lookup.mpr ⟨p, hlookup⟩))

theorem Filed.mem_pods_removePodInfo (h : Filed m) {p q : Pod} (hp : p ∈ m.pods) :
    q ∈ (m.removePodInfo p).pods ↔ q ∈ m.pods ∧ q ≠ p := by
  have hfound := h.getPodInfo_uid hp
  rw [(h.toPlaced.perm_pods_removePodInfo hfound).mem_iff, mem_cons]
  constructor
  · intro hq
    refine ⟨Or.inr hq, ?_⟩
    rintro rfl
    have hgone := h.getPodInfo_removePodInfo_self hfound
    rw [(h.removePodInfo hfound).getPodInfo_uid hq] at hgone
    cases hgone
  · rintro ⟨rfl | hq, hne⟩
    · exact absurd rfl hne
    · exact hq

end

end PodInfoMaintainer

def cpuPod (uid : String) (priority : ℤ) (cores : ℤ) : Pod :=
  { uid := uid
    ns := "default"
    name := uid
    nodeName := some (nodeNamed "")
    priority := some priority
    containers := [(∅ : ResourceList).insert "cpu" ⟨cores * 1000000000⟩] }

end GodelScheduler
