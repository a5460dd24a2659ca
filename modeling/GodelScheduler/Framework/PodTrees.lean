import GodelScheduler.Framework.VictimCandidates

/-!
# The pods of a node in splay trees

The pods that may be preempted are kept in a splay tree for each resource type and counted by
their priorities. `Refines` relates the trees to the finite maps of `PodInfoMaintainer`: a tree
is in order, with correct sums, and has the pods of the map. Every operation goes through and
keeps the relation, so that over whole runs the trees answer every query as the maps do.
-/

namespace GodelScheduler

open Library Splay PodInfo PodInfoMaintainer

section

variable (gates : FeatureGates) (o : ResourceOrders)

/-- The pods of one resource type that may be preempted. -/
structure PodTree where
  pods : Splay PodInfo PodMaintainableInfo := newSplay
  /-- How many of the pods have a priority. -/
  priorities : GoMap ℤ ℤ := ∅
  /-- Only set when the pods are cloned. -/
  prioritiesSlice : List ℤ := []

variable (tree : PodTree)

namespace PodTree

def insert (p : PodInfo) : Option PodTree := do
  let (pods, _) ← tree.pods.insert p
  let count := (tree.priorities.lookup p.podPriority).getD 0 + 1
  return { tree with pods, priorities := tree.priorities.insert p.podPriority count }

def delete (p : PodInfo) : Option PodTree := do
  let (pods, _) ← tree.pods.delete p.podKey
  let count := (tree.priorities.lookup p.podPriority).getD 0 - 1
  return { tree with
    pods
    priorities :=
      if count ≤ 0 then tree.priorities.erase p.podPriority
      else tree.priorities.insert p.podPriority count }

def clone (order : RangeOrder ℤ) : Option PodTree := do
  let pods ← tree.pods.clone
  return { tree with pods, prioritiesSlice := order.list tree.priorities.keys }

/-- How many pods have a priority, if any has. -/
def counted (pods : List PodInfo) (n : ℤ) : Option ℤ :=
  match pods.countP (·.podPriority = n) with
  | 0 => none
  | count + 1 => some (count + 1)

variable {pods : List PodInfo} {pi : PodInfo} {n : ℤ}

theorem counted_cons : counted (pi :: pods) n =
    if n = pi.podPriority then some ((counted pods n).getD 0 + 1) else counted pods n := by
  unfold counted
  by_cases hn : pi.podPriority = n
  · rw [List.countP_cons_of_pos (by simpa using hn), if_pos hn.symm]
    cases pods.countP (·.podPriority = n) <;> simp
  · rw [List.countP_cons_of_neg (by simpa using hn), if_neg (Ne.symm hn)]

theorem counted_eq_ite : counted pods n =
    if (counted pods n).getD 0 ≤ 0 then none else some ((counted pods n).getD 0) := by
  unfold counted
  cases pods.countP (·.podPriority = n) with
  | zero => rfl
  | succ count => exact (if_neg (by simp)).symm

theorem isSome_counted_iff : (counted pods n).isSome ↔ ∃ pi ∈ pods, pi.podPriority = n := by
  have hpos : 0 < pods.countP (·.podPriority = n) ↔ ∃ pi ∈ pods, pi.podPriority = n := by
    simp [List.countP_pos_iff]
  rw [← hpos, counted]
  cases pods.countP (·.podPriority = n) <;> simp

/-- The tree has these pods, and the counts of their priorities. -/
structure Stores (pods : GoMap String Pod) : Prop where
  splay : ∃ t, IsSplay requests tree.pods t
  keeps : ∀ k, tree.pods.contents k = (pods.lookup k).map (newPodInfo gates o)
  counts : ∀ n, tree.priorities.lookup n = counted (podInfos gates o pods) n

variable {gates o tree} {pods : GoMap String Pod} {p : Pod} {t : SlotTree}

theorem Stores.insert (h : tree.Stores gates o pods) (hnew : p.uid ∉ pods) :
    ∃ tree', tree.insert (newPodInfo gates o p) = some tree' ∧
      tree'.Stores gates o (pods.insert p.uid p) := by
  obtain ⟨t, ht⟩ := h.splay
  have hfresh : tree.pods.contents p.uid = none := by
    rw [h.keeps, AList.lookup_eq_none.mpr hnew]
    rfl
  obtain ⟨s', t', hs', ht', hcontents⟩ := ht.insert ordered (v := newPodInfo gates o p) hfresh
  refine ⟨_, by rw [PodTree.insert, hs']; rfl, ⟨t', ht'⟩, fun k => ?_, fun n => ?_⟩
  · rw [hcontents, GoMap.lookup_insert', apply_ite (Option.map (newPodInfo gates o)), h.keeps]
    rfl
  · rw [podInfos, AList.entries_insert_of_notMem hnew, List.map_cons, counted_cons,
      GoMap.lookup_insert', h.counts, h.counts]
    split_ifs with hn
    · rw [hn]
      rfl
    · rfl

theorem Stores.delete (h : tree.Stores gates o pods) (hp : pods.lookup p.uid = some p) :
    ∃ tree', tree.delete (newPodInfo gates o p) = some tree' ∧
      tree'.Stores gates o (pods.erase p.uid) := by
  obtain ⟨t, ht⟩ := h.splay
  obtain ⟨s', t', hs', ht', hcontents⟩ := ht.delete (newPodInfo gates o p).podKey
  have hcounts : ∀ n, tree.priorities.lookup n =
      counted (newPodInfo gates o p :: podInfos gates o (pods.erase p.uid)) n := by
    intro n
    have hperm := (GoMap.perm_entries_erase hp).map fun e => newPodInfo gates o e.2
    rw [h.counts, counted, counted, podInfos, hperm.countP_eq]
    rfl
  refine ⟨_, by rw [PodTree.delete, hs']; rfl, ⟨t', ht'⟩, fun k => ?_, fun n => ?_⟩
  · rw [hcontents, GoMap.lookup_erase', apply_ite (Option.map (newPodInfo gates o)), h.keeps]
    rfl
  · simp only [hcounts, counted_cons, if_true, Option.getD_some, add_sub_cancel_right]
    rw [apply_ite (AList.lookup n), GoMap.lookup_erase', GoMap.lookup_insert', hcounts,
      counted_cons]
    by_cases hn : n = (newPodInfo gates o p).podPriority
    · rw [if_pos hn, if_pos hn, hn, ← counted_eq_ite]
    · simp only [if_neg hn, ite_self]

theorem Stores.moved (h : tree.Stores gates o pods) {s' : Splay PodInfo PodMaintainableInfo}
    (hs : IsSplay requests s' t) (hmoved : Moved tree.pods s') (slice : List ℤ) :
    Stores gates o ⟨s', tree.priorities, slice⟩ pods where
  splay := ⟨t, hs⟩
  keeps k := (hmoved.contents k).trans (h.keeps k)
  counts := h.counts

theorem Stores.clone (h : tree.Stores gates o pods) (order : RangeOrder ℤ) :
    ∃ tree', tree.clone order = some tree' ∧ tree'.Stores gates o pods ∧
      tree'.prioritiesSlice = order.list tree.priorities.keys := by
  obtain ⟨t, ht⟩ := h.splay
  obtain ⟨s', hs', ht', hmoved⟩ := ht.clone
  exact ⟨_, by rw [PodTree.clone, hs']; rfl, h.moved ht' hmoved _, rfl⟩

end PodTree

end

/-- The visit `GetVictimCandidates` makes. -/
def visitCandidate (priorityLower priorityUpper : ℤ) (ret : List PodInfo) :
    Obj PodInfo → List PodInfo × Bool
  | .stored pi =>
    if pi.podPriority ≤ priorityLower then (ret, true)
    else if pi.podPriority ≥ priorityUpper then (ret, false)
    else (ret ++ [pi], true)
  | _ => (ret, true)

/-- The pods that may be preempted, by their resource type, and the others. -/
structure PodTrees where
  mayBePreempted : PodResourceType → PodTree := fun _ => {}
  neverBePreempted : GoMap String Pod := ∅

namespace PodTrees

variable (gates : FeatureGates) (o : ResourceOrders) (s : PodTrees)

def set (type : PodResourceType) (tree : PodTree) : PodTrees :=
  { s with mayBePreempted := Function.update s.mayBePreempted type tree }

def typeOf (p : Pod) : PodResourceType :=
  if p.podResourceType = some .guaranteed then .guaranteed else .bestEffort

def addPodInfo (p : Pod) : Option PodTrees :=
  if !passesPodFilters p then
    some { s with neverBePreempted := s.neverBePreempted.insert p.uid p }
  else ((s.mayBePreempted (typeOf p)).insert (newPodInfo gates o p)).map (s.set (typeOf p))

def removePodInfo (p : Pod) : Option PodTrees :=
  if p.uid ∈ s.neverBePreempted then
    some { s with neverBePreempted := s.neverBePreempted.erase p.uid }
  else ((s.mayBePreempted (typeOf p)).delete (newPodInfo gates o p)).map (s.set (typeOf p))

def getPodInfo (key : String) : Option (Option Pod) :=
  match s.neverBePreempted.lookup key with
  | some p => some (some p)
  | none => do
    match ← (s.mayBePreempted .guaranteed).pods.get key with
    | .stored pi => some (some pi.pod)
    | _ =>
      match ← (s.mayBePreempted .bestEffort).pods.get key with
      | .stored pi => some (some pi.pod)
      | _ => some none

def getVictimCandidates (priorityLower priorityUpper : ℤ) (resourceType : PodResourceType) :
    Option (List PodInfo) :=
  (s.mayBePreempted resourceType).pods.conditionRange (visitCandidate priorityLower priorityUpper)
    []

/-- A partition moves nodes of the tree. -/
def getMaintainableInfoByPartition (priorityUpper : ℤ) (resourceType : PodResourceType) :
    Option (PodTrees × ℤ × ℤ) := do
  let tree := s.mayBePreempted resourceType
  let (pods, info) ← tree.pods.partition (PodPartitionInfo.compare ⟨priorityUpper⟩)
  return (s.set resourceType { tree with pods }, ← PodMaintainableInfo.childRequests info)

def clone (order : PodResourceType → RangeOrder ℤ) : Option PodTrees := do
  let be ← (s.mayBePreempted .bestEffort).clone (order .bestEffort)
  let gt ← (s.mayBePreempted .guaranteed).clone (order .guaranteed)
  return (s.set .bestEffort be).set .guaranteed gt

def getPrioritiesForPodsMayBePreempted (resourceType : PodResourceType) : List ℤ :=
  (s.mayBePreempted resourceType).prioritiesSlice

inductive Op
  | addPod (pod : Pod)
  | removePod (key : String)
  | partition (priorityUpper : ℤ) (resourceType : PodResourceType)
  | clone (order : PodResourceType → RangeOrder ℤ)

def step : Op → Option PodTrees
  | .addPod pod => s.addPodInfo gates o pod
  | .removePod key => do
    match ← s.getPodInfo key with
    | some p => s.removePodInfo gates o p
    | none => some s
  | .partition priorityUpper type =>
    (s.getMaintainableInfoByPartition priorityUpper type).map Prod.fst
  | .clone order => s.clone order

/-- The same operation on the finite maps. -/
def record (m : PodInfoMaintainer) : Op → PodInfoMaintainer
  | .addPod pod => m.addPodInfo pod
  | .removePod key => (m.getPodInfo key).elim m m.removePodInfo
  | _ => m

/-- A pod is added only while no pod of its UID is on the node. -/
def AddsNew (m : PodInfoMaintainer) : Op → Prop
  | .addPod pod => m.getPodInfo pod.uid = none
  | _ => True

structure Refines (m : PodInfoMaintainer) : Prop where
  filed : Filed m
  never : s.neverBePreempted = m.neverBePreempted
  stores : ∀ type, (s.mayBePreempted type).Stores gates o (m.mayBePreempted type)

variable {gates o s} {m m' : PodInfoMaintainer} {k : String} {p : Pod} {type : PodResourceType}
  {t : SlotTree}

theorem Refines.set (h : s.Refines gates o m) (type : PodResourceType) (hfiled : Filed m')
    (hother : ∀ c, c ≠ some type → m'.container c = m.container c) {tree : PodTree}
    (htree : tree.Stores gates o (m'.container (some type))) :
    (s.set type tree).Refines gates o m' where
  filed := hfiled
  never := h.never.trans (hother none (by simp)).symm
  stores type' := by
    by_cases htype : type' = type
    · subst htype
      simpa [PodTrees.set, container] using htree
    · have hsame : m'.mayBePreempted type' = m.mayBePreempted type' :=
        hother (some type') (by simpa using htype)
      simpa [PodTrees.set, htype, hsame] using h.stores type'

theorem Refines.getPodInfo (h : s.Refines gates o m) (k : String) :
    s.getPodInfo k = some (m.getPodInfo k) := by
  have hget : ∀ type, (s.mayBePreempted type).pods.get k =
      some ((((m.mayBePreempted type).lookup k).map (newPodInfo gates o)).elim .nil .stored) := by
    intro type
    obtain ⟨t, ht⟩ := (h.stores type).splay
    rw [ht.get, (h.stores type).keeps]
  have hgt : m.gtPodsMayBePreempted = m.mayBePreempted .guaranteed := rfl
  have hbe : m.bePodsMayBePreempted = m.mayBePreempted .bestEffort := rfl
  rw [PodTrees.getPodInfo, PodInfoMaintainer.getPodInfo, h.never, hget, hget, hgt, hbe]
  cases m.neverBePreempted.lookup k with
  | some p => rfl
  | none =>
    cases (m.mayBePreempted .guaranteed).lookup k with
    | some p => rfl
    | none => cases (m.mayBePreempted .bestEffort).lookup k <;> rfl

theorem typeOf_eq (h : p.podResourceType = some type) : typeOf p = type := by
  cases type <;> simp [typeOf, h]

theorem Refines.addPodInfo (h : s.Refines gates o m) (hnew : m.getPodInfo p.uid = none) :
    ∃ s', s.addPodInfo gates o p = some s' ∧ s'.Refines gates o (m.addPodInfo p) := by
  have hcontainer := container_addPodInfo m p
  rw [PodTrees.addPodInfo]
  cases hshelf : shelfOf p with
  | none =>
    rw [hshelf] at hcontainer
    have hpasses : !passesPodFilters p := by
      by_contra hpasses
      simp_all [shelfOf, passesPodFilters]
    rw [if_pos hpasses]
    refine ⟨_, rfl, h.filed.addPodInfo hnew, ?_, fun type => ?_⟩
    · rw [h.never]
      exact (hcontainer none).symm
    · have hsame : (m.addPodInfo p).mayBePreempted type = _ := hcontainer (some type)
      rw [hsame]
      exact h.stores type
  | some type =>
    rw [hshelf] at hcontainer
    have hpasses : ¬(!passesPodFilters p) := by
      intro hpasses
      simp_all [shelfOf]
    rw [if_neg hpasses, typeOf_eq (podResourceType_of_shelfOf hshelf)]
    obtain ⟨tree, htree, hstores⟩ :=
      (h.stores type).insert (getPodInfo_eq_none_iff.mp hnew (some type))
    rw [htree]
    refine ⟨_, rfl, h.set type (h.filed.addPodInfo hnew) (fun c hc => ?_) ?_⟩
    · rw [hcontainer, if_neg hc]
    · rw [hcontainer, if_pos rfl]
      exact hstores

theorem Refines.removePodInfo (h : s.Refines gates o m) (hp : m.getPodInfo k = some p) :
    ∃ s', s.removePodInfo gates o p = some s' ∧ s'.Refines gates o (m.removePodInfo p) := by
  obtain ⟨c, hlookup, hcontainer⟩ := h.filed.container_removePodInfo hp
  obtain rfl := h.filed.uid_eq hlookup
  have hmem := GoMap.mem_iff_lookup.mpr ⟨p, hlookup⟩
  rw [PodTrees.removePodInfo, h.never]
  cases c with
  | none =>
    have hnever : p.uid ∈ m.neverBePreempted := hmem
    rw [if_pos hnever]
    refine ⟨_, rfl, h.filed.removePodInfo hp, (hcontainer none).symm, fun type => ?_⟩
    have hsame : (m.removePodInfo p).mayBePreempted type = _ := hcontainer (some type)
    rw [hsame]
    exact h.stores type
  | some type =>
    rw [if_neg (h.filed.notNever type p.uid hmem), typeOf_eq (h.filed.typed type p.uid p hlookup)]
    obtain ⟨tree, htree, hstores⟩ := (h.stores type).delete hlookup
    rw [htree]
    refine ⟨_, rfl, h.set type (h.filed.removePodInfo hp) (fun c hc => ?_) ?_⟩
    · rw [hcontainer, if_neg hc]
    · rw [hcontainer, if_pos rfl]
      exact hstores

/-- In a subtree whose pods are in order nothing is left out by a visit that ends its traversal:
the pods after it have no lower priority. -/
theorem walk_visitCandidate {pods : Splay PodInfo PodMaintainableInfo} {u : SlotTree}
    (hsorted : (pods.objs u.inorder).Pairwise fun a b => a.podPriority ≤ b.podPriority)
    (lower upper : ℤ) (ret : List PodInfo) :
    pods.walk (fun ret pi => visitCandidate lower upper ret (.stored pi)) u ret =
      ret ++ (pods.objs u.inorder).filter (between lower upper) := by
  induction u generalizing ret with
  | nil => exact (List.append_nil ret).symm
  | node l x r ihl ihr =>
    rw [objs_node, List.append_assoc, List.pairwise_append] at hsorted
    obtain ⟨hl, hxr, -⟩ := hsorted
    obtain ⟨-, hr, hle⟩ := List.pairwise_append.mp hxr
    rw [walk, ihl hl, objs_node]
    simp only [ihr hr]
    cases ha : pods.objAt x with
    | none => simp
    | some a =>
      by_cases hlower : a.podPriority ≤ lower
      · simp [visitCandidate, between, hlower]
      · by_cases hupper : upper ≤ a.podPriority
        · have hrest : (pods.objs r.inorder).filter (between lower upper) = [] := by
            refine List.filter_eq_nil_iff.mpr fun b hb hbetween => ?_
            have hab := hle a (by simp [ha]) b hb
            have := (between_iff.mp hbetween).2
            omega
          simp [visitCandidate, between, hlower, hupper, hrest]
        · simp [visitCandidate, between, hlower, hupper, not_le.mp hlower, not_le.mp hupper]

/-- The tree of a resource type has its pods in the order of the candidates. -/
theorem Refines.objs_eq_inOrder (h : s.Refines gates o m)
    (ht : IsSplay requests (s.mayBePreempted type).pods t) :
    (s.mayBePreempted type).pods.objs t.inorder =
      inOrder (podInfos gates o (m.mayBePreempted type)) := by
  have hplaced := h.filed.toPlaced
  have hperm : ((s.mayBePreempted type).pods.objs t.inorder).Perm
      (podInfos gates o (m.mayBePreempted type)) := by
    have hnodup : ((s.mayBePreempted type).pods.objs t.inorder).Nodup := by
      refine ht.sorted.imp ?_
      rintro a _ hba rfl
      exact ordered.irrefl a hba
    refine (List.perm_ext_iff_of_nodup hnodup hplaced.nodup_podInfos).mpr fun pi => ?_
    have hcontents := ht.contents_eq_some (k := pi.podKey) (a := pi)
    rw [(h.stores type).keeps, Option.map_eq_some_iff] at hcontents
    rw [mem_podInfos]
    constructor
    · intro hpi
      obtain ⟨p, hp, heq⟩ := hcontents.mpr ⟨rfl, hpi⟩
      exact ⟨_, p, hp, heq⟩
    · rintro ⟨k, p, hp, rfl⟩
      obtain rfl := hplaced.uid_eq (c := some type) hp
      exact (hcontents.mp ⟨p, hp, rfl⟩).2
  refine eq_inOrder hperm hplaced.eq_of_podKey (ht.sorted.imp fun {a b} hba => ?_)
  exact compare_eq_false.mpr (compare_iff.mp hba).le

theorem Refines.getVictimCandidates (h : s.Refines gates o m) (lower upper : ℤ)
    (type : PodResourceType) : s.getVictimCandidates lower upper type =
      some (m.getVictimCandidates gates o lower upper type) := by
  obtain ⟨t, ht⟩ := (h.stores type).splay
  rw [PodTrees.getVictimCandidates, Splay.conditionRange, ht.root,
    conditionDfs_spec (fun _ _ => rfl) _ ht.holds.embeds ht.isLive ht.length_walk_lt,
    walk_visitCandidate (ht.sorted.imp priority_le_of_compare), h.objs_eq_inOrder ht]
  rfl

theorem Refines.partition (h : s.Refines gates o m) (upper : ℤ) (type : PodResourceType) :
    ∃ s', s.getMaintainableInfoByPartition upper type =
      some (s', m.getMaintainableInfoByPartition gates o upper type) ∧ s'.Refines gates o m := by
  have hstores := h.stores type
  obtain ⟨t, ht⟩ := hstores.splay
  obtain ⟨pods, t', info, hpods, ht', hmoved, hsums⟩ :=
    ht.partition (PodPartitionInfo.compare ⟨upper⟩)
  have hsums := hsums fun a _ b _ hba hb => PodPartitionInfo.compare_of_compare hba hb
  have hperm := (perm_inOrder (podInfos gates o (m.mayBePreempted type))).filter
    (PodPartitionInfo.compare ⟨upper⟩)
  rw [h.objs_eq_inOrder ht] at hsums
  have hinfo : PodMaintainableInfo.childRequests info =
      some (m.getMaintainableInfoByPartition gates o upper type) := by
    rw [PodInfoMaintainer.getMaintainableInfoByPartition, ← (sums_perm hperm).1,
      ← (sums_perm hperm).2]
    cases info with
    | nil =>
      have hnil : List.filter _ _ = [] := hsums
      rw [hnil]
      rfl
    | forLookup => exact hsums.elim
    | own info => rw [PodMaintainableInfo.childRequests, hsums.2.1, hsums.2.2]
  refine ⟨s.set type { s.mayBePreempted type with pods }, ?_,
    h.set type h.filed (fun _ _ => rfl) (hstores.moved ht' hmoved _)⟩
  simp [PodTrees.getMaintainableInfoByPartition, hpods, hinfo]

theorem Refines.clone (h : s.Refines gates o m) (order : PodResourceType → RangeOrder ℤ) :
    ∃ s', s.clone order = some s' ∧ s'.Refines gates o m ∧
      ∀ type, s'.getPrioritiesForPodsMayBePreempted type =
        (order type).list (s.mayBePreempted type).priorities.keys := by
  obtain ⟨be, hbe, hstoresBE, hsliceBE⟩ := (h.stores .bestEffort).clone (order .bestEffort)
  obtain ⟨gt, hgt, hstoresGT, hsliceGT⟩ := (h.stores .guaranteed).clone (order .guaranteed)
  have h' := h.set .bestEffort h.filed (fun _ _ => rfl) hstoresBE
  refine ⟨_, by rw [PodTrees.clone, hbe, hgt]; rfl,
    h'.set .guaranteed h.filed (fun _ _ => rfl) hstoresGT, ?_⟩
  rintro (_ | _)
  · exact hsliceGT
  · exact hsliceBE

theorem Refines.step (h : s.Refines gates o m) {op : Op} (hop : AddsNew m op) :
    ∃ s', s.step gates o op = some s' ∧ s'.Refines gates o (record m op) := by
  cases op with
  | addPod pod => exact h.addPodInfo hop
  | removePod key =>
    cases hp : m.getPodInfo key with
    | none => exact ⟨s, by simp [PodTrees.step, h.getPodInfo, hp], by simpa [record, hp] using h⟩
    | some p =>
      obtain ⟨s', hs', h'⟩ := h.removePodInfo hp
      exact ⟨s', by simp [PodTrees.step, h.getPodInfo, hp, hs'], by simpa [record, hp] using h'⟩
  | partition upper type =>
    obtain ⟨s', hs', h'⟩ := h.partition upper type
    exact ⟨s', by simp [PodTrees.step, hs'], h'⟩
  | clone order =>
    obtain ⟨s', hs', h', -⟩ := h.clone order
    exact ⟨s', hs', h'⟩

theorem refines_new : ({} : PodTrees).Refines gates o .new where
  filed := filed_new
  never := rfl
  stores type := by
    cases type <;> exact ⟨⟨_, isSplay_newSplay requests⟩, fun _ => rfl, fun _ => rfl⟩

variable (gates o)

theorem exists_refines_run {ops : List Op} (hops : Along record AddsNew .new ops) :
    ∃ s : PodTrees, ops.foldlM (PodTrees.step gates o) {} = some s ∧
      s.Refines gates o (run record .new ops) :=
  exists_foldlM_of_simulates (fun _ _ _ h hop => h.step hop) refines_new hops

/-- The trees answer as the finite maps do. -/
theorem queries_as_maps (ops : List Op) (hops : Along record AddsNew .new ops) :
    ∃ s : PodTrees, ops.foldlM (PodTrees.step gates o) {} = some s ∧
      (∀ key, s.getPodInfo key = some ((run record .new ops).getPodInfo key)) ∧
      ∀ type upper, (∃ s', s.getMaintainableInfoByPartition upper type =
          some (s', (run record .new ops).getMaintainableInfoByPartition gates o upper type)) ∧
        ∀ lower, s.getVictimCandidates lower upper type =
          some ((run record .new ops).getVictimCandidates gates o lower upper type) := by
  obtain ⟨s, hs, h⟩ := exists_refines_run gates o hops
  refine ⟨s, hs, h.getPodInfo, fun type upper => ⟨?_, fun lower => ?_⟩⟩
  · obtain ⟨s', hs', -⟩ := h.partition upper type
    exact ⟨s', hs'⟩
  · exact h.getVictimCandidates lower upper type

/-- The priorities of a clone are those of the pods that may be preempted, each of them once. -/
theorem priorities_of_clone (ops : List Op) (hops : Along record AddsNew .new ops)
    (order : PodResourceType → RangeOrder ℤ) :
    ∃ s s' : PodTrees, ops.foldlM (PodTrees.step gates o) {} = some s ∧ s.clone order = some s' ∧
      ∀ type, (s'.getPrioritiesForPodsMayBePreempted type).Nodup ∧
        ∀ n, n ∈ s'.getPrioritiesForPodsMayBePreempted type ↔ ∃ k p,
          ((run record .new ops).mayBePreempted type).lookup k = some p ∧ p.getPodPriority = n := by
  obtain ⟨s, hs, h⟩ := exists_refines_run gates o hops
  obtain ⟨s', hs', -, hslice⟩ := h.clone order
  refine ⟨s, s', hs, hs', fun type => ?_⟩
  rw [hslice]
  refine ⟨(order type).nodup_list (s.mayBePreempted type).priorities.keys_nodup, fun n => ?_⟩
  rw [(order type).mem_list]
  refine AList.lookup_isSome.symm.trans ?_
  rw [(h.stores type).counts, PodTree.isSome_counted_iff]
  simp only [mem_podInfos]
  constructor
  · rintro ⟨_, ⟨k, p, hp, rfl⟩, hn⟩
    exact ⟨k, p, hp, hn⟩
  · rintro ⟨k, p, hp, hn⟩
    exact ⟨_, ⟨k, p, hp, rfl⟩, hn⟩

instance (m : PodInfoMaintainer) (op : Op) : Decidable (AddsNew m op) := by
  cases op <;> unfold AddsNew <;> infer_instance

/-- Three pods come, and the first goes. -/
def podRun : List Op :=
  [.addPod (cpuPod "a" 1 4), .addPod (cpuPod "b" 5 2), .addPod (cpuPod "c" 3 1), .removePod "a"]

theorem queries_as_maps_podRun : Along record AddsNew .new podRun ∧
    ∃ s s' : PodTrees, podRun.foldlM (PodTrees.step ⟨true, true⟩ .forward) {} = some s ∧
      s.getPodInfo "a" = some none ∧
      s.getMaintainableInfoByPartition 6 .guaranteed = some (s', 3000, 0) ∧
      (s.getVictimCandidates 2 6 .guaranteed).map (List.map PodInfo.podKey) = some ["c", "b"] := by
  have hops : Along record AddsNew .new podRun := by decide
  obtain ⟨s, hs, hget, hqueries⟩ := queries_as_maps ⟨true, true⟩ .forward podRun hops
  obtain ⟨⟨s', hs'⟩, hcandidates⟩ := hqueries .guaranteed 6
  refine ⟨hops, s, s', hs, hget "a", hs', ?_⟩
  rw [hcandidates 2]
  decide

theorem priorities_of_clone_podRun : Along record AddsNew .new podRun ∧
    ∃ s s' : PodTrees, podRun.foldlM (PodTrees.step ⟨true, true⟩ .forward) {} = some s ∧
      s.clone (fun _ => .forward) = some s' ∧
      5 ∈ s'.getPrioritiesForPodsMayBePreempted .guaranteed := by
  have hops : Along record AddsNew .new podRun := by decide
  obtain ⟨s, s', hs, hs', hpriorities⟩ :=
    priorities_of_clone ⟨true, true⟩ .forward podRun hops fun _ => .forward
  exact ⟨hops, s, s', hs, hs', ((hpriorities .guaranteed).2 5).mpr ⟨"b", _, rfl, rfl⟩⟩

end PodTrees

end GodelScheduler
