import GodelScheduler.Searching.PDBChecker

/-!
# The three routes to the budgets of a victim

Each route sees the budgets through a test of its own: the owner's entry through the
labels of the owner, the label cache through the first pod with these labels that was
looked up, and the scan through the victim. `matched_iff_routesAgree` says that the
indexes found are those of the budgets that match the victim exactly if the test of the
route that is taken agrees with `PDBMatched` on every budget.
-/

namespace GodelScheduler.Searching

open Library SchedulerCache Binder.Preemption

section

variable {pdbItems : List PDBItemImpl} {item : PDBItemImpl} {i : ℕ}

theorem lookup_indexByName (hnd : (pdbItems.map PDBItemImpl.key).Nodup)
    (hitem : pdbItems[i]? = some item) : (indexByName pdbItems).lookup item.key = some i := by
  refine GoMap.lookup_foldl_insert (f := fun e : PDBItemImpl × ℕ => e.1.key)
    (x := (item, i)) (List.mem_zipIdx_iff_getElem?.mpr hitem) ?_
  rintro ⟨item', j⟩ hmem hkey
  have hitem' := List.mem_zipIdx_iff_getElem?.mp hmem
  have hj : j < (pdbItems.map PDBItemImpl.key).length := by
    rw [List.length_map]
    exact (List.getElem?_eq_some_iff.mp hitem').1
  apply (List.getElem?_inj hj hnd).mp
  rw [List.getElem?_map, List.getElem?_map, hitem', hitem]
  exact congrArg some hkey

theorem mem_scan_iff {common : PDBCommonState} {pod : Pod} {pdbsAllowed : List ℤ} :
    i ∈ (scan common pod pdbsAllowed).2 ↔
      ∃ item, common.pdbItems[i]? = some item ∧ counts item.toPDBItem pod = true := by
  unfold scan
  cases hitem : common.pdbItems[i]? with
  | some item =>
    have hmapped : (common.pdbItems.map PDBItemImpl.toPDBItem)[i]? = some item.toPDBItem := by
      rw [List.getElem?_map, hitem]
      rfl
    rw [mem_indexes_iff hmapped]
    simp
  | none =>
    have hnot : i ∉ (Binder.Preemption.checkPodDisruptionBudgetViolation pod pdbsAllowed
        (common.pdbItems.map PDBItemImpl.toPDBItem)).2 := by
      unfold Binder.Preemption.checkPodDisruptionBudgetViolation
      split_ifs
      · exact List.not_mem_nil
      · simp only [indexes_foldl_checkItem, List.nil_append, List.mem_map, List.mem_filter]
        rintro ⟨⟨item, j⟩, ⟨hmem, -⟩, rfl⟩
        rw [List.mem_zipIdx_iff_getElem?, List.getElem?_map, hitem] at hmem
        cases hmem
    simp [hnot]

end

section

variable {store : PdbStore} {o : RangeOrder PDBItemImpl}

theorem mem_getPDBItemList {item : PDBItemImpl} :
    item ∈ store.getPDBItemList o ↔ item ∈ store.pdbs.list :=
  o.mem_list

theorem nodup_getPDBItemList : ((store.getPDBItemList o).map PDBItemImpl.key).Nodup :=
  ((o.perm _).map _).nodup_iff.mpr store.pdbs.nodup_list_key

theorem mem_owner_indexes_iff (hindexed : store.Indexed) {owner : OwnerType × String}
    {ownerItem : OwnerItem} (howner : store.owners.lookup owner = some ownerItem)
    (order : RangeOrder String) {i : ℕ} :
    (i ∈ (order.list ownerItem.pdbs.keys).map fun pdbName =>
        ((newPDBCommonState store o).pdbsNameToIndexes.lookup pdbName).getD 0) ↔
      ∃ item, (store.getPDBItemList o)[i]? = some item ∧
        item.selects ownerItem.ownerLabels = true := by
  rw [List.mem_map]
  constructor
  · rintro ⟨pdbName, hname, rfl⟩
    rw [order.mem_list, ← AList.mem_keys] at hname
    obtain ⟨item, hget, hselects⟩ := ((hindexed pdbName).mem_iff owner ownerItem howner).mp hname
    have hmem : item ∈ store.getPDBItemList o :=
      mem_getPDBItemList.mpr (KeyedStore.mem_list_of_getByKey hget)
    obtain ⟨j, hj⟩ := List.mem_iff_getElem?.mp hmem
    have hindex : (newPDBCommonState store o).pdbsNameToIndexes.lookup pdbName = some j := by
      rw [← KeyedStore.key_of_getByKey hget]
      exact lookup_indexByName nodup_getPDBItemList hj
    rw [hindex]
    exact ⟨item, hj, hselects⟩
  · rintro ⟨item, hitem, hselects⟩
    have hget : store.pdbs.getByKey item.key = some item :=
      KeyedStore.mem_list_iff.mp (mem_getPDBItemList.mp (List.mem_of_getElem? hitem))
    refine ⟨item.key, ?_, ?_⟩
    · rw [order.mem_list, ← AList.mem_keys]
      exact ((hindexed item.key).mem_iff owner ownerItem howner).mpr ⟨item, hget, hselects⟩
    · have hindex : (newPDBCommonState store o).pdbsNameToIndexes.lookup item.key = some i :=
        lookup_indexByName nodup_getPDBItemList hitem
      rw [hindex]
      rfl

end

/-- One call of `VictimSearching`. -/
structure Lookup where
  pod : Pod
  pdbsAllowed : List ℤ
  order : RangeOrder String := .forward

section

variable (store : PdbStore) (o : RangeOrder PDBItemImpl) (lookups : List Lookup)

/-- The label cache after the given lookups of a preemptor. -/
def pdbStateAfter : PDBState :=
  lookups.foldl (fun s l =>
    (victimSearching store (newPDBCommonState store o) l.order l.pod l.pdbsAllowed s).1) ∅

/-- The first lookup with the pod's labels that did not go through an owner. -/
def firstLookup (pod : Pod) : Option Lookup :=
  lookups.find? fun l =>
    (usableOwner store l.pod).isNone && (formatLabels l.pod.labels == formatLabels pod.labels)

theorem lookup_pdbStateAfter (pod : Pod) :
    (pdbStateAfter store o lookups).lookup (formatLabels pod.labels) =
      (firstLookup store lookups pod).map fun l =>
        (scan (newPDBCommonState store o) l.pod []).2 := by
  have hstep : pdbStateAfter store o lookups =
      (lookups.filter fun l => (usableOwner store l.pod).isNone).foldl
        (fun s l => s.remember (formatLabels l.pod.labels)
          (scan (newPDBCommonState store o) l.pod []).2) ∅ := by
    unfold pdbStateAfter
    rw [List.foldl_filter]
    congr 1
    funext s l
    rw [pdbState_victimSearching]
    cases usableOwner store l.pod with
    | some ownerItem => rfl
    | none => rfl
  rw [hstep, GoMap.lookup_foldl_remember, AList.lookup_empty, Option.none_or, List.find?_filter]
  unfold firstLookup
  simp only [Bool.decide_and, Bool.decide_eq_true, beq_eq_decide]

/-- The route taken for a pod shows the budgets that match the pod. -/
def RoutesAgree (pod : Pod) : Prop :=
  match usableOwner store pod with
  | some ownerItem => ∀ item ∈ store.pdbs.list,
      item.selects ownerItem.ownerLabels = pdbMatched pod item.toPDBItem
  | none =>
    match firstLookup store lookups pod with
    | some first => ∀ item ∈ store.pdbs.list,
        counts item.toPDBItem first.pod = pdbMatched pod item.toPDBItem
    | none => pod.labels.len ≠ 0 ∨ ∀ item ∈ store.pdbs.list, pdbMatched pod item.toPDBItem = false

variable {store o}

/-- Indexes found by a test are those of a second test exactly if the tests agree. -/
theorem matched_iff_of_test {pdbItems : List PDBItemImpl} {found : List ℕ}
    {test test' : PDBItemImpl → Bool}
    (hfound : ∀ i, i ∈ found ↔ ∃ item, pdbItems[i]? = some item ∧ test item = true) :
    (∀ i, i ∈ found ↔ ∃ item, pdbItems[i]? = some item ∧ test' item = true) ↔
      ∀ item ∈ pdbItems, test item = test' item := by
  constructor
  · intro h item hmem
    obtain ⟨i, hitem⟩ := List.mem_iff_getElem?.mp hmem
    have hiff := (hfound i).symm.trans (h i)
    simp only [hitem, Option.some_inj, exists_eq_left'] at hiff
    exact Bool.eq_iff_iff.mpr hiff
  · intro h i
    rw [hfound]
    constructor
    · rintro ⟨item, hitem, htest⟩
      exact ⟨item, hitem, h item (List.mem_of_getElem? hitem) ▸ htest⟩
    · rintro ⟨item, hitem, htest⟩
      exact ⟨item, hitem, (h item (List.mem_of_getElem? hitem)).symm ▸ htest⟩

theorem exists_lookup_of_usableOwner {pod : Pod} {ownerItem : OwnerItem}
    (h : usableOwner store pod = some ownerItem) :
    ∃ owner, store.owners.lookup owner = some ownerItem := by
  unfold usableOwner at h
  obtain ⟨owner, -, h⟩ := Option.bind_eq_some_iff.mp h
  obtain ⟨ownerItem', hlookup, h⟩ := Option.bind_eq_some_iff.mp h
  split_ifs at h
  rw [Option.some_inj] at h
  exact ⟨owner, h ▸ hlookup⟩

theorem matched_iff_of_indexed (hindexed : store.Indexed) (lookups : List Lookup) (l : Lookup) :
    (∀ i, i ∈ matchedIndexes store (newPDBCommonState store o) l.order l.pod
          (pdbStateAfter store o lookups) ↔
        ∃ item, (store.getPDBItemList o)[i]? = some item ∧
          pdbMatched l.pod item.toPDBItem = true) ↔ RoutesAgree store lookups l.pod := by
  have hlist : ∀ {p : PDBItemImpl → Prop}, (∀ item ∈ store.getPDBItemList o, p item) ↔
      ∀ item ∈ store.pdbs.list, p item := by
    intro p
    simp only [mem_getPDBItemList]
  unfold RoutesAgree matchedIndexes
  rw [getMatchedPDBIndexesFromOwner_eq]
  cases howner : usableOwner store l.pod with
  | some ownerItem =>
    obtain ⟨owner, hlookup⟩ := exists_lookup_of_usableOwner howner
    exact (matched_iff_of_test fun i => mem_owner_indexes_iff hindexed hlookup l.order).trans hlist
  | none =>
    simp only [Option.map_none, lookup_pdbStateAfter]
    cases firstLookup store lookups l.pod with
    | some first =>
      exact (matched_iff_of_test fun i => mem_scan_iff).trans hlist
    | none =>
      have htest : (∀ item ∈ store.getPDBItemList o,
          counts item.toPDBItem l.pod = pdbMatched l.pod item.toPDBItem) ↔
          (l.pod.labels.len ≠ 0 ∨
            ∀ item ∈ store.pdbs.list, pdbMatched l.pod item.toPDBItem = false) := by
        rw [hlist]
        unfold counts
        by_cases hlen : l.pod.labels.len = 0
        · simp [hlen]
        · simp [hlen]
      exact (matched_iff_of_test fun i => mem_scan_iff).trans htest

end

/-- After any informer events over budgets with valid selectors and any earlier lookups, the
indexes found for a pod are those of the budgets that match it exactly if the route that is taken
shows these budgets. -/
theorem matched_iff_routesAgree (events : List PdbStore.Event)
    (hvalid : ∀ event ∈ events, event.validSelectors = true) (store : PdbStore)
    (hstore : events.foldlM PdbStore.step {} = some store) (o : RangeOrder PDBItemImpl)
    (lookups : List Lookup) (l : Lookup) :
    (∀ i, i ∈ (victimSearching store (newPDBCommonState store o) l.order l.pod l.pdbsAllowed
          (pdbStateAfter store o lookups)).2.1 ↔
        ∃ item, (store.getPDBItemList o)[i]? = some item ∧
          pdbMatched l.pod item.toPDBItem = true) ↔
      RoutesAgree store lookups l.pod := by
  rw [indexes_victimSearching]
  exact matched_iff_of_indexed (PdbStore.indexed_of_events hvalid hstore) lookups l

namespace RoutesExample

def appLabels : GoMap String String := (∅ : GoMap String String).insert "app" "db"

def appPod (ns name : String) : Pod := { uid := name, ns := ns, name := name, labels := appLabels }

def usedUp : PDB where
  ns := "b"
  name := "pdb"
  disruptionsAllowed := 0
  selector := some { matchLabels := appLabels }

end RoutesExample

open RoutesExample

/-- After a pod of the budget's namespace with the same labels. -/
theorem matched_of_first_lookup : ∃ store,
    [PdbStore.Event.addPDB usedUp].foldlM PdbStore.step {} = some store ∧
      ∀ i, i ∈ (victimSearching store (newPDBCommonState store .forward) .forward
          (appPod "b" "y") [0]
          (pdbStateAfter store .forward [⟨appPod "b" "x", [0], .forward⟩])).2.1 ↔
        ∃ item, (store.getPDBItemList .forward)[i]? = some item ∧
          pdbMatched (appPod "b" "y") item.toPDBItem = true := by
  refine ⟨_, rfl, ?_⟩
  refine (matched_iff_routesAgree [.addPDB usedUp] (by decide) _ rfl .forward
    [⟨appPod "b" "x", [0], .forward⟩] ⟨appPod "b" "y", [0], .forward⟩).mpr ?_
  change ∀ item ∈ _, _
  decide

/-- After a pod of another namespace with the same labels, no budget is found. -/
theorem matched_fails_across_namespaces : ∃ store,
    [PdbStore.Event.addPDB usedUp].foldlM PdbStore.step {} = some store ∧
      (victimSearching store (newPDBCommonState store .forward) .forward (appPod "b" "y") [0]
        (pdbStateAfter store .forward [⟨appPod "a" "x", [0], .forward⟩])).2.1 = [] ∧
      (store.getPDBItemList .forward).map
        (fun item => pdbMatched (appPod "b" "y") item.toPDBItem) = [true] :=
  ⟨_, rfl, by decide, by decide⟩

end GodelScheduler.Searching
