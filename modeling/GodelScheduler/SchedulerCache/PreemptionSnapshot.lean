import GodelScheduler.SchedulerCache.PreemptionStore

/-!
# What the snapshot knows about preemptors

A refresh clones a node if it is newer than the snapshot, and within it a victim
if it is newer than the snapshot's copy of the node. It is a full copy as long as
two things hold of the writes to the cache. The clean-up changes a set it keeps
only if that set is still to be cloned, since it does not set it again. And a node
that left the cache comes back only after the snapshot has dropped it too, since
its new store of victims counts generations from the start.
-/

namespace GodelScheduler.SchedulerCache

open Library GenerationStore ListStore PreemptionDetailForNode GenerationStringSet Option

section

variable (podLister : PodLister)

namespace GenerationStringSet

variable {s : GenerationStringSet}

/-- The clean-up deletes no preemptor. -/
def Untouched (s : GenerationStringSet) : Prop :=
  ∀ preemptor ∈ s.set.keys, podLister.residual preemptor = false

/-- The clean-up deletes every preemptor. -/
def Emptied (s : GenerationStringSet) : Prop :=
  ∀ preemptor ∈ s.set.keys, podLister.residual preemptor = true

instance (s : GenerationStringSet) : Decidable (s.Untouched podLister) :=
  inferInstanceAs (Decidable (∀ _ ∈ _, _))

instance (s : GenerationStringSet) : Decidable (s.Emptied podLister) :=
  inferInstanceAs (Decidable (∀ _ ∈ _, _))

theorem mem_foldl_cleanUp (l : List String) (s : GenerationStringSet) (preemptor : String) :
    preemptor ∈ (l.foldl (fun s p => if podLister.residual p then s.delete p else s) s).set ↔
      preemptor ∈ s.set ∧ ¬ (preemptor ∈ l ∧ podLister.residual preemptor = true) := by
  induction l generalizing s with
  | nil => simp
  | cons p l ih =>
    rw [List.foldl_cons, ih]
    by_cases hp : podLister.residual p = true
    · rw [if_pos hp, delete, AList.mem_erase]
      by_cases heq : preemptor = p
      · subst heq
        simp [hp]
      · simp [heq]
    · rw [if_neg hp]
      by_cases heq : preemptor = p
      · subst heq
        simp [hp]
      · simp [heq]

variable {podLister}

theorem cleanUp_of_untouched (h : s.Untouched podLister) (o : RangeOrder String) :
    s.cleanUp podLister o = s := by
  unfold cleanUp
  apply List.foldlRecOn (motive := fun s' => s' = s) _ _ rfl
  intro s' hs' p hp
  rw [strings, RangeOrder.mem_list] at hp
  rw [h p hp]
  exact hs'

theorem len_cleanUp_of_emptied (h : s.Emptied podLister) (o : RangeOrder String) :
    (s.cleanUp podLister o).len = 0 := by
  have hnone : (s.cleanUp podLister o).set.keys = [] := by
    apply List.eq_nil_iff_forall_not_mem.mpr
    intro p hp
    rw [← AList.mem_keys, cleanUp, mem_foldl_cleanUp, strings, RangeOrder.mem_list,
      ← AList.mem_keys] at hp
    exact hp.2 ⟨hp.1, h p (AList.mem_keys.mp hp.1)⟩
  rw [len, GoMap.len, hnone]
  rfl

end GenerationStringSet

namespace PreemptionDetailForNode

variable {podLister} {item : PreemptionDetailForNode}

theorem isEmpty_iff :
    item.isEmpty = true ↔ ∀ victim, item.victimToPreemptors.get victim = none := by
  have hlen : item.victimToPreemptors.len = item.victimToPreemptors.keys.length := by
    simp [ListStore.len, ListStoreImpl.len, ListStore.keys, GoMap.len]
  rw [isEmpty, hlen, beq_iff_eq, List.length_eq_zero_iff, List.eq_nil_iff_forall_not_mem]
  simp only [mem_keys, Bool.not_eq_true, isSome_eq_false_iff, isNone_iff_eq_none]

end PreemptionDetailForNode

end

/-- The snapshot's copy of the victims of a node, empty if it has no such node. -/
def victimsOf (raw : RawStoreImpl String SnapshotDetailForNode) (node : String) :
    RawStoreImpl String GenerationStringSet :=
  ((raw.get node).map SnapshotDetailForNode.victimToPreemptors).getD .new

/-- The preemptors by victim that the snapshot has for a node. -/
def viewOf (raw : RawStoreImpl String SnapshotDetailForNode) (node : String) :
    Option (String → Option GenerationStringSet) :=
  (raw.get node).map fun detailForNode => detailForNode.victimToPreemptors.get

/-- The preemptors by victim that the cache has for a node. -/
def entryOf (detailForNode : PreemptionDetailForNode) : String → Option GenerationStringSet :=
  detailForNode.victimToPreemptors.get

section

variable (raw : RawStoreImpl String SnapshotDetailForNode) (node a : String)
  (detailForNode : SnapshotDetailForNode)

theorem victimsOf_set :
    victimsOf (raw.set node detailForNode) a =
      if a = node then detailForNode.victimToPreemptors else victimsOf raw a := by
  unfold victimsOf
  rw [RawStoreImpl.get_set]
  split_ifs <;> rfl

theorem viewOf_set :
    viewOf (raw.set node detailForNode) a =
      if a = node then some detailForNode.victimToPreemptors.get else viewOf raw a := by
  unfold viewOf
  rw [RawStoreImpl.get_set]
  split_ifs <;> rfl

end

namespace PreemptionStores

variable {s : PreemptionStores}

/-- Every node the snapshot would not clone is already cloned, and the same for the victims within
each node; no victim is without preemptors. -/
structure Tracked (s : PreemptionStores) : Prop where
  nodes : Tracks s.cache.nodeToVictims entryOf s.snapshot.nodeToVictims
    (viewOf s.snapshot.nodeToVictims)
  victims : ∀ node item, s.cache.nodeToVictims.get node = some item →
    Tracks item.victimToPreemptors GenerationStringSet.reset
      (victimsOf s.snapshot.nodeToVictims node) (victimsOf s.snapshot.nodeToVictims node).get
  nonempty : ∀ node item, s.cache.nodeToVictims.get node = some item →
    ∀ victim set, item.victimToPreemptors.get victim = some set → set.len ≠ 0

theorem tracked_new : Tracked new := by
  refine ⟨Tracks.new _, ?_, ?_⟩
  · intro node item hget
    simp [new, PreemptionDetails.new] at hget
  · intro node item hget
    simp [new, PreemptionDetails.new] at hget

variable {node : String} {item : PreemptionDetailForNode} {podLister : PodLister}

theorem Tracked.setNode (h : s.Tracked)
    (hvictims : Tracks item.victimToPreemptors GenerationStringSet.reset
      (victimsOf s.snapshot.nodeToVictims node) (victimsOf s.snapshot.nodeToVictims node).get)
    (hnonempty : ∀ victim set, item.victimToPreemptors.get victim = some set → set.len ≠ 0) :
    Tracked ⟨⟨s.cache.nodeToVictims.set node item⟩, s.snapshot⟩ := by
  refine ⟨h.nodes.listSet node item, ?_, ?_⟩
  · intro a item' hget
    rw [get_set] at hget
    split_ifs at hget with ha
    · cases hget
      rw [ha]
      exact hvictims
    · exact h.victims a item' hget
  · intro a item' hget
    rw [get_set] at hget
    split_ifs at hget with ha
    · cases hget
      exact hnonempty
    · exact h.nonempty a item' hget

theorem Tracked.deleteNode (h : s.Tracked) (node : String) :
    Tracked ⟨⟨s.cache.nodeToVictims.delete node⟩, s.snapshot⟩ := by
  refine ⟨h.nodes.listDelete node, ?_, ?_⟩
  · intro a item hget
    rw [get_delete] at hget
    split_ifs at hget
    exact h.victims a item hget
  · intro a item hget
    rw [get_delete] at hget
    split_ifs at hget
    exact h.nonempty a item hget

theorem nonempty_set {victims : ListStore String GenerationStringSet} {victim : String}
    {set : GenerationStringSet} (h : ∀ v s, victims.get v = some s → s.len ≠ 0)
    (hset : set.len ≠ 0) :
    ∀ v s, (victims.set victim set).get v = some s → s.len ≠ 0 := by
  intro v s hget
  rw [get_set] at hget
  split_ifs at hget
  · cases hget
    exact hset
  · exact h v s hget

theorem len_insert_ne_zero (set : GenerationStringSet) (preemptor : String) :
    (set.insert preemptor).len ≠ 0 := by
  have hmem : preemptor ∈ (set.insert preemptor).set.keys :=
    AList.mem_keys.mp ((AList.mem_insert _).mpr (.inl rfl))
  rw [GenerationStringSet.len, GoMap.len]
  exact (List.length_pos_of_mem hmem).ne'

theorem tracked_addPreemptItem (h : s.Tracked) (victim preemptor : String)
    (hnode : s.cache.nodeToVictims.get node = none → s.snapshot.nodeToVictims.get node = none) :
    (s.step (.addPreemptItem node victim preemptor)).Tracked := by
  apply h.setNode
  · cases hget : s.cache.nodeToVictims.get node with
    | some item => exact (h.victims node item hget).listSet _ _
    | none =>
      have hnew : victimsOf s.snapshot.nodeToVictims node = .new := by
        rw [victimsOf, hnode hget]
        rfl
      rw [hnew]
      exact (Tracks.new _).listSet _ _
  · cases hget : s.cache.nodeToVictims.get node with
    | some item =>
      exact nonempty_set (h.nonempty node item hget) (len_insert_ne_zero _ _)
    | none =>
      apply nonempty_set _ (len_insert_ne_zero _ _)
      intro v set hv
      simp [PreemptionDetailForNode.new] at hv

theorem tracked_removePreemptItem (h : s.Tracked) (node victim preemptor : String) :
    (s.step (.removePreemptItem node victim preemptor)).Tracked := by
  simp only [step, PreemptionDetails.removePreemptItem]
  cases hget : s.cache.nodeToVictims.get node with
  | none => exact h
  | some item =>
    have hvictims := h.victims node item hget
    have hnonempty := h.nonempty node item hget
    dsimp only
    split_ifs with hempty
    · exact h.deleteNode node
    · apply h.setNode
      · unfold removePreemptItem
        cases item.victimToPreemptors.get victim with
        | none => exact hvictims
        | some set =>
          dsimp only
          split_ifs
          · exact hvictims.listDelete victim
          · exact hvictims.listSet victim _
      · unfold removePreemptItem
        cases item.victimToPreemptors.get victim with
        | none => exact hnonempty
        | some set =>
          dsimp only
          split_ifs with hlen
          · intro v set' hv
            rw [get_delete] at hv
            split_ifs at hv
            exact hnonempty v set' hv
          · exact nonempty_set hnonempty hlen

/-- What a clean-up changes and keeps is still to be cloned: a node it changes without emptying it
is newer than the snapshot, and so is each victim it changes without emptying it than the
snapshot's copy of the node. -/
def CleansPending (podLister : PodLister) (s : PreemptionStores) : Prop :=
  ∀ node ∈ s.cache.nodeToVictims.keys, ∀ item ∈ s.cache.nodeToVictims.get node,
    (∀ victim ∈ item.victimToPreemptors.keys, ∀ set ∈ item.victimToPreemptors.get victim,
      set.Untouched podLister) ∨
    (∀ victim ∈ item.victimToPreemptors.keys, ∀ set ∈ item.victimToPreemptors.get victim,
      set.Emptied podLister) ∨
    (s.snapshot.nodeToVictims.generation < item.generation ∧
      ∀ victim ∈ item.victimToPreemptors.keys, ∀ set ∈ item.victimToPreemptors.get victim,
        set.Untouched podLister ∨ set.Emptied podLister ∨
          (victimsOf s.snapshot.nodeToVictims node).generation < set.generation)

theorem get_cleanUp_eq_some {victims : RangeOrder String} {preemptors : String → RangeOrder String}
    {victim : String} {set' : GenerationStringSet}
    (h : (item.cleanUpResidualPreemptionItems podLister victims
      preemptors).victimToPreemptors.get victim = some set') :
    ∃ set, item.victimToPreemptors.get victim = some set ∧
      set' = set.cleanUp podLister (preemptors victim) ∧ set'.len ≠ 0 := by
  simp only [cleanUpResidualPreemptionItems, get_sweep,
    filter_eq_some_iff, map_eq_some_iff, Bool.not_eq_true', beq_eq_false_iff_ne] at h
  obtain ⟨⟨set, hget, hset⟩, hlen⟩ := h
  exact ⟨set, hget, hset.symm, hlen⟩

theorem entryOf_cleanUp_of_untouched
    (hnonempty : ∀ victim set, item.victimToPreemptors.get victim = some set → set.len ≠ 0)
    (h : ∀ victim ∈ item.victimToPreemptors.keys, ∀ set ∈ item.victimToPreemptors.get victim,
      set.Untouched podLister) (victims : RangeOrder String)
    (preemptors : String → RangeOrder String) :
    entryOf (item.cleanUpResidualPreemptionItems podLister victims preemptors) = entryOf item := by
  funext victim
  simp only [entryOf, cleanUpResidualPreemptionItems, get_sweep]
  cases hget : item.victimToPreemptors.get victim with
  | none => rfl
  | some set =>
    have hkey : victim ∈ item.victimToPreemptors.keys := by
      rw [mem_keys, hget]
      rfl
    have hsame := cleanUp_of_untouched (h victim hkey set hget)
      (preemptors victim)
    rw [map_some, hsame, filter_some_pos]
    simpa using hnonempty victim set hget

theorem isEmpty_cleanUp_of_emptied
    (h : ∀ victim ∈ item.victimToPreemptors.keys, ∀ set ∈ item.victimToPreemptors.get victim,
      set.Emptied podLister) (victims : RangeOrder String)
    (preemptors : String → RangeOrder String) :
    (item.cleanUpResidualPreemptionItems podLister victims preemptors).isEmpty = true := by
  rw [PreemptionDetailForNode.isEmpty_iff]
  intro victim
  cases hget : (item.cleanUpResidualPreemptionItems podLister victims
      preemptors).victimToPreemptors.get victim with
  | none => rfl
  | some set' =>
    obtain ⟨set, hset, rfl, hlen⟩ := get_cleanUp_eq_some hget
    have hkey : victim ∈ item.victimToPreemptors.keys := by
      rw [mem_keys, hset]
      rfl
    exact absurd (len_cleanUp_of_emptied (h victim hkey set hset) _) hlen

theorem tracked_cleanUp (h : s.Tracked) (hclean : CleansPending podLister s)
    (orders : CleanUpOrders) : (s.step (.cleanUp podLister orders)).Tracked := by
  have hitem : ∀ node item',
      (s.step (.cleanUp podLister orders)).cache.nodeToVictims.get node = some item' →
      ∃ item, s.cache.nodeToVictims.get node = some item ∧
        item' = item.cleanUpResidualPreemptionItems podLister (orders.victims node)
          (orders.preemptors node) ∧ item'.isEmpty = false := by
    intro node item' hget
    simp only [step, PreemptionDetails.cleanUpResidualPreemptionItems, get_sweep,
      filter_eq_some_iff, map_eq_some_iff, Bool.not_eq_true'] at hget
    obtain ⟨⟨item, hold, hitem⟩, hempty⟩ := hget
    exact ⟨item, hold, hitem.symm, hempty⟩
  refine ⟨?_, ?_, ?_⟩
  · apply h.nodes.shrink (generation_sweep _ _ _)
    intro node item' hget
    obtain ⟨item, hold, rfl, hempty⟩ := hitem node item' hget
    have hkey : node ∈ s.cache.nodeToVictims.keys := by
      rw [mem_keys, hold]
      rfl
    refine ⟨item, hold, rfl, ?_⟩
    rcases hclean node hkey item hold with hsame | hall | ⟨hpending, -⟩
    · exact .inl (entryOf_cleanUp_of_untouched (h.nonempty node item hold) hsame _ _)
    · rw [isEmpty_cleanUp_of_emptied hall] at hempty
      cases hempty
    · exact .inr hpending
  · intro node item' hget
    obtain ⟨item, hold, rfl, hempty⟩ := hitem node item' hget
    have hkey : node ∈ s.cache.nodeToVictims.keys := by
      rw [mem_keys, hold]
      rfl
    apply (h.victims node item hold).shrink (generation_sweep _ _ _)
    intro victim set' hset'
    obtain ⟨set, hset, rfl, hlen⟩ := get_cleanUp_eq_some hset'
    have hvictim : victim ∈ item.victimToPreemptors.keys := by
      rw [mem_keys, hset]
      rfl
    refine ⟨set, hset, set.generation_cleanUp _ _, ?_⟩
    have hcases : set.Untouched podLister ∨ set.Emptied podLister ∨
        (victimsOf s.snapshot.nodeToVictims node).generation < set.generation := by
      rcases hclean node hkey item hold with hsame | hall | ⟨-, hvictims⟩
      · exact .inl (hsame victim hvictim set hset)
      · exact .inr (.inl (hall victim hvictim set hset))
      · exact hvictims victim hvictim set hset
    rcases hcases with hsame | hall | hpending
    · rw [cleanUp_of_untouched hsame]
      exact .inl rfl
    · exact absurd (len_cleanUp_of_emptied hall _) hlen
    · exact .inr hpending
  · intro node item' hget victim set' hset'
    obtain ⟨item, hold, rfl, hempty⟩ := hitem node item' hget
    obtain ⟨set, hset, rfl, hlen⟩ := get_cleanUp_eq_some hset'
    exact hlen

section

variable (s) (orders : RefreshOrders)

/-- The victims of every cached node are tracked by the copy in a raw store. -/
def VictimsTracked (st : RawStoreImpl String SnapshotDetailForNode × Unit) : Prop :=
  ∀ node item, s.cache.nodeToVictims.get node = some item →
    Tracks item.victimToPreemptors GenerationStringSet.reset (victimsOf st.1 node)
      (victimsOf st.1 node).get

variable {s} in
theorem Tracked.victimsTracked (h : s.Tracked) :
    s.VictimsTracked (s.snapshot.nodeToVictims, ()) := h.victims

theorem existing_eq (raw : RawStoreImpl String SnapshotDetailForNode) (node : String) :
    ((raw.get node).getD .new).victimToPreemptors = victimsOf raw node := by
  unfold victimsOf
  cases raw.get node <;> rfl

variable {s}

theorem get_updateItems {raw : RawStoreImpl String SnapshotDetailForNode}
    (h : Tracks item.victimToPreemptors GenerationStringSet.reset (victimsOf raw node)
      (victimsOf raw node).get) (victim : String) :
    (updatePreemptionDetailForNodeItems orders node item.victimToPreemptors
      (victimsOf raw node)).get victim = item.victimToPreemptors.get victim := by
  have hget := Stores.refresh_get (s := ⟨item.victimToPreemptors, victimsOf raw node⟩) h
    (orders.updatedVictims node) (orders.cleanVictims node) victim
  rw [updatePreemptionDetailForNodeItems, hget]
  cases item.victimToPreemptors.get victim <;> rfl

theorem cloneDetailForNode_spec :
    CloneSpec s.cache.nodeToVictims (cloneDetailForNode orders) entryOf
      (fun st => viewOf st.1) s.VictimsTracked where
  inv st k item hk hinv := by
    intro node item' hget
    simp only [cloneDetailForNode, victimsOf_set, existing_eq]
    split_ifs with hnode
    · subst hnode
      rw [hk] at hget
      cases hget
      apply Tracks.of_view
      · exact (Stores.refresh_generation (s := ⟨item.victimToPreemptors, victimsOf st.1 node⟩)
          (hinv node item hk) _ _).le
      · intro victim set hset
        rw [get_updateItems orders (hinv node item hk), hset]
        rfl
    · exact hinv node item' hget
  inv_book st u g hinv := hinv
  view_clone st k item hk hinv a := by
    simp only [cloneDetailForNode, viewOf_set, existing_eq]
    split_ifs with ha
    · congr 1
      funext victim
      exact get_updateItems orders (hinv k item hk) victim
    · rfl
  view_book _ _ _ := rfl
  updated st k item a := st.1.mem_updatedSet_set k a _

/-- A refresh of a tracked snapshot: the clone phase, and then the nodes that left the cache. -/
theorem snapshot_updateSnapshot (h : s.Tracked) :
    let raw := (clonePhase s.cache.nodeToVictims (cloneDetailForNode orders) orders.updated
      (s.snapshot.nodeToVictims, ())).1
    (s.updateSnapshot orders).snapshot.nodeToVictims =
      ((orders.clean.list raw.keys).filter fun k => (s.cache.nodeToVictims.get k).isNone).foldl
        RawStoreImpl.delete raw := by
  apply defaultCleanFunc_eq orders.clean
  intro node hnode
  have hview := (cloneDetailForNode_spec orders).view_clonePhase orders.updated
    h.victimsTracked h.nodes node
  obtain ⟨item, hitem⟩ := isSome_iff_exists.mp hnode
  rw [hitem] at hview
  simp only [viewOf, map_some, some_or, map_eq_some_iff] at hview
  obtain ⟨detailForNode, hget, -⟩ := hview
  rw [hget]
  rfl

theorem viewOf_updateSnapshot (h : s.Tracked) (node : String) :
    viewOf (s.updateSnapshot orders).snapshot.nodeToVictims node =
      (s.cache.nodeToVictims.get node).map entryOf := by
  have hview := (cloneDetailForNode_spec orders).view_clonePhase orders.updated
    h.victimsTracked h.nodes node
  rw [snapshot_updateSnapshot orders h, viewOf, RawStoreImpl.get_foldl_delete]
  simp only [List.mem_filter, RangeOrder.mem_list, RawStoreImpl.mem_keys]
  cases hitem : s.cache.nodeToVictims.get node with
  | some item =>
    rw [hitem] at hview
    simp only [isNone_some, Bool.false_eq_true, and_false, if_false]
    exact hview
  | none =>
    generalize (clonePhase s.cache.nodeToVictims (cloneDetailForNode orders) orders.updated
      (s.snapshot.nodeToVictims, ())).1.get node = got
    cases got <;> simp

theorem tracked_updateSnapshot (h : s.Tracked) : (s.step (.updateSnapshot orders)).Tracked := by
  have hraw := snapshot_updateSnapshot orders h
  refine ⟨?_, ?_, h.nonempty⟩
  · apply Tracks.of_view
    · simp only [step, hraw, RawStoreImpl.generation_foldl_delete]
      exact le_refl s.cache.nodeToVictims.generation
    · intro node item hget
      change s.cache.nodeToVictims.get node = some item at hget
      rw [step, viewOf_updateSnapshot orders h, hget]
      rfl
  · intro node item hget
    change s.cache.nodeToVictims.get node = some item at hget
    have hvictims := (cloneDetailForNode_spec orders).inv_clonePhase orders.updated
      h.victimsTracked node item hget
    have hkept : victimsOf (s.step (.updateSnapshot orders)).snapshot.nodeToVictims node =
        victimsOf (clonePhase s.cache.nodeToVictims (cloneDetailForNode orders) orders.updated
          (s.snapshot.nodeToVictims, ())).1 node := by
      simp only [step, hraw, victimsOf, RawStoreImpl.get_foldl_delete]
      rw [if_neg]
      simp [hget]
    rw [hkept]
    exact hvictims

end

/-- The calls under which the snapshot stays refreshable. A node that is not in the cache is
created only if the snapshot does not have it either. -/
def Refreshable (s : PreemptionStores) : PreemptionOp → Prop
  | .addPreemptItem nodeName _ _ => s.cache.nodeToVictims.get nodeName = none →
      s.snapshot.nodeToVictims.get nodeName = none
  | .cleanUp podLister _ => CleansPending podLister s
  | .removePreemptItem _ _ _ | .updateSnapshot _ => True

instance (podLister : PodLister) (s : PreemptionStores) :
    Decidable (CleansPending podLister s) :=
  inferInstanceAs (Decidable (∀ node ∈ s.cache.nodeToVictims.keys,
    ∀ item ∈ s.cache.nodeToVictims.get node, _))

instance (s : PreemptionStores) : ∀ op, Decidable (Refreshable s op)
  | .addPreemptItem nodeName _ _ =>
    inferInstanceAs (Decidable (s.cache.nodeToVictims.get nodeName = none →
      s.snapshot.nodeToVictims.get nodeName = none))
  | .cleanUp podLister _ => inferInstanceAs (Decidable (CleansPending podLister s))
  | .removePreemptItem _ _ _ => inferInstanceAs (Decidable True)
  | .updateSnapshot _ => inferInstanceAs (Decidable True)

theorem tracked_step (h : s.Tracked) {op : PreemptionOp} (hop : Refreshable s op) :
    (s.step op).Tracked := by
  cases op with
  | addPreemptItem node victim preemptor => exact tracked_addPreemptItem h victim preemptor hop
  | removePreemptItem node victim preemptor =>
    exact tracked_removePreemptItem h node victim preemptor
  | cleanUp podLister orders => exact tracked_cleanUp h hop orders
  | updateSnapshot orders => exact tracked_updateSnapshot orders h

/-- The snapshot and the cache give the same preemptors for every node and victim. -/
def Faithful (s : PreemptionStores) : Prop :=
  ∀ (o o' : RangeOrder String) (node victim preemptor : String),
    preemptor ∈ s.snapshot.getPreemptorsByVictim o node victim ↔
      preemptor ∈ s.cache.getPreemptorsByVictim o' node victim

theorem faithful_of_viewOf
    (h : ∀ node, viewOf s.snapshot.nodeToVictims node =
      (s.cache.nodeToVictims.get node).map entryOf) : s.Faithful := by
  intro o o' node victim preemptor
  have hview := h node
  unfold viewOf at hview
  unfold SnapshotPreemptionDetails.getPreemptorsByVictim PreemptionDetails.getPreemptorsByVictim
    getPreemptorsByVictim
  cases hitem : s.cache.nodeToVictims.get node with
  | none =>
    rw [hitem, map_none, map_eq_none_iff] at hview
    simp [hview]
  | some item =>
    rw [hitem, map_some, map_eq_some_iff] at hview
    obtain ⟨detailForNode, hget, hvictims⟩ := hview
    simp only [hget, hvictims, entryOf]
    cases item.victimToPreemptors.get victim with
    | none => rfl
    | some set => simp [strings]

/-- Right after a refresh, in every run of such calls, the snapshot is faithful. -/
theorem faithful_updateSnapshot (ops : List PreemptionOp) (hops : Along step Refreshable new ops)
    (orders : RefreshOrders) :
    Faithful (step (run step new ops) (.updateSnapshot orders)) := by
  have htracked : (run step new ops).Tracked :=
    (always_of_step (P := Tracked) (fun _ _ h hop => tracked_step h hop) tracked_new hops).last
  exact faithful_of_viewOf (viewOf_updateSnapshot orders htracked)

/-- A lister that finds no pod: every preemptor is residual. -/
def emptyLister : PodLister := ⟨fun key => some ("", key, ""), fun _ _ => .notFound⟩

/-- A lister that finds every pod but one. -/
def listerWithout (preemptor : String) : PodLister :=
  ⟨fun key => some ("", key, ""), fun _ name => if name = preemptor then .notFound else .found ""⟩

def forwardCleanUp : CleanUpOrders := ⟨.forward, fun _ => .forward, fun _ _ => .forward⟩

def forwardRefresh : RefreshOrders :=
  ⟨.forward, .forward, fun _ => .forward, fun _ => .forward⟩

/-- A node is cleaned before the refresh has seen it, dropped by a clean-up after it, and created
again once the snapshot has dropped it. -/
theorem faithful_cleaned_and_recreated :
    let ops : List PreemptionOp :=
      [.addPreemptItem "node" "victim" "p", .addPreemptItem "node" "victim" "q",
        .cleanUp (listerWithout "p") forwardCleanUp, .updateSnapshot forwardRefresh,
        .cleanUp emptyLister forwardCleanUp, .updateSnapshot forwardRefresh,
        .addPreemptItem "node" "victim" "r"]
    Along step Refreshable new ops ∧
      Faithful (step (run step new ops) (.updateSnapshot forwardRefresh)) := by
  intro ops
  have hops : Along step Refreshable new ops := by decide
  exact ⟨hops, faithful_updateSnapshot ops hops forwardRefresh⟩

/-- A preemptor that a clean-up removes after the refresh stays in the snapshot. A node that is
emptied and created again between two refreshes keeps its old victims in the snapshot and its new
ones are missing. -/
theorem snapshot_stays_stale :
    let cleaned := run step new
      [.addPreemptItem "node" "victim" "p", .addPreemptItem "node" "victim" "q",
        .updateSnapshot forwardRefresh, .cleanUp (listerWithout "p") forwardCleanUp,
        .updateSnapshot forwardRefresh]
    let recreated := run step new
      [.addPreemptItem "node" "victim" "p", .updateSnapshot forwardRefresh,
        .removePreemptItem "node" "victim" "p", .addPreemptItem "node" "other" "q",
        .updateSnapshot forwardRefresh]
    ¬ Faithful cleaned ∧ ¬ Faithful recreated := by
  intro cleaned recreated
  refine ⟨fun h => ?_, fun h => ?_⟩
  · have hmem := h .forward .forward "node" "victim" "p"
    revert hmem
    decide
  · have hmem := h .forward .forward "node" "other" "q"
    revert hmem
    decide

end PreemptionStores

end GodelScheduler.SchedulerCache
