import GodelScheduler.SchedulerCache.SnapshotInvariant

/-!
# What a snapshot holds after an update

`NodeStores.Inv` holds in every reachable state: the cache stores node infos
under their names, the snapshot keeps its invariant, and the refresh skips only
what is already cloned. From it the clone phase of `updateSnapshot` overlays the
snapshot with the whole cache, and what remains is the clean-up, whose budget is
the number of stale names plus the number of names in the snapshot's own
`deleted` set (`toDelete_eq`), while it also spends it on residual nodes.

Main results:

* `updateSnapshot_stale_iff`: exactly when no name that left the cache survives
  an update;
* `updateSnapshot_lists_live`: when the snapshot lists the live nodes of the
  cache, each once, and nothing else.
-/

namespace GodelScheduler.SchedulerCache

open Library GenerationStore SnapshotStore NodeStore SnapshotState List

variable {k : NodeName} {r : Ref} {updated clean : RangeOrder NodeName} (st : SnapshotStore)

namespace SnapshotStore

/-- What the snapshot holds for a name: `some none` for the placeholder. -/
def view (k : NodeName) : Option (Option NodeInfo) :=
  (st.get k).map fun r => if r = placeHolder then none else some (st.2.info r)

theorem view_isSome (k : NodeName) : (st.view k).isSome = (st.get k).isSome := by
  simp [view]

theorem view_congr {st st' : SnapshotStore} (hget : st'.get k = st.get k)
    (hinfo : ∀ r, st.get k = some r → r ≠ placeHolder → st'.2.info r = st.2.info r) :
    st'.view k = st.view k := by
  unfold view
  rw [hget]
  cases hr : st.get k with
  | none => rfl
  | some r =>
    by_cases hne : r = placeHolder
    · simp [hne]
    · simp [hne, hinfo r hr hne]

theorem delete_view {k a : NodeName} (r : Ref) (ha : a ≠ k) :
    (st.delete k r).view a = st.view a := by
  apply view_congr
  · exact (st.1.get_delete k a).trans (if_neg ha)
  · intro x _ _
    simp [delete]

end SnapshotStore

namespace Settings

open NodeStore (deleteEntry)

/-- What the snapshot should hold for a cached node info. -/
def entry (cfg : Settings) (n : NodeInfo) : Option NodeInfo :=
  if cfg.holds n then some n.clone else none

theorem cloneFunc_eq (cfg : Settings) (st : SnapshotStore) (k : NodeName) (n : NodeInfo) :
    cfg.cloneFunc st k n =
      if cfg.holds n then
        ((deleteEntry st k).alloc n.clone).1.add k ((deleteEntry st k).alloc n.clone).2
      else (deleteEntry st k).add k placeHolder := by
  unfold cloneFunc deleteEntry
  cases st.get k <;> cases cfg.holds n <;> rfl

variable {st : SnapshotStore} {k : NodeName} {n : NodeInfo} {cfg : Settings}

theorem get_deleteEntry (st : SnapshotStore) (k a : NodeName) :
    (deleteEntry st k).get a = if a = k then none else st.get a := by
  unfold deleteEntry
  split
  · exact st.1.get_delete k a
  · next h =>
    split_ifs with ha
    · rw [ha, h]
    · rfl

theorem deleteEntry_keeps {P : SnapshotStore → Prop} (h : P st)
    (hdelete : ∀ r, st.get k = some r → P (st.delete k r)) : P (deleteEntry st k) := by
  unfold deleteEntry
  split
  · next r hr => exact hdelete r hr
  · exact h

theorem get_cloneFunc (cfg : Settings) (st : SnapshotStore) (k a : NodeName) (n : NodeInfo) :
    (cfg.cloneFunc st k n).get a =
      if a = k then some (if cfg.holds n then (deleteEntry st k).2.objs.length else placeHolder)
      else st.get a := by
  have hset : ∀ st' r, st'.get a = (deleteEntry st k).get a →
      (SnapshotStore.add st' k r).get a = if a = k then some r else st.get a := by
    intro st' r hst'
    refine (RawStoreImpl.get_set _ k a r).trans ?_
    split_ifs with ha
    · rfl
    · exact hst'.trans ((get_deleteEntry st k a).trans (if_neg ha))
  rw [cloneFunc_eq]
  by_cases hh : cfg.holds n
  · rw [if_pos hh, if_pos hh]
    exact hset _ _ rfl
  · rw [if_neg hh, if_neg hh]
    exact hset _ _ rfl

theorem deleteEntry_objs (st : SnapshotStore) (k : NodeName) :
    (deleteEntry st k).2.objs = st.2.objs :=
  deleteEntry_keeps (P := fun st' => st'.2.objs = st.2.objs) rfl fun _ _ =>
    update_objs _ _ _

theorem deleteEntry_info (st : SnapshotStore) (k : NodeName) :
    (deleteEntry st k).2.info = st.2.info := by
  funext r
  rw [SnapshotState.info, deleteEntry_objs, SnapshotState.info]

theorem deleteEntry_inv (h : SnapInv st) (k : NodeName) : SnapInv (deleteEntry st k) :=
  deleteEntry_keeps h fun _ => h.delete

theorem fresh (h : SnapInv st) (n : NodeInfo) (a : NodeName) :
    (st.alloc n).1.get a ≠ some (st.alloc n).2 := by
  intro ha
  have := h.valid a _ ha
  simp [alloc] at this

theorem cloneFunc_inv (h : SnapInv st) (hn : n.Named k) : SnapInv (cfg.cloneFunc st k n) := by
  have hc := deleteEntry_inv h k
  have hk : (deleteEntry st k).get k = none := (get_deleteEntry st k k).trans (if_pos rfl)
  rw [cloneFunc_eq]
  split_ifs
  · apply (hc.alloc n.clone).add hk
    · exact Nat.pos_iff_ne_zero.mp hc.placeHolder_lt
    · simp [alloc]
    · exact fresh hc n.clone
    · have hinfo := (deleteEntry st k).2.info_append_self n.clone
      simp only [alloc, hinfo]
      exact ⟨hn.node, hn.nmNode⟩
  · have hset := hc.setNil hk hc.placeHolder_lt hc.placeHolder_nil (.inl rfl)
    rw [SnapshotStore.add, update_placeHolder]
    exact hset

theorem cloneFunc_covered (h : NilCovered st) (hi : SnapInv st) :
    NilCovered (cfg.cloneFunc st k n) := by
  have hc := deleteEntry_inv hi k
  have hk : (deleteEntry st k).get k = none := (get_deleteEntry st k k).trans (if_pos rfl)
  have hcov : NilCovered (deleteEntry st k) := deleteEntry_keeps h fun _ => h.delete hi
  rw [cloneFunc_eq]
  split_ifs
  · exact (hcov.alloc hc n.clone).add (hc.alloc n.clone) hk
  · exact hcov.add hc hk

theorem view_cloneFunc (h : SnapInv st) (a : NodeName) :
    (cfg.cloneFunc st k n).view a = if a = k then some (cfg.entry n) else st.view a := by
  have hlen : (deleteEntry st k).2.objs.length ≠ placeHolder :=
    Nat.pos_iff_ne_zero.mp (deleteEntry_inv h k).placeHolder_lt
  by_cases ha : a = k
  · subst ha
    rw [if_pos rfl, view, get_cloneFunc, if_pos rfl, entry]
    by_cases hh : cfg.holds n
    · have hinfo := (deleteEntry st a).2.info_append_self n.clone
      simp [hh, hlen, cloneFunc_eq, SnapshotStore.add, SnapshotStore.alloc, hinfo]
    · simp [hh]
  · rw [if_neg ha]
    apply view_congr ((get_cloneFunc cfg st k a n).trans (if_neg ha))
    intro r hr _
    have hlt : r < (deleteEntry st k).2.objs.length := by
      rw [deleteEntry_objs]
      exact h.valid a r hr
    rw [cloneFunc_eq]
    split_ifs
    · simp only [SnapshotStore.add, update_info, SnapshotStore.alloc]
      rw [info_append _ hlt, deleteEntry_info]
    · simp only [SnapshotStore.add, update_info, deleteEntry_info]

theorem deleted_cloneFunc (cfg : Settings) (st : SnapshotStore) (k : NodeName) (n : NodeInfo) :
    (cfg.cloneFunc st k n).2.deleted = st.2.deleted := by
  have hentry : (deleteEntry st k).2.deleted = st.2.deleted :=
    deleteEntry_keeps (P := fun st' => st'.2.deleted = st.2.deleted) rfl fun _ _ =>
      update_deleted _ _ _
  rw [cloneFunc_eq]
  split_ifs <;> simp [SnapshotStore.add, SnapshotStore.alloc, hentry]

theorem updated_cloneFunc (cfg : Settings) (st : SnapshotStore) (k a : NodeName) (n : NodeInfo) :
    a ∈ (cfg.cloneFunc st k n).1.updatedSet ↔ a = k ∨ a ∈ st.1.updatedSet := by
  have hentry : a ∈ (deleteEntry st k).1.updatedSet ∨ a = k ↔ a = k ∨ a ∈ st.1.updatedSet := by
    unfold deleteEntry
    split
    · have := st.1.mem_updatedSet_delete k a
      simp only [SnapshotStore.delete]
      tauto
    · tauto
  rw [cloneFunc_eq, ← hentry]
  split_ifs <;> simp [SnapshotStore.add, SnapshotStore.alloc, or_comm]

theorem cloneFunc_spec (cfg : Settings) {s : ListStore NodeName NodeInfo} (hs : AllNamed s) :
    CloneSpec s cfg.cloneFunc cfg.entry SnapshotStore.view SnapInv where
  inv _ k n hk h := cloneFunc_inv h (hs k n hk)
  inv_book _ _ _ h := h.congr (fun _ => rfl) rfl (fun _ => NodeInfo.SameObjects.refl _) rfl
  view_clone _ _ _ _ h a := view_cloneFunc h a
  view_book _ _ _ := rfl
  updated st k n a := updated_cloneFunc cfg st k a n

end Settings

namespace SnapshotStore

variable {st : SnapshotStore}

theorem sameObjects_foldl {f : NodeInfo → Pod → NodeInfo}
    (hf : ∀ n p, NodeInfo.SameObjects n (f n p)) (ps : List Pod) (n : NodeInfo) :
    NodeInfo.SameObjects n (ps.foldl f n) :=
  List.foldlRecOn ps f (NodeInfo.SameObjects.refl n) fun m hm p _ => hm.trans (hf m p)

theorem sameObjects_removeVictim (n : NodeInfo) (p : Pod) :
    NodeInfo.SameObjects n (removeVictim n p) := by
  unfold removeVictim
  split
  · next m hm => exact NodeInfo.sameObjects_removePod hm
  · exact NodeInfo.SameObjects.refl n

theorem get_getOrCreateNode (st : SnapshotStore) (k : NodeName) :
    (st.getOrCreateNode k).1.get k = some (st.getOrCreateNode k).2 := by
  unfold getOrCreateNode
  split <;> exact (RawStoreImpl.get_set _ k k _).trans (if_pos rfl)

theorem set_self_get (hk : st.get k = some r) (a : NodeName) : (st.set k r).get a = st.get a := by
  refine (st.1.get_set k a r).trans ?_
  split_ifs with ha
  · rw [ha, hk]
  · rfl

theorem getOrCreateNode_inv (h : SnapInv st) (k : NodeName) : SnapInv (st.getOrCreateNode k).1 := by
  unfold getOrCreateNode
  split
  · next r hr =>
    exact h.congr (set_self_get hr) rfl (fun _ => NodeInfo.SameObjects.refl _) rfl
  · next hk =>
    have ha := h.alloc NodeInfo.new
    have hd : SnapInv ((st.alloc NodeInfo.new).1.1, { (st.alloc NodeInfo.new).1.2 with
        deleted := (st.alloc NodeInfo.new).1.2.deleted.insert k () }) :=
      ha.congr (fun _ => rfl) rfl (fun _ => NodeInfo.SameObjects.refl _) rfl
    apply hd.setNil hk
    · simp [alloc]
    · have := st.2.info_append_self NodeInfo.new
      exact congrArg NodeInfo.objectIsNil this
    · right
      exact Settings.fresh h NodeInfo.new

theorem getOrCreateNode_noNil (h : NoNil st) (hi : SnapInv st) (k : NodeName) :
    NoNil (st.getOrCreateNode k).1 := by
  unfold getOrCreateNode
  split
  · exact h
  · intro b x hx
    have hinfo := st.2.info_append NodeInfo.new (hi.listed_lt b x hx)
    exact (congrArg NodeInfo.objectIsNil hinfo).trans (h b x hx)

theorem getOrCreateNode_view (hi : SnapInv st) {k a : NodeName} (ha : a ≠ k) :
    (st.getOrCreateNode k).1.view a = st.view a := by
  unfold getOrCreateNode
  split
  · next r hr => exact view_congr (set_self_get hr a) fun _ _ _ => rfl
  · apply view_congr
    · exact (RawStoreImpl.get_set _ k a _).trans (if_neg ha)
    · intro x hx _
      exact st.2.info_append NodeInfo.new (hi.valid a x hx)

theorem getOrCreateNode_raw (st : SnapshotStore) (k : NodeName) :
    ∃ r, (st.getOrCreateNode k).1.1 = st.1.set k r := by
  unfold getOrCreateNode
  split <;> exact ⟨_, rfl⟩

/-- What a snapshot assume or forget keeps. -/
structure Keeps (st st' : SnapshotStore) : Prop where
  inv : SnapInv st'
  noNil : NoNil st → NoNil st'
  tracks : ∀ (s : ListStore NodeName NodeInfo) (entry : NodeInfo → Option NodeInfo),
    Tracks s entry st.1 st.view → Tracks s entry st'.1 st'.view

theorem keeps_refl (h : SnapInv st) : Keeps st st := ⟨h, id, fun _ _ => id⟩

section

variable {f : NodeInfo → NodeInfo} (h : SnapInv st) (hk : st.get k = some r)
include h hk

theorem modify_view (f : NodeInfo → NodeInfo) {a : NodeName} (ha : a ≠ k) :
    SnapshotStore.view (st.1, st.2.modifyInfo r f) a = st.view a := by
  apply view_congr
  · rfl
  · intro x hx hne
    rw [info_modifyInfo f (h.valid k r hk), if_neg]
    rintro rfl
    exact ha (h.inj a k x hx hk hne)

variable (hf : NodeInfo.SameObjects (st.2.info r) (f (st.2.info r)))
include hf

theorem modify_inv : SnapInv (st.1, st.2.modifyInfo r f) := by
  apply h.congr
  · intro a
    rfl
  · simp [SnapshotState.modifyInfo]
  · intro x
    rw [info_modifyInfo f (h.valid k r hk)]
    split_ifs with hx
    · rw [hx]
      exact hf
    · exact NodeInfo.SameObjects.refl _
  · rfl

theorem modify_noNil (hn : NoNil st) : NoNil (st.1, st.2.modifyInfo r f) := by
  intro b x hx
  simp only [info_modifyInfo f (h.valid k r hk)]
  split_ifs with hxr
  · rw [hf.objectIsNil, ← hxr]
    exact hn b x hx
  · exact hn b x hx

/-- The pods of a stored node info are rewritten, and it is stored again or dropped. -/
theorem modify_dropOrSet_keeps :
    Keeps st (SnapshotStore.dropOrSet (st.1, st.2.modifyInfo r f) k r) := by
  have hi := modify_inv h hk hf
  have hview : ∀ st' : SnapshotStore, (∀ a ≠ k, st'.get a = st.get a) →
      st'.2.info = (st.2.modifyInfo r f).info → ∀ a ≠ k, st'.view a = st.view a := by
    intro st' hget hinfo a ha
    rw [← modify_view h hk f ha]
    exact view_congr (hget a ha) fun _ _ _ => by rw [hinfo]
  simp only [dropOrSet]
  split
  · next hnil =>
    constructor
    · exact hi.dropNil hk hnil.2 _
    · exact modify_noNil h hk hf
    · intro s entry ht
      apply ht.rawDelete
      exact hview _ (fun a ha => (st.1.get_delete k a).trans (if_neg ha)) rfl
  · constructor
    · exact hi.congr (set_self_get hk) rfl (fun _ => NodeInfo.SameObjects.refl _) rfl
    · exact modify_noNil h hk hf
    · intro s entry ht
      apply ht.rawSet
      exact hview _ (fun a _ => set_self_get hk a) rfl

end

theorem assumePod_keeps (h : SnapInv st) (podInfo : CachePodInfo) :
    Keeps st (st.assumePod podInfo).1 := by
  unfold assumePod
  split
  · exact keeps_refl h
  · next k _ =>
    have hi := getOrCreateNode_inv h k
    have hk := get_getOrCreateNode st k
    have hf : NodeInfo.SameObjects ((st.getOrCreateNode k).1.2.info (st.getOrCreateNode k).2)
        (podInfo.victims.foldl removeVictim
          (((st.getOrCreateNode k).1.2.info (st.getOrCreateNode k).2).addPod podInfo.pod)) :=
      (NodeInfo.sameObjects_addPod _ _).trans (sameObjects_foldl sameObjects_removeVictim _ _)
    constructor
    · exact modify_inv hi hk hf
    · intro hn
      exact modify_noNil hi hk hf (getOrCreateNode_noNil hn h k)
    · intro s entry ht
      obtain ⟨r, hr⟩ := getOrCreateNode_raw st k
      have hview : ∀ a, a ≠ k → SnapshotStore.view ((st.getOrCreateNode k).1.1,
          (st.getOrCreateNode k).1.2.modifyInfo (st.getOrCreateNode k).2 fun n =>
            podInfo.victims.foldl removeVictim (n.addPod podInfo.pod)) a = st.view a := by
        intro a ha
        rw [modify_view hi hk _ ha, getOrCreateNode_view h ha]
      have := ht.rawSet k r hview
      rwa [← hr] at this

theorem forgetPod_keeps (h : SnapInv st) (podInfo : CachePodInfo) :
    Keeps st (st.forgetPod podInfo).1 := by
  unfold forgetPod
  split
  · exact keeps_refl h
  · split
    · exact keeps_refl h
    · next r hr =>
      split
      · exact keeps_refl h
      · next n hn =>
        apply modify_dropOrSet_keeps h hr
        exact (NodeInfo.sameObjects_removePod hn).trans
          (sameObjects_foldl NodeInfo.sameObjects_addPod _ n)

end SnapshotStore

structure NodeStores.Inv (cfg : Settings) (s : NodeStores) : Prop where
  named : AllNamed s.cache.store
  snap : SnapInv s.snapshot
  tracks : Tracks s.cache.store cfg.entry s.snapshot.1 s.snapshot.view

theorem Writes.tracks {X : Type*} {s s' : ListStore NodeName NodeInfo} (h : Writes s s')
    {entry : NodeInfo → X} {raw : RawStoreImpl NodeName Ref} {view : NodeName → Option X}
    (ht : Tracks s entry raw view) : Tracks s' entry raw view := by
  induction h with
  | refl => exact ht
  | set _ _ ih => exact ih.listSet _ _
  | delete _ ih => exact ih.listDelete _

namespace NodeStore

variable {cache : NodeStore} {st : SnapshotStore}

theorem get_foldl_deleteEntry (ks : List NodeName) (st : SnapshotStore) (a : NodeName) :
    (ks.foldl deleteEntry st).get a = if a ∈ ks then none else st.get a := by
  induction ks generalizing st with
  | nil => simp
  | cons k ks ih =>
    rw [foldl_cons, ih, Settings.get_deleteEntry]
    by_cases ha : a ∈ ks <;> by_cases hk : a = k <;> simp [ha, hk]

section

variable (cache : NodeStore)

theorem cleanFunc_eq (o : RangeOrder NodeName) (st : SnapshotStore) : cache.cleanFunc o st =
      (((o.list st.1.keys).filter cache.deletable).take (cache.toDelete st).toNat).foldl
        deleteEntry st := by
  unfold cleanFunc
  split_ifs with h
  · exact deleteWhile_eq _ _ _ _ _
  · have : (cache.toDelete st).toNat = 0 := by omega
    rw [this]
    rfl

theorem cleanFunc_induction {P : SnapshotStore → Prop}
    (hstep : ∀ st k r, cache.deletable k = true → P st → st.get k = some r → P (st.delete k r))
    (o : RangeOrder NodeName) (h : P st) : P (cache.cleanFunc o st) := by
  rw [cleanFunc_eq]
  apply List.foldlRecOn _ _ h
  intro st' hst' k hk
  have hdel := (mem_filter.mp (mem_of_mem_take hk)).2
  exact Settings.deleteEntry_keeps hst' fun r => hstep st' k r hdel hst'

/-- A residual node of the cache: stored, with neither a Node nor an NMNode. -/
def residual (k : NodeName) : Bool := (cache.get k).any NodeInfo.objectIsNil

def residualCount : ℕ := (cache.store.keys.filter cache.residual).length

theorem deletable_eq (k : NodeName) :
    cache.deletable k = ((cache.store.get k).isNone || cache.residual k) := by
  unfold deletable residual get
  cases cache.store.get k <;> simp

end

section

variable {raw : RawStoreImpl NodeName Ref}
  (hcov : ∀ k, (cache.store.get k).isSome → (raw.get k).isSome)
include hcov

theorem residual_filter_length : (raw.keys.filter cache.residual).length = cache.residualCount := by
  apply List.Perm.length_eq
  apply (perm_ext_iff_of_nodup (raw.keys_nodup.filter _) (cache.store.keys_nodup.filter _)).mpr
  intro k
  rw [mem_filter, mem_filter, raw.mem_keys, cache.store.mem_keys]
  apply and_congr_left
  intro hres
  have hsome : (cache.store.get k).isSome := by
    unfold residual get at hres
    cases h : cache.store.get k <;> simp_all
  simp [hsome, hcov k hsome]

theorem deletable_filter_length :
    (raw.keys.filter cache.deletable).length =
      (raw.keys.filter fun k => (cache.store.get k).isNone).length + cache.residualCount := by
  have hsplit := length_eq_length_filter_add
    (l := raw.keys.filter cache.deletable) fun k => (cache.store.get k).isNone
  rw [filter_filter, filter_filter] at hsplit
  have hstale : raw.keys.filter (fun k => (cache.store.get k).isNone && cache.deletable k) =
      raw.keys.filter fun k => (cache.store.get k).isNone := by
    apply filter_congr
    intro k _
    rw [deletable_eq]
    cases (cache.store.get k).isNone <;> simp
  have hres : raw.keys.filter (fun k => !(cache.store.get k).isNone && cache.deletable k) =
      raw.keys.filter cache.residual := by
    apply filter_congr
    intro k _
    rw [deletable_eq]
    unfold residual get
    cases cache.store.get k <;> simp
  rw [hstale, hres, residual_filter_length hcov] at hsplit
  exact hsplit

end

/-- Once the whole cache is in the snapshot, the budget misses the deletable entries by the
residual nodes of the cache, less the size of the snapshot's own deleted set. -/
theorem toDelete_eq (hcov : ∀ k, (cache.store.get k).isSome → (st.get k).isSome) :
    cache.toDelete st + cache.residualCount =
      (st.1.keys.filter cache.deletable).length + GoMap.len st.2.deleted := by
  have hcov' : ∀ k, (cache.store.get k).isSome → (st.1.get k).isSome := hcov
  have hlen := len_sub_len st.1 hcov
  have hdel := deletable_filter_length hcov'
  unfold toDelete
  omega

end NodeStore

namespace NodeStores

variable {cfg : Settings} {s : NodeStores}

/-- The snapshot before the clean-up of an update. -/
def cloned (cfg : Settings) (s : NodeStores) (updated : RangeOrder NodeName) : SnapshotStore :=
  clonePhase s.cache.store cfg.cloneFunc updated s.snapshot

variable (h : s.Inv cfg)
include h

section

variable (updated : RangeOrder NodeName)

theorem cloned_inv : SnapInv (s.cloned cfg updated) :=
  (cfg.cloneFunc_spec h.named).inv_clonePhase updated h.snap

theorem cloned_view (k : NodeName) :
    (s.cloned cfg updated).view k = ((s.cache.get k).map cfg.entry).or (s.snapshot.view k) :=
  (cfg.cloneFunc_spec h.named).view_clonePhase updated h.snap h.tracks k

theorem cloned_get_isSome (k : NodeName) : ((s.cloned cfg updated).get k).isSome =
      ((s.cache.get k).isSome || (s.snapshot.get k).isSome) := by
  rw [← view_isSome, cloned_view h, ← view_isSome]
  cases s.cache.get k <;> simp

theorem cloned_covers (k : NodeName)
    (hk : (s.cache.store.get k).isSome) : ((s.cloned cfg updated).get k).isSome := by
  rw [cloned_get_isSome h]
  have : (s.cache.get k).isSome = true := hk
  simp [this]

theorem cloned_deleted : (s.cloned cfg updated).2.deleted = s.snapshot.2.deleted := by
  have hspec := (cfg.cloneFunc_spec h.named).and
    (Q := fun st => st.2.deleted = s.snapshot.2.deleted)
    (fun st k n _ _ hq => (cfg.deleted_cloneFunc st k n).trans hq) (fun _ _ _ hq => hq)
  exact (hspec.inv_clonePhase updated ⟨h.snap, rfl⟩).2

theorem cloned_tracks :
    Tracks s.cache.store cfg.entry (s.cloned cfg updated).1 (s.cloned cfg updated).view := by
  apply Tracks.of_view
  · exact le_rfl
  · intro k n hk
    rw [cloned_view h]
    have : s.cache.get k = some n := hk
    simp [this]

end

theorem step_inv (op : Op) : (s.step cfg op).Inv cfg := by
  cases op with
  | cache op =>
    have hw := op.apply_writes cfg.cacheHandler h.named
    exact ⟨hw.allNamed h.named, h.snap, hw.tracks h.tracks⟩
  | snapshotAssumePod podInfo =>
    have hk := assumePod_keeps h.snap podInfo
    exact ⟨h.named, hk.inv, hk.tracks _ _ h.tracks⟩
  | snapshotForgetPod podInfo =>
    have hk := forgetPod_keeps h.snap podInfo
    exact ⟨h.named, hk.inv, hk.tracks _ _ h.tracks⟩
  | updateSnapshot updated clean =>
    have hclean := cleanFunc_induction s.cache
      (P := fun st => SnapInv st ∧ Tracks s.cache.store cfg.entry st.1 st.view)
      (fun st k r _ hst hr => ?_) clean ⟨cloned_inv h updated, cloned_tracks h updated⟩
    · exact ⟨h.named, hclean.1, hclean.2⟩
    · exact ⟨hst.1.delete hr, hst.2.rawDelete k fun a ha => delete_view st r ha⟩

omit h

theorem inv_new (cfg : Settings) : new.Inv cfg := ⟨allNamed_new, SnapInv.new, Tracks.new _⟩

theorem run_inv (cfg : Settings) (ops : List Op) : (run (step cfg) new ops).Inv cfg := by
  apply run_invariant
  · intro s op h
    exact step_inv h op
  · exact inv_new cfg

/-- The stale names of the snapshot: those that left the cache. -/
def NoStale (s : NodeStores) : Prop := ∀ k, (s.snapshot.get k).isSome → (s.cache.get k).isSome

theorem get_updateSnapshot (s : NodeStores) (updated clean : RangeOrder NodeName) (k : NodeName) :
    (s.step cfg (.updateSnapshot updated clean)).snapshot.get k =
      if k ∈ ((clean.list (s.cloned cfg updated).1.keys).filter s.cache.deletable).take
          (s.cache.toDelete (s.cloned cfg updated)).toNat then none
      else (s.cloned cfg updated).get k := by
  change (s.cache.cleanFunc clean (s.cloned cfg updated)).get k = _
  rw [cleanFunc_eq, get_foldl_deleteEntry]

theorem get_updateSnapshot_of_le (h : s.Inv cfg)
    (hle : s.cache.residualCount ≤ GoMap.len s.snapshot.2.deleted)
    (updated clean : RangeOrder NodeName) (k : NodeName) :
    (s.step cfg (.updateSnapshot updated clean)).snapshot.get k =
      if s.cache.deletable k then none else (s.cloned cfg updated).get k := by
  have hbudget := toDelete_eq (cloned_covers h updated)
  rw [cloned_deleted h] at hbudget
  have hperm := ((clean.perm (s.cloned cfg updated).1.keys).filter s.cache.deletable).length_eq
  rw [get_updateSnapshot, take_of_length_le (by omega)]
  simp only [mem_filter, RangeOrder.mem_list, RawStoreImpl.mem_keys]
  by_cases hd : s.cache.deletable k
  · by_cases hk : ((s.cloned cfg updated).1.get k).isSome
    · simp [hd, hk]
    · have hnone : (s.cloned cfg updated).get k = none := Option.not_isSome_iff_eq_none.mp hk
      simp [hd, hnone]
  · simp [hd]

theorem exists_name_survives (h : s.Inv cfg)
    (hlt : GoMap.len s.snapshot.2.deleted < s.cache.residualCount)
    (hsnap : (s.snapshot.get k).isSome) (updated : RangeOrder NodeName) :
    ∃ clean, ((s.step cfg (.updateSnapshot updated clean)).snapshot.get k).isSome := by
  have hbudget := toDelete_eq (cloned_covers h updated)
  rw [cloned_deleted h] at hbudget
  have hk : ((s.cloned cfg updated).get k).isSome := by
    rw [cloned_get_isSome h]
    simp [hsnap]
  have hsmall : s.cache.toDelete (s.cloned cfg updated) <
      (((s.cloned cfg updated).1.keys.filter s.cache.deletable).length : ℤ) := by omega
  obtain ⟨clean, hclean⟩ := exists_order_not_deleted s.cache.deletable
    (s.cloned cfg updated).1.keys_nodup ((s.cloned cfg updated).1.mem_keys.mpr hk) hsmall
  refine ⟨clean, ?_⟩
  rw [get_updateSnapshot, if_neg hclean]
  exact hk

/-- Right after an update of a reachable state, in every order of its loops, no name is left that
is not in the cache, exactly when there was none before or the cache has no more residual nodes
than the snapshot's own deleted set has names. -/
theorem updateSnapshot_stale_iff (cfg : Settings) (ops : List Op) :
    let s := run (step cfg) new ops
    (∀ updated clean, (s.step cfg (.updateSnapshot updated clean)).NoStale) ↔
      s.NoStale ∨ s.cache.residualCount ≤ GoMap.len s.snapshot.2.deleted := by
  intro s
  have h : s.Inv cfg := run_inv cfg ops
  constructor
  · intro hall
    by_contra hcon
    rw [not_or, NoStale, not_forall] at hcon
    obtain ⟨⟨k, hk⟩, hlt⟩ := hcon
    rw [Classical.not_imp, Bool.not_eq_true, Option.isSome_eq_false_iff,
      Option.isNone_iff_eq_none] at hk
    obtain ⟨clean, hclean⟩ := exists_name_survives h (by omega) hk.1 RangeOrder.forward
    have hin : (s.cache.get k).isSome := hall RangeOrder.forward clean k hclean
    rw [hk.2] at hin
    cases hin
  · rintro (hstale | hle) updated clean k hk
    · rw [get_updateSnapshot] at hk
      split_ifs at hk
      · cases hk
      · rw [cloned_get_isSome h, Bool.or_eq_true] at hk
        rcases hk with hk | hk
        · exact hk
        · exact hstale k hk
    · rw [get_updateSnapshot_of_le h hle] at hk
      split_ifs at hk with hd
      · cases hk
      · rw [deletable_eq, Bool.or_eq_true, not_or, Bool.not_eq_true,
          Option.isNone_eq_false_iff] at hd
        exact hd.1

def node1 : Node := { name := nodeNamed "-1" }

def node2 : Node := { name := nodeNamed "-2" }

def podOnNode2 : Pod :=
  { uid := "uid-1", ns := "default", name := "pod-1", nodeName := some node2.name }

/-- The deleted `node-1` stays in the snapshot: the pod of the unknown `node-2` makes a residual
node, and the clean-up spends its budget on it. -/
theorem updateSnapshot_keeps_deleted_node :
    ¬ (run (step {}) new
      [.cache (.addNode node1), .updateSnapshot .forward .forward, .cache (.addPod podOnNode2),
        .cache (.deleteNode node1), .updateSnapshot .forward (.last node1.name)]).NoStale := by
  intro h
  have hin := h node1.name (by decide)
  revert hin
  decide

/-- The clone the snapshot should list for a name: that of a cached node info that has a Node or
NMNode and that the snapshot holds itself. -/
def liveClone (cfg : Settings) (cache : NodeStore) (k : NodeName) : Option NodeInfo :=
  match cache.get k with
  | some n => if !n.objectIsNil && cfg.holds n then some n.clone else none
  | none => none

def liveNodes (cfg : Settings) (cache : NodeStore) : List NodeInfo :=
  cache.store.keys.filterMap (liveClone cfg cache)

variable {cache : NodeStore}

theorem liveClone_eq_some {x : NodeInfo} :
    liveClone cfg cache k = some x ↔ ∃ n, cache.get k = some n ∧ n.objectIsNil = false ∧
      cfg.holds n = true ∧ n.clone = x := by
  unfold liveClone
  cases cache.get k with
  | none => simp
  | some n => simp [and_assoc]

theorem mem_liveNodes {x : NodeInfo} :
    x ∈ liveNodes cfg cache ↔ ∃ k n, cache.get k = some n ∧ n.objectIsNil = false ∧
      cfg.holds n = true ∧ n.clone = x := by
  simp only [liveNodes, mem_filterMap, liveClone_eq_some]
  constructor
  · rintro ⟨k, -, hx⟩
    exact ⟨k, hx⟩
  · rintro ⟨k, n, hn, hx⟩
    refine ⟨k, ?_, n, hn, hx⟩
    rw [ListStore.mem_keys]
    exact Option.isSome_iff_exists.mpr ⟨n, hn⟩

theorem nodup_liveNodes (h : AllNamed cache.store) : (liveNodes cfg cache).Nodup := by
  have hname : ∀ a x, liveClone cfg cache a = some x → x.getNodeName = some a := by
    intro a x hx
    obtain ⟨n, hn, hlive, -, rfl⟩ := liveClone_eq_some.mp hx
    exact (h a n hn).getNodeName hlive
  apply cache.store.keys_nodup.filterMap
  intro k k' x hx hx'
  exact Option.some.inj ((hname k x hx).symm.trans (hname k' x hx'))

/-- An update whose clean-up reaches everything it should: its budget covers the residual nodes,
or there is nothing stale and no residual node is held by the snapshot itself. -/
def Clean (cfg : Settings) (s : NodeStores) : Op → Prop
  | .updateSnapshot _ _ =>
    s.cache.residualCount ≤ GoMap.len s.snapshot.2.deleted ∨
      s.NoStale ∧ ∀ k n, s.cache.get k = some n → n.objectIsNil = true → cfg.holds n = false
  | _ => True

theorem info_updateSnapshot (cfg : Settings) (s : NodeStores)
    (updated clean : RangeOrder NodeName) :
    (s.step cfg (.updateSnapshot updated clean)).snapshot.2.info =
      (s.cloned cfg updated).2.info := by
  apply cleanFunc_induction s.cache (P := fun st => st.2.info = (s.cloned cfg updated).2.info)
  · intro st k r _ hst _
    rw [← hst]
    exact update_info _ _ _
  · rfl

/-- After a clean update every node info stored is the clone of a live cached one. -/
theorem stored_of_clean (h : s.Inv cfg) (hc : s.Clean cfg (.updateSnapshot updated clean))
    (hk : (s.step cfg (.updateSnapshot updated clean)).snapshot.get k = some r)
    (hr : r ≠ placeHolder) :
    ∃ n, s.cache.get k = some n ∧ n.objectIsNil = false ∧ cfg.holds n = true ∧
      (s.cloned cfg updated).2.info r = n.clone := by
  have hcl : (s.cloned cfg updated).get k = some r := by
    rw [get_updateSnapshot] at hk
    split_ifs at hk
    exact hk
  have hview := cloned_view h updated k
  rw [view, hcl, Option.map_some, if_neg hr] at hview
  cases hget : s.cache.get k with
  | none =>
    rcases hc with hle | ⟨hstale, -⟩
    · rw [get_updateSnapshot_of_le h hle, deletable_eq] at hk
      have hnone : s.cache.store.get k = none := hget
      rw [hnone] at hk
      cases hk
    · have hsnap : ((s.cloned cfg updated).get k).isSome := by rw [hcl]; rfl
      rw [cloned_get_isSome h, hget, Option.isSome_none, Bool.false_or] at hsnap
      have := hstale k hsnap
      rw [hget] at this
      cases this
  | some n =>
    rw [hget, Option.map_some, Option.some_or, Option.some.injEq, Settings.entry] at hview
    split_ifs at hview with hheld
    refine ⟨n, rfl, ?_, hheld, Option.some.inj hview⟩
    rw [Bool.eq_false_iff]
    intro hnil
    rcases hc with hle | ⟨-, hres⟩
    · rw [get_updateSnapshot_of_le h hle, deletable_eq] at hk
      simp [NodeStore.residual, hget, hnil] at hk
    · rw [hres k n hget hnil] at hheld
      cases hheld

theorem live_stored (h : s.Inv cfg) (updated clean : RangeOrder NodeName) {n : NodeInfo}
    (hget : s.cache.get k = some n) (hlive : n.objectIsNil = false) (hheld : cfg.holds n = true) :
    ∃ r, (s.step cfg (.updateSnapshot updated clean)).snapshot.get k = some r ∧
      (s.cloned cfg updated).2.info r = n.clone := by
  have hview := cloned_view h updated k
  rw [hget, Option.map_some, Option.some_or, Settings.entry, if_pos hheld, view,
    Option.map_eq_some_iff] at hview
  obtain ⟨r, hr, hinfo⟩ := hview
  split_ifs at hinfo with hne
  refine ⟨r, ?_, Option.some.inj hinfo⟩
  rw [get_updateSnapshot, if_neg]
  · exact hr
  · intro hmem
    have hdel := (mem_filter.mp (mem_of_mem_take hmem)).2
    have hstore : s.cache.store.get k = some n := hget
    rw [deletable_eq, NodeStore.residual, hget, hstore] at hdel
    simp [hlive] at hdel

theorem step_noNil (h : s.Inv cfg) (hn : NoNil s.snapshot) {op : Op} (hc : s.Clean cfg op) :
    NoNil (s.step cfg op).snapshot := by
  cases op with
  | cache op => exact hn
  | snapshotAssumePod podInfo => exact (assumePod_keeps h.snap podInfo).noNil hn
  | snapshotForgetPod podInfo => exact (forgetPod_keeps h.snap podInfo).noNil hn
  | updateSnapshot updated clean =>
    have hspec := (cfg.cloneFunc_spec h.named).and
      (fun _ _ _ _ hi hq => Settings.cloneFunc_covered hq hi) (fun _ _ _ hq => hq)
    have hcloned := hspec.inv_clonePhase updated ⟨h.snap, NilCovered.of_noNil hn⟩
    have hcov := cleanFunc_induction s.cache
      (P := fun st => SnapInv st ∧ NilCovered st)
      (fun st k r _ hst hr => ⟨hst.1.delete hr, hst.2.delete hst.1 hr⟩) clean hcloned
    apply hcov.2.noNil
    intro k r hk hr
    obtain ⟨n, -, hlive, -, hinfo⟩ := stored_of_clean h hc hk hr
    have := congrFun (info_updateSnapshot cfg s updated clean) r
    rw [hinfo] at this
    exact (congrArg NodeInfo.objectIsNil this).trans hlive

theorem clean_new (cfg : Settings) : new.Inv cfg ∧ NoNil new.snapshot := by
  refine ⟨inv_new cfg, ?_⟩
  intro b r hr
  cases b <;> cases hr

theorem step_good (h : s.Inv cfg ∧ NoNil s.snapshot) {op : Op} (hc : s.Clean cfg op) :
    (s.step cfg op).Inv cfg ∧ NoNil (s.step cfg op).snapshot :=
  ⟨step_inv h.1 op, step_noNil h.1 h.2 hc⟩

end NodeStores

namespace SnapshotStore

variable {st : SnapshotStore}

theorem mem_list (st : SnapshotStore) (x : NodeInfo) :
    x ∈ st.list ↔ ∃ b, ∃ r ∈ st.2.listed b, st.2.info r = x := by
  simp only [list, mem_map, mem_append]
  constructor
  · rintro ⟨r, hr | hr, hx⟩
    · exact ⟨true, r, hr, hx⟩
    · exact ⟨false, r, hr, hx⟩
  · rintro ⟨b, r, hr, hx⟩
    cases b
    · exact ⟨r, .inr hr, hx⟩
    · exact ⟨r, .inl hr, hx⟩

theorem exists_nodeName (hn : NoNil st) {b : Bool} {r : Ref} (hr : r ∈ st.2.listed b) :
    ∃ k, st.2.nodeName r = some k := by
  rw [← Option.isSome_iff_exists, Option.isSome_iff_ne_none]
  intro hnone
  have := (NodeInfo.objectIsNil_iff _).mpr hnone
  rw [hn b r hr] at this
  cases this

/-- Without nameless entries the listed names are distinct, also across the two lists. -/
theorem nodup_listed_names (h : SnapInv st) (hn : NoNil st) :
    (st.list.map NodeInfo.getNodeName).Nodup := by
  have hname : st.list.map NodeInfo.getNodeName =
      (st.2.listed true).map st.2.nodeName ++ (st.2.listed false).map st.2.nodeName := by
    rw [list, map_map, map_append]
    rfl
  rw [hname, nodup_append]
  refine ⟨(h.wf true).keys_nodup, (h.wf false).keys_nodup, ?_⟩
  intro x hx y hy hxy
  obtain ⟨r, hr, rfl⟩ := mem_map.mp hx
  obtain ⟨r', hr', rfl⟩ := mem_map.mp hy
  obtain ⟨k, hk⟩ := exists_nodeName hn hr
  have hget := h.listed_stored true r hr k hk
  have hget' := h.listed_stored false r' hr' k (hxy.symm.trans hk)
  obtain rfl := Option.some.inj (hget.symm.trans hget')
  have ht := h.listed_partition true r hr
  rw [h.listed_partition false r hr'] at ht
  cases ht

end SnapshotStore

namespace NodeStores

variable {cfg : Settings} {s : NodeStores}

theorem mem_list_updateSnapshot (h : s.Inv cfg ∧ NoNil s.snapshot)
    (hc : s.Clean cfg (.updateSnapshot updated clean)) (x : NodeInfo) :
    x ∈ (s.step cfg (.updateSnapshot updated clean)).snapshot.list ↔ x ∈ liveNodes cfg s.cache := by
  obtain ⟨hinv, hnil⟩ := step_good h hc
  rw [mem_list, mem_liveNodes, info_updateSnapshot]
  constructor
  · rintro ⟨b, r, hr, rfl⟩
    obtain ⟨k, hk⟩ := exists_nodeName hnil hr
    have hget := hinv.snap.listed_stored b r hr k hk
    obtain ⟨n, hn, hl, hheld, hinfo⟩ :=
      stored_of_clean h.1 hc hget (hinv.snap.listed_ne b r hr)
    exact ⟨k, n, hn, hl, hheld, hinfo.symm⟩
  · rintro ⟨k, n, hn, hl, hheld, rfl⟩
    obtain ⟨r, hr, hinfo⟩ := live_stored h.1 updated clean hn hl hheld
    refine ⟨_, r, hinv.snap.stored_listed k r hr ?_, hinfo⟩
    rw [info_updateSnapshot, hinfo]
    exact hl

/-- In a run whose updates are all clean, right after an update the two partition lists hold the
clone of every live node of the cache, each once, and nothing else. Live nodes are those of the
snapshot's sub-cluster. -/
theorem updateSnapshot_lists_live (cfg : Settings) (ops : List Op)
    (updated clean : RangeOrder NodeName)
    (h : Along (step cfg) (Clean cfg) new (ops ++ [.updateSnapshot updated clean])) :
    let s := run (step cfg) new (ops ++ [.updateSnapshot updated clean])
    (s.snapshot.list.map NodeInfo.getNodeName).Nodup ∧
      s.snapshot.list.Perm (liveNodes cfg s.cache) ∧
      ∀ n ∈ s.snapshot.list, n.objectIsNil = false := by
  intro s
  obtain ⟨hops, hlast, -⟩ := (along_append ops _).mp h
  have hgood := (always_of_step (P := fun s => s.Inv cfg ∧ NoNil s.snapshot)
    (fun _ _ hs hc => step_good hs hc) (clean_new cfg) hops).last
  have hs : s = (run (step cfg) new ops).step cfg (.updateSnapshot updated clean) := by
    simp only [s, run_append, run_cons, run_nil]
  obtain ⟨hinv, hnil⟩ := step_good hgood hlast
  have hnodup := nodup_listed_names hinv.snap hnil
  rw [← hs] at hinv hnil hnodup
  have hmem : ∀ x, x ∈ s.snapshot.list ↔ x ∈ liveNodes cfg s.cache := by
    intro x
    rw [hs]
    exact mem_list_updateSnapshot hgood hlast x
  refine ⟨hnodup, ?_, ?_⟩
  · exact (perm_ext_iff_of_nodup (hnodup.of_map _) (nodup_liveNodes hinv.named)).mpr hmem
  · intro n hn
    obtain ⟨b, r, hr, rfl⟩ := (mem_list _ n).mp hn
    exact hnil b r hr

/-- The residual node of a pod whose node is unknown is listed. -/
theorem updateSnapshot_lists_residual :
    ¬ ∀ n ∈ (run (step {}) new
      [.cache (.addPod podOnNode2), .updateSnapshot .forward .forward]).snapshot.list,
        n.objectIsNil = false := by
  decide

/-- The residual node of the pod is outside the snapshot's sub-cluster. -/
theorem updateSnapshot_lists_live_node1 :
    let cfg : Settings := { snapshotHandler := { subCluster := "x" } }
    let s := run (step cfg) new [.cache (.addNode { node1 with subCluster := "x" }),
      .cache (.addPod podOnNode2), .updateSnapshot .forward .forward]
    s.cache.residualCount = 1 ∧ s.snapshot.list.Perm (liveNodes cfg s.cache) ∧
      s.snapshot.list.length = 1 := by
  intro cfg s
  refine ⟨by decide, (updateSnapshot_lists_live cfg
    [.cache (.addNode { node1 with subCluster := "x" }), .cache (.addPod podOnNode2)] .forward
    .forward ⟨trivial, trivial, .inr ⟨?_, ?_⟩, trivial⟩).2.1, by decide⟩
  · intro k hk
    cases hk
  · intro k n _ hnil
    simp_all [cfg, Settings.holds, NodeInfo.nodeInfoBelongToSubCluster, NodeInfo.objectIsNil]

/-- Whatever the run and its leftovers, an update lists the clone of every live node. -/
theorem updateSnapshot_misses_no_live (cfg : Settings) (ops : List Op)
    (updated clean : RangeOrder NodeName) :
    let s := run (step cfg) new ops
    liveNodes cfg s.cache ⊆ (s.step cfg (.updateSnapshot updated clean)).snapshot.list := by
  intro s x hx
  have h : s.Inv cfg := run_inv cfg ops
  obtain ⟨k, n, hn, hlive, hheld, rfl⟩ := mem_liveNodes.mp hx
  obtain ⟨r, hr, hinfo⟩ := live_stored h updated clean hn hlive hheld
  rw [mem_list, info_updateSnapshot]
  refine ⟨_, r, (step_inv h _).snap.stored_listed k r hr ?_, hinfo⟩
  rw [info_updateSnapshot, hinfo]
  exact hlive

end NodeStores

end GodelScheduler.SchedulerCache
