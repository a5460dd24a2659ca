import GodelScheduler.GenerationStore.RawStore
import GodelScheduler.Library.Runs

/-!
# An incremental refresh is a full copy

`Tracks` is the simulation invariant between a list store and a raw store: an
item that is neither newer than the raw store's generation nor locally written
there is already cloned. It holds after any interleaving of writes to either
store, it makes the clone phase an overlay of the whole cache
(`view_clonePhase`), and a refresh with the default clean-up re-establishes it
(`Stores.refresh_get`).

What the raw store holds for a key is read through a `view`, since a raw store
may hold references into the state its clone function captures.
-/

namespace GodelScheduler.GenerationStore

open Library ListStore

variable {K V W X H : Type*} [DecidableEq K] [StoredObj V]

/-- Whatever a refresh would skip is already cloned. -/
structure Tracks (s : ListStore K V) (entry : V → X) (raw : RawStoreImpl K W)
    (view : K → Option X) : Prop where
  generation_le : raw.generation ≤ s.generation
  cloned : ∀ k v, s.get k = some v → getGeneration v ≤ raw.generation → k ∉ raw.updatedSet →
    view k = some (entry v)

namespace Tracks

variable {s : ListStore K V} {entry : V → X} {raw raw' : RawStoreImpl K W}
  {view view' : K → Option X}

theorem new (view : K → Option X) :
    Tracks (ListStore.new : ListStore K V) entry (RawStoreImpl.new : RawStoreImpl K W) view where
  generation_le := le_rfl
  cloned k v hv := by simp at hv

variable (h : Tracks s entry raw view)
include h

theorem listSet (k : K) (v : V) : Tracks (s.set k v) entry raw view where
  generation_le := by
    have := h.generation_le
    rw [generation_set]
    omega
  cloned a w hw hg hu := by
    rw [get_set] at hw
    split_ifs at hw with ha
    · have := h.generation_le
      rw [← Option.some.inj hw, getGeneration_setGeneration] at hg
      omega
    · exact h.cloned a w hw hg hu

theorem listDelete (k : K) : Tracks (s.delete k) entry raw view where
  generation_le := by
    rw [generation_delete]
    exact h.generation_le
  cloned a w hw hg hu := by
    rw [get_delete] at hw
    split_ifs at hw with ha
    exact h.cloned a w hw hg hu

/-- Items may be dropped, and changed behind the back of the store if they are still to be
cloned. -/
theorem shrink {s' : ListStore K V} (hg : s'.generation = s.generation)
    (hitems : ∀ k v', s'.get k = some v' → ∃ v, s.get k = some v ∧
      getGeneration v' = getGeneration v ∧
        (entry v' = entry v ∨ raw.generation < getGeneration v)) : Tracks s' entry raw view where
  generation_le := by
    rw [hg]
    exact h.generation_le
  cloned k v' hv' hgen hk := by
    obtain ⟨v, hv, hsame, hentry | hpending⟩ := hitems k v' hv'
    · rw [hentry]
      exact h.cloned k v hv (hsame ▸ hgen) hk
    · omega

theorem rawWrite (hg : raw'.generation = raw.generation)
    (hu : ∀ a, a ∈ raw.updatedSet → a ∈ raw'.updatedSet)
    (hv : ∀ a, a ∉ raw'.updatedSet → view' a = view a) : Tracks s entry raw' view' where
  generation_le := by
    rw [hg]
    exact h.generation_le
  cloned a v hget hgen ha := by
    rw [hv a ha]
    rw [hg] at hgen
    exact h.cloned a v hget hgen fun hmem => ha (hu a hmem)

theorem rawSet (k : K) (w : W) (hv : ∀ a, a ≠ k → view' a = view a) :
    Tracks s entry (raw.set k w) view' := by
  apply h.rawWrite (raw.generation_set k w)
  · intro a ha
    exact (raw.mem_updatedSet_set k a w).mpr (Or.inr ha)
  · intro a ha
    rw [RawStoreImpl.mem_updatedSet_set, not_or] at ha
    exact hv a ha.1

theorem rawDelete (k : K) (hv : ∀ a, a ≠ k → view' a = view a) :
    Tracks s entry (raw.delete k) view' := by
  apply h.rawWrite (raw.generation_delete k)
  · intro a ha
    exact (raw.mem_updatedSet_delete k a).mpr (Or.inr ha)
  · intro a ha
    rw [RawStoreImpl.mem_updatedSet_delete, not_or] at ha
    exact hv a ha.1

omit h

theorem of_view (hg : raw.generation ≤ s.generation)
    (h : ∀ k v, s.get k = some v → view k = some (entry v)) : Tracks s entry raw view :=
  ⟨hg, fun k v hv _ _ => h k v hv⟩

end Tracks

/-- A change of the raw store's bookkeeping only. -/
def book (st : RawStoreImpl K W × H) (u : GoSet K) (g : ℤ) : RawStoreImpl K W × H :=
  ({ st.1 with updatedSet := u, generation := g }, st.2)

/-- What a clone function does, seen through a view and under an invariant. -/
structure CloneSpec (s : ListStore K V)
    (cloneFunc : RawStoreImpl K W × H → K → V → RawStoreImpl K W × H) (entry : V → X)
    (view : RawStoreImpl K W × H → K → Option X) (Inv : RawStoreImpl K W × H → Prop) : Prop where
  inv : ∀ st k v, s.get k = some v → Inv st → Inv (cloneFunc st k v)
  inv_book : ∀ st u g, Inv st → Inv (book st u g)
  view_clone : ∀ st k v, s.get k = some v → Inv st → ∀ a,
    view (cloneFunc st k v) a = if a = k then some (entry v) else view st a
  view_book : ∀ st u g, view (book st u g) = view st
  updated : ∀ st k v a, a ∈ (cloneFunc st k v).1.updatedSet ↔ a = k ∨ a ∈ st.1.updatedSet

section

variable {s : ListStore K V} {entry : V → X}
  {cloneFunc : RawStoreImpl K W × H → K → V → RawStoreImpl K W × H}
  {view : RawStoreImpl K W × H → K → Option X} {Inv : RawStoreImpl K W × H → Prop}

theorem mem_newer {k : K} {g : ℤ} :
    k ∈ (s.items.takeWhile fun e => decide (g < getGeneration e.obj)).map ListItem.key ↔
      ∃ v, s.get k = some v ∧ g < getGeneration v := by
  rw [takeWhile_newer]
  simp only [List.mem_map, List.mem_filter, decide_eq_true_eq, get_eq_some]
  constructor
  · rintro ⟨e, ⟨he, hg⟩, rfl⟩
    exact ⟨e.obj, he, hg⟩
  · rintro ⟨v, hv, hg⟩
    exact ⟨_, ⟨hv, hg⟩, rfl⟩

theorem get_of_mem_newer {e : ListItem K V} {p : ListItem K V → Bool}
    (he : e ∈ s.items.takeWhile p) : s.get e.key = some e.obj :=
  s.get_eq_some.mpr ((List.takeWhile_sublist _).subset he)

variable (hc : CloneSpec s cloneFunc entry view Inv)
include hc

/-- A further invariant that clones and bookkeeping keep can be added. -/
theorem CloneSpec.and {Q : RawStoreImpl K W × H → Prop}
    (hq : ∀ st k v, s.get k = some v → Inv st → Q st → Q (cloneFunc st k v))
    (hb : ∀ st u g, Q st → Q (book st u g)) :
    CloneSpec s cloneFunc entry view fun st => Inv st ∧ Q st where
  inv st k v hk h := ⟨hc.inv st k v hk h.1, hq st k v hk h.1 h.2⟩
  inv_book st u g h := ⟨hc.inv_book st u g h.1, hb st u g h.2⟩
  view_clone st k v hk h := hc.view_clone st k v hk h.1
  view_book := hc.view_book
  updated := hc.updated

variable {st : RawStoreImpl K W × H}

theorem CloneSpec.inv_cloneNewer {l : List (ListItem K V)} (hl : ∀ e ∈ l, s.get e.key = some e.obj)
    (h : Inv st) : Inv (l.foldl (fun st e => dropUpdated (cloneFunc st e.key e.obj) e.key) st) := by
  apply List.foldlRecOn _ _ h
  intro st' hst' e he
  exact hc.inv_book _ _ _ (hc.inv st' e.key e.obj (hl e he) hst')

theorem CloneSpec.inv_cloneUpdated (ks : List K) (h : Inv st) :
    Inv (ks.foldl (cloneCached s cloneFunc) st) := by
  apply List.foldlRecOn _ _ h
  intro st' hst' k _
  unfold cloneCached
  split
  · next v hk => exact hc.inv st' k v hk hst'
  · exact hst'

theorem CloneSpec.inv_clonePhase (o : RangeOrder K) (h : Inv st) :
    Inv (clonePhase s cloneFunc o st) := by
  have hnewer : Inv (cloneNewer s cloneFunc st) := by
    rw [cloneNewer, walk_eq]
    exact hc.inv_cloneNewer (fun e he => get_of_mem_newer he) h
  exact hc.inv_book _ _ _ (hc.inv_cloneUpdated _ hnewer)

theorem CloneSpec.view_cloneNewer {l : List (ListItem K V)} (hl : ∀ e ∈ l, s.get e.key = some e.obj)
    (h : Inv st) (k : K) :
    view (l.foldl (fun st e => dropUpdated (cloneFunc st e.key e.obj) e.key) st) k =
      if k ∈ l.map ListItem.key then (s.get k).map entry else view st k := by
  induction l generalizing st with
  | nil => simp
  | cons e l ih =>
    obtain ⟨he, hl⟩ := List.forall_mem_cons.mp hl
    have hinv : Inv (dropUpdated (cloneFunc st e.key e.obj) e.key) :=
      hc.inv_book _ _ _ (hc.inv st e.key e.obj he h)
    have hview : view (dropUpdated (cloneFunc st e.key e.obj) e.key) k =
        if k = e.key then some (entry e.obj) else view st k := by
      rw [← hc.view_clone st e.key e.obj he h k]
      exact congrFun (hc.view_book _ _ _) k
    rw [List.foldl_cons, ih hl hinv, hview]
    by_cases hk : k = e.key
    · subst hk
      simp [he]
    · simp [hk]

theorem CloneSpec.updated_cloneNewer (l : List (ListItem K V)) (st : RawStoreImpl K W × H) (k : K) :
    k ∈ (l.foldl (fun st e => dropUpdated (cloneFunc st e.key e.obj) e.key) st).1.updatedSet ↔
      k ∈ st.1.updatedSet ∧ k ∉ l.map ListItem.key := by
  induction l generalizing st with
  | nil => simp
  | cons e l ih =>
    have hdrop : k ∈ (dropUpdated (cloneFunc st e.key e.obj) e.key).1.updatedSet ↔
        k ≠ e.key ∧ k ∈ (cloneFunc st e.key e.obj).1.updatedSet := AList.mem_erase
    rw [List.foldl_cons, ih, hdrop, hc.updated]
    simp only [List.map_cons, List.mem_cons]
    tauto

theorem CloneSpec.view_cloneUpdated (ks : List K) (h : Inv st) (k : K) :
    view (ks.foldl (cloneCached s cloneFunc) st) k =
      if k ∈ ks then ((s.get k).map entry).or (view st k) else view st k := by
  induction ks generalizing st with
  | nil => simp
  | cons a ks ih =>
    have hstep : view (cloneCached s cloneFunc st a) k =
        if k = a then ((s.get k).map entry).or (view st k) else view st k := by
      unfold cloneCached
      split
      · next v hv =>
        rw [hc.view_clone st a v hv h]
        by_cases hk : k = a
        · subst hk
          simp [hv]
        · simp [hk]
      · next hv =>
        by_cases hk : k = a
        · subst hk
          simp [hv]
        · simp [hk]
    have hinv : Inv (cloneCached s cloneFunc st a) := hc.inv_cloneUpdated [a] h
    rw [List.foldl_cons, ih hinv, hstep]
    by_cases hk : k = a <;> cases s.get k <;> simp [hk]

/-- After the clone phase the raw store is its old content overlaid with the whole cache. -/
theorem CloneSpec.view_clonePhase (o : RangeOrder K) (h : Inv st)
    (ht : Tracks s entry st.1 (view st)) (k : K) :
    view (clonePhase s cloneFunc o st) k = ((s.get k).map entry).or (view st k) := by
  have hl : ∀ e ∈ s.items.takeWhile fun e => decide (st.1.generation < getGeneration e.obj),
      s.get e.key = some e.obj := fun e he => get_of_mem_newer he
  have hbook : view (clonePhase s cloneFunc o st) =
      view (cloneUpdated s cloneFunc o (cloneNewer s cloneFunc st)) := hc.view_book _ _ _
  rw [hbook, cloneUpdated, cloneNewer, walk_eq,
    hc.view_cloneUpdated _ (hc.inv_cloneNewer hl h), hc.view_cloneNewer hl h]
  simp only [RangeOrder.mem_list, ← AList.mem_keys, hc.updated_cloneNewer, mem_newer]
  cases hk : s.get k with
  | none => simp
  | some v =>
    by_cases hg : st.1.generation < getGeneration v
    · simp [hg]
    · by_cases hu : k ∈ st.1.updatedSet
      · simp [hg, hu]
      · simp [hg, hu, ht.cloned k v hk (by omega) hu]

end

section

variable {cache : ListStore K V} {raw : RawStoreImpl K W}

theorem len_sub_len (raw : RawStoreImpl K W) (h : ∀ k, (cache.get k).isSome → (raw.get k).isSome) :
    (raw.len : ℤ) - cache.len = ((raw.keys.filter fun k => (cache.get k).isNone).length : ℤ) := by
  have hsub : ∀ k, k ∈ cache.impl.store → k ∈ raw.store := by
    intro k hk
    rw [AList.mem_keys] at hk ⊢
    exact raw.mem_keys.mpr (h k (cache.mem_keys.mp hk))
  have hpred : (fun k => decide (k ∉ cache.impl.store)) = fun k => (cache.get k).isNone := by
    funext k
    have := cache.mem_keys (k := k)
    rw [ListStore.keys, ← AList.mem_keys] at this
    cases hk : cache.get k <;> simp [this, hk]
  have hlen := GoMap.len_eq_add_filter hsub
  rw [hpred] at hlen
  have hcache : cache.len = cache.impl.store.len := rfl
  have hraw : raw.len = raw.store.len := rfl
  have hkeys : raw.keys = raw.store.keys := rfl
  rw [hcache, hraw, hkeys]
  omega

theorem defaultCleanFunc_eq (o : RangeOrder K)
    (h : ∀ k, (cache.get k).isSome → (raw.get k).isSome) :
    defaultCleanFunc cache o raw =
      ((o.list raw.keys).filter fun k => (cache.get k).isNone).foldl RawStoreImpl.delete raw := by
  have hlen := len_sub_len raw h
  have hperm := ((o.perm raw.keys).filter fun k => (cache.get k).isNone).length_eq
  unfold defaultCleanFunc
  split_ifs with hne
  · rw [deleteWhile_of_le]
    omega
  · have hzero : ((o.list raw.keys).filter fun k => (cache.get k).isNone) = [] := by
      rw [← List.length_eq_zero_iff]
      omega
    rw [hzero]
    rfl

end

/-- A cache and a snapshot of it. -/
structure Stores (K V W : Type*) [DecidableEq K] [StoredObj V] where
  cache : ListStore K V
  snapshot : RawStoreImpl K W

inductive Stores.Op (K V W : Type*)
  | cacheSet (key : K) (obj : V)
  | cacheDelete (key : K)
  | snapshotSet (key : K) (obj : W)
  | snapshotDelete (key : K)
  | refresh (updated clean : RangeOrder K)

namespace Stores

variable (clone : V → W)

def new : Stores K V W := ⟨.new, .new⟩

def cloneAndSet (st : RawStoreImpl K W × Unit) (key : K) (obj : V) : RawStoreImpl K W × Unit :=
  (st.1.set key (clone obj), st.2)

/-- Refresh with the clone-and-`Set` function and the default clean-up. -/
def refresh (s : Stores K V W) (updated clean : RangeOrder K) : Stores K V W :=
  let cleanFunc := fun (st : RawStoreImpl K W × Unit) =>
    (defaultCleanFunc s.cache clean st.1, st.2)
  { s with
    snapshot := (updateRawStore s.cache (cloneAndSet clone) cleanFunc updated (s.snapshot, ())).1 }

def step (s : Stores K V W) : Op K V W → Stores K V W
  | .cacheSet key obj => { s with cache := s.cache.set key obj }
  | .cacheDelete key => { s with cache := s.cache.delete key }
  | .snapshotSet key obj => { s with snapshot := s.snapshot.set key obj }
  | .snapshotDelete key => { s with snapshot := s.snapshot.delete key }
  | .refresh updated clean => s.refresh clone updated clean

/-- The invariant of a run: the snapshot is tracked by its own content. -/
def Tracked (s : Stores K V W) : Prop := Tracks s.cache clone s.snapshot s.snapshot.get

variable {clone} {s : Stores K V W}

theorem cloneAndSet_spec (s : ListStore K V) :
    CloneSpec s (cloneAndSet clone) clone (fun st => st.1.get) fun _ => True where
  inv _ _ _ _ _ := trivial
  inv_book _ _ _ _ := trivial
  view_clone st k v _ _ a := st.1.get_set k a (clone v)
  view_book _ _ _ := rfl
  updated st k v a := st.1.mem_updatedSet_set k a (clone v)

section

variable (h : s.Tracked clone)

include h

variable (updated : RangeOrder K)

theorem get_cloneAndSet (k : K) :
    (clonePhase s.cache (cloneAndSet clone) updated (s.snapshot, ())).1.get k =
      ((s.cache.get k).map clone).or (s.snapshot.get k) := by
  apply (cloneAndSet_spec s.cache).view_clonePhase updated trivial
  exact h

variable (clean : RangeOrder K)

/-- What a refresh of a tracked snapshot deletes after its clone phase. -/
theorem refresh_snapshot :
    let raw := (clonePhase s.cache (cloneAndSet clone) updated (s.snapshot, ())).1
    (s.refresh clone updated clean).snapshot =
      ((clean.list raw.keys).filter fun k => (s.cache.get k).isNone).foldl
        RawStoreImpl.delete raw := by
  apply defaultCleanFunc_eq clean
  intro k hk
  rw [get_cloneAndSet h]
  obtain ⟨v, hv⟩ := Option.isSome_iff_exists.mp hk
  simp [hv]

theorem refresh_get (k : K) :
    (s.refresh clone updated clean).snapshot.get k = (s.cache.get k).map clone := by
  rw [refresh_snapshot h, RawStoreImpl.get_foldl_delete]
  simp only [List.mem_filter, RangeOrder.mem_list, RawStoreImpl.mem_keys, get_cloneAndSet h]
  cases s.cache.get k with
  | none => cases s.snapshot.get k <;> simp
  | some v => simp

theorem refresh_generation :
    (s.refresh clone updated clean).snapshot.generation = s.cache.generation := by
  rw [refresh_snapshot h, RawStoreImpl.generation_foldl_delete]
  rfl

theorem step_tracked (op : Op K V W) : (s.step clone op).Tracked clone := by
  cases op with
  | cacheSet key obj => exact h.listSet key obj
  | cacheDelete key => exact h.listDelete key
  | snapshotSet key obj =>
    apply Tracks.rawSet h
    intro a ha
    exact (s.snapshot.get_set key a obj).trans (if_neg ha)
  | snapshotDelete key =>
    apply Tracks.rawDelete h
    intro a ha
    exact (s.snapshot.get_delete key a).trans (if_neg ha)
  | refresh updated clean =>
    apply Tracks.of_view
    · exact (refresh_generation h updated clean).le
    · intro k v hv
      change s.cache.get k = some v at hv
      rw [step, refresh_get h, hv, Option.map_some]

end

theorem run_tracked (clone : V → W) (ops : List (Op K V W)) :
    (run (step clone) new ops).Tracked clone := by
  apply run_invariant
  · intro s op h
    exact step_tracked h op
  · exact Tracks.new _

/-- Right after every refresh of every run, the snapshot has exactly the keys of the cache and
holds the clone of each cached value. -/
theorem refresh_full_copy (clone : V → W) (ops : List (Op K V W)) (updated clean : RangeOrder K) :
    let s := run (step clone) new (ops ++ [.refresh updated clean])
    s.snapshot.keys.Perm s.cache.keys ∧ ∀ k, s.snapshot.get k = (s.cache.get k).map clone := by
  intro s
  have hget : ∀ k, s.snapshot.get k = (s.cache.get k).map clone := by
    intro k
    have hs : s = (run (step clone) new ops).refresh clone updated clean := by
      simp only [s, run_append, run_cons, run_nil, step]
    rw [hs]
    exact refresh_get (run_tracked clone ops) updated clean k
  constructor
  · apply (List.perm_ext_iff_of_nodup s.snapshot.keys_nodup s.cache.keys_nodup).mpr
    intro k
    rw [RawStoreImpl.mem_keys, mem_keys, hget, Option.isSome_map]
  · exact hget

end Stores

end GodelScheduler.GenerationStore
