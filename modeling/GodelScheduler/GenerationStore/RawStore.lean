import GodelScheduler.GenerationStore.ListStore

/-!
# The raw store of a snapshot and its incremental refresh

`RawStoreImpl` is a map with the generation of its last refresh and the set of
keys written since. `updateRawStore` refreshes it from a list store: it clones
the items newer than the remembered generation, then the locally written keys,
and leaves stale keys to the clean function. The clone and clean functions of
the source are closures; `H` is the state they capture besides the raw store.
-/

namespace GodelScheduler.GenerationStore

open Library

structure RawStoreImpl (K W : Type*) where
  store : GoMap K W
  generation : ℤ
  updatedSet : GoSet K

namespace RawStoreImpl

variable {K W : Type*} [DecidableEq K]

def new : RawStoreImpl K W := ⟨∅, 0, ∅⟩

def get (s : RawStoreImpl K W) (key : K) : Option W := s.store.lookup key

def set (s : RawStoreImpl K W) (key : K) (obj : W) : RawStoreImpl K W :=
  { s with store := s.store.insert key obj, updatedSet := s.updatedSet.insert key () }

def delete (s : RawStoreImpl K W) (key : K) : RawStoreImpl K W :=
  { s with store := s.store.erase key, updatedSet := s.updatedSet.insert key () }

def len (s : RawStoreImpl K W) : ℕ := s.store.len

def keys (s : RawStoreImpl K W) : List K := s.store.keys

@[simp] theorem get_new (k : K) : (new : RawStoreImpl K W).get k = none := rfl

variable (s : RawStoreImpl K W)

theorem get_set (k a : K) (w : W) :
    (s.set k w).get a = if a = k then some w else s.get a :=
  GoMap.lookup_insert' _ _ _ _

theorem get_delete (k a : K) :
    (s.delete k).get a = if a = k then none else s.get a :=
  GoMap.lookup_erase' _ _ _

@[simp] theorem generation_set (k : K) (w : W) :
    (s.set k w).generation = s.generation := rfl

@[simp] theorem generation_delete (k : K) :
    (s.delete k).generation = s.generation := rfl

@[simp] theorem mem_updatedSet_set (k a : K) (w : W) :
    a ∈ (s.set k w).updatedSet ↔ a = k ∨ a ∈ s.updatedSet :=
  AList.mem_insert _

@[simp] theorem mem_updatedSet_delete (k a : K) :
    a ∈ (s.delete k).updatedSet ↔ a = k ∨ a ∈ s.updatedSet :=
  AList.mem_insert _

theorem mem_keys {k : K} : k ∈ s.keys ↔ (s.get k).isSome := by
  rw [keys, ← AList.mem_keys, get, AList.lookup_isSome]

omit [DecidableEq K] in
theorem keys_nodup : s.keys.Nodup := s.store.keys_nodup

theorem generation_foldl_delete (ks : List K) :
    (ks.foldl delete s).generation = s.generation := by
  induction ks generalizing s with
  | nil => rfl
  | cons k ks ih => exact ih (s.delete k)

theorem get_foldl_delete (ks : List K) (a : K) :
    (ks.foldl delete s).get a = if a ∈ ks then none else s.get a := by
  induction ks generalizing s with
  | nil => simp
  | cons k ks ih =>
    rw [List.foldl_cons, ih, get_delete]
    by_cases ha : a ∈ ks <;> by_cases hk : a = k <;> simp [ha, hk]

end RawStoreImpl

section

variable {K V W H : Type*} [DecidableEq K] [StoredObj V]

/-- `store.UpdatedSet().Delete(key)`. -/
def dropUpdated (st : RawStoreImpl K W × H) (key : K) : RawStoreImpl K W × H :=
  ({ st.1 with updatedSet := st.1.updatedSet.erase key }, st.2)

variable (s : ListStore K V) (cloneFunc : RawStoreImpl K W × H → K → V → RawStoreImpl K W × H)

def cloneNewer (st : RawStoreImpl K W × H) : RawStoreImpl K W × H :=
  let storedGeneration := st.1.generation
  s.walk (fun e => decide (storedGeneration < getGeneration e.obj))
    (fun st e => dropUpdated (cloneFunc st e.key e.obj) e.key) st

def cloneCached (st : RawStoreImpl K W × H) (key : K) : RawStoreImpl K W × H :=
  match s.get key with
  | some obj => cloneFunc st key obj
  | none => st

def cloneUpdated (o : RangeOrder K) (st : RawStoreImpl K W × H) : RawStoreImpl K W × H :=
  (o.list st.1.updatedSet.keys).foldl (cloneCached s cloneFunc) st

/-- The refresh up to its clean-up. -/
def clonePhase (o : RangeOrder K) (st : RawStoreImpl K W × H) : RawStoreImpl K W × H :=
  let st := cloneUpdated s cloneFunc o (cloneNewer s cloneFunc st)
  ({ st.1 with updatedSet := ∅, generation := s.generation }, st.2)

/-- Refresh a raw store; `o` is the order of the loop over the updated keys. -/
def updateRawStore (cleanFunc : RawStoreImpl K W × H → RawStoreImpl K W × H) (o : RangeOrder K)
    (st : RawStoreImpl K W × H) : RawStoreImpl K W × H :=
  cleanFunc (clonePhase s cloneFunc o st)

/-- `DefaultCleanFunc`; `o` is the order of its `ConditionRange`. -/
def defaultCleanFunc (cache : ListStore K V) (o : RangeOrder K)
    (snapshot : RawStoreImpl K W) : RawStoreImpl K W :=
  if cache.len ≠ snapshot.len then
    deleteWhile (fun key => (cache.get key).isNone) RawStoreImpl.delete
      (o.list snapshot.keys) ((snapshot.len : ℤ) - cache.len) snapshot
  else snapshot

end

end GodelScheduler.GenerationStore
