import GodelScheduler.Library.LinkedCells
import GodelScheduler.Library.MapRange
import Mathlib.Data.List.TakeWhile

/-!
# The generation-ordered store of the scheduler cache

`ListStoreImpl` keeps its objects in a map from keys to the cells of a doubly
linked list. Every `set` stamps the object with the next generation and moves
its cell to the head, so the list is in descending order of generation.

`items` reads the list off the pointers. `Rep` ties the map, the head, the
generations and the pointers to one list of cells; `ListStore` bundles a store
with the proof that such a list exists. Through `items_set` and `items_delete`
the pointer program refines two operations on a recency list, and later modules
use only that list.
-/

namespace GodelScheduler.GenerationStore

open Library Library.LinkedCells List

/-- An object that carries the generation of its last `set`. -/
class StoredObj (V : Type*) where
  getGeneration : V → ℤ
  setGeneration : ℤ → V → V
  getGeneration_setGeneration : ∀ g v, getGeneration (setGeneration g v) = g

export StoredObj (getGeneration setGeneration getGeneration_setGeneration)

attribute [simp] getGeneration_setGeneration

structure ListItem (K V : Type*) where
  key : K
  obj : V
  deriving DecidableEq, Repr

structure ListStoreImpl (K V : Type*) where
  store : GoMap K Addr
  head : Option Addr
  generation : ℤ
  heap : Heap (ListItem K V)

variable {K V : Type*} [DecidableEq K] [StoredObj V]

variable {k : K} {f : V → V} (s : ListStoreImpl K V)

namespace ListStoreImpl

def new : ListStoreImpl K V := ⟨∅, none, 0, []⟩

def get (key : K) : Option V :=
  match s.store.lookup key with
  | none => none
  | some item => s.heap[item]?.map fun c => c.val.obj

def remove (item : Addr) : ListStoreImpl K V :=
  let heap := unlink s.heap item
  { s with
    heap
    head := if s.head = some item then heap[item]?.bind Cell.next else s.head }

def set (key : K) (obj : V) : ListStoreImpl K V :=
  let obj := setGeneration (s.generation + 1) obj
  let (s, item) : ListStoreImpl K V × Addr :=
    match s.store.lookup key with
    | some item =>
      let s := s.remove item
      ({ s with heap := updateVal s.heap item fun i => { i with obj } }, item)
    | none => ({ s with heap := s.heap ++ [⟨⟨key, obj⟩, none, none⟩] }, s.heap.length)
  { store := s.store.insert key item
    head := some item
    generation := s.generation + 1
    heap := pushFront s.heap s.head item }

def delete (key : K) : ListStoreImpl K V :=
  let s :=
    match s.store.lookup key with
    | some item => s.remove item
    | none => s
  { s with store := s.store.erase key }

/-- A write to the stored object itself, behind the back of the store. -/
def modify (key : K) (f : V → V) : ListStoreImpl K V :=
  match s.store.lookup key with
  | some item => { s with heap := updateVal s.heap item fun i => { i with obj := f i.obj } }
  | none => s

def len (s : ListStoreImpl K V) : ℕ := s.store.len

/-- Walk the list from its front while `keep` holds. -/
def walk {σ : Type*} (s : ListStoreImpl K V) (keep : ListItem K V → Bool)
    (f : σ → ListItem K V → σ) (init : σ) : σ :=
  foldWhile keep f s.heap s.heap.length s.head init

def items : List (ListItem K V) :=
  s.walk (fun _ => true) (fun acc i => acc ++ [i]) []

/-- The cells `l` are linked in this order from the head. -/
structure Linked (s : ListStoreImpl K V) (l : List (Addr × ListItem K V)) : Prop where
  seg : Seg s.heap none l none
  head : s.head = first l none
  nodup : (l.map Prod.fst).Nodup

/-- The cells `l`, front first, are what the store holds. -/
structure Rep (s : ListStoreImpl K V) (l : List (Addr × ListItem K V)) : Prop
    extends Linked s l where
  store : ∀ k a, s.store.lookup k = some a ↔ ∃ v, (a, ⟨k, v⟩) ∈ l
  sorted : l.Pairwise fun x y => getGeneration y.2.obj < getGeneration x.2.obj
  bound : ∀ x ∈ l, getGeneration x.2.obj ≤ s.generation

theorem rep_new : Rep (new : ListStoreImpl K V) [] where
  seg := trivial
  head := rfl
  nodup := nodup_nil
  store k a := by simp [new]
  sorted := List.Pairwise.nil
  bound := by simp

variable {s : ListStoreImpl K V} {l : List (Addr × ListItem K V)}

theorem Rep.walk_eq {σ : Type*} (h : Rep s l) (keep : ListItem K V → Bool)
    (f : σ → ListItem K V → σ) (init : σ) :
    s.walk keep f init = ((l.map Prod.snd).takeWhile keep).foldl f init := by
  rw [walk, h.head, h.seg.foldWhile_eq (h.seg.length_le h.nodup)]

theorem Rep.items_eq (h : Rep s l) : s.items = l.map Prod.snd := by
  have hall : (l.map Prod.snd).takeWhile (fun _ => true) = l.map Prod.snd := by
    simp [takeWhile_eq_self_iff]
  rw [items, h.walk_eq, hall, foldl_append_eq_append, nil_append, ← flatMap_def,
    flatMap_singleton']

theorem Rep.eq_of_key (h : Rep s l) {x y : Addr × ListItem K V} (hx : x ∈ l) (hy : y ∈ l)
    (hk : x.2.key = y.2.key) : x = y := by
  obtain ⟨a, k, v⟩ := x
  obtain ⟨b, k', w⟩ := y
  obtain rfl : k = k' := hk
  have ha := (h.store k a).mpr ⟨v, hx⟩
  have hb := (h.store k b).mpr ⟨w, hy⟩
  obtain rfl : a = b := Option.some.inj (ha.symm.trans hb)
  exact inj_on_of_nodup_map h.nodup hx hy rfl

theorem Rep.get_eq_some (h : Rep s l) {v : V} : s.get k = some v ↔ ⟨k, v⟩ ∈ l.map Prod.snd := by
  constructor
  · intro hg
    cases hlook : s.store.lookup k with
    | none => simp [get, hlook] at hg
    | some a =>
      obtain ⟨w, hw⟩ := (h.store k a).mp hlook
      obtain ⟨c, hc, hval⟩ := h.seg.getElem? hw
      simp only [get, hlook, hc, hval, Option.map_some, Option.some.injEq] at hg
      subst hg
      exact mem_map_of_mem hw
  · intro hmem
    obtain ⟨⟨a, i⟩, ha, rfl⟩ := mem_map.mp hmem
    obtain ⟨c, hc, hval⟩ := h.seg.getElem? ha
    have hlook := (h.store k a).mpr ⟨v, ha⟩
    simp only at hc hval
    simp [get, hlook, hc, hval]

variable {a : Addr}

omit [DecidableEq K] [StoredObj V] in
theorem Linked.remove {l₁ l₂ : List (Addr × ListItem K V)} {i : ListItem K V}
    (h : Linked s (l₁ ++ (a, i) :: l₂)) : Linked (s.remove a) (l₁ ++ l₂) where
  seg := h.seg.unlink h.nodup
  nodup := by
    have := h.nodup
    simp only [map_append, map_cons] at this ⊢
    exact (nodup_middle.mp this).of_cons
  head := by
    have hnd := h.nodup
    simp only [map_append, map_cons] at hnd
    have hout := (nodup_cons.mp (nodup_middle.mp hnd)).1
    cases l₁ with
    | nil =>
      have hcell := h.seg.1
      have hself : (LinkedCells.unlink s.heap a)[a]? = s.heap[a]? := by
        simp only [LinkedCells.unlink, hcell, setNext]
        cases hf : first l₂ none with
        | none =>
          rw [hf] at hcell
          exact hcell
        | some b =>
          have hne : b ≠ a := fun e => hout (e ▸ mem_of_first hf)
          rw [setPrev, List.getElem?_modify_ne _ _ hne, hcell, hf]
      simp [ListStoreImpl.remove, h.head, hself, hcell]
    | cons x l₁ =>
      have hne : x.1 ≠ a := fun e => hout (by simp [e])
      simp [ListStoreImpl.remove, h.head, hne]

abbrev others (k : K) (l : List (Addr × ListItem K V)) : List (Addr × ListItem K V) :=
  l.filter fun x => decide (x.2.key ≠ k)

omit [StoredObj V] in
theorem map_others (k : K) (l : List (Addr × ListItem K V)) :
    (others k l).map Prod.snd = (l.map Prod.snd).filter fun i => decide (i.key ≠ k) := by
  rw [others, filter_map]
  rfl

theorem Rep.split (h : Rep s l) (ha : s.store.lookup k = some a) :
    ∃ l₁ l₂ v, l = l₁ ++ (a, ⟨k, v⟩) :: l₂ ∧ others k l = l₁ ++ l₂ := by
  obtain ⟨v, hv⟩ := (h.store k a).mp ha
  obtain ⟨l₁, l₂, rfl⟩ := append_of_mem hv
  refine ⟨l₁, l₂, v, rfl, ?_⟩
  have hnd : (l₁ ++ (a, ⟨k, v⟩) :: l₂).Nodup := h.nodup.of_map _
  have hout := (nodup_cons.mp (nodup_middle.mp hnd)).1
  have hother : ∀ x ∈ l₁ ++ l₂, decide (x.2.key ≠ k) = true := by
    intro x hx
    have hxl : x ∈ l₁ ++ (a, ⟨k, v⟩) :: l₂ := by
      rcases mem_append.mp hx with hx | hx <;> simp [hx]
    refine decide_eq_true fun hk => hout ?_
    rwa [h.eq_of_key hxl hv hk] at hx
  have h₁ := filter_eq_self.mpr fun x hx => hother x (mem_append_left _ hx)
  have h₂ := filter_eq_self.mpr fun x hx => hother x (mem_append_right _ hx)
  rw [others, filter_append, filter_cons_of_neg (by simp), h₁, h₂]

theorem Rep.others_eq (h : Rep s l) (hk : s.store.lookup k = none) : others k l = l := by
  refine filter_eq_self.mpr fun x hx => decide_eq_true fun e => ?_
  have := (h.store k x.1).mpr ⟨x.2.obj, by subst e; exact hx⟩
  simp [hk] at this

theorem Rep.delete (h : Rep s l) (k : K) : Rep (s.delete k) (others k l) where
  toLinked := by
    cases hk : s.store.lookup k with
    | none =>
      rw [h.others_eq hk]
      simpa [ListStoreImpl.delete, hk] using ⟨h.seg, h.head, h.nodup⟩
    | some a =>
      obtain ⟨l₁, l₂, v, rfl, hsplit⟩ := h.split hk
      have hr := h.toLinked.remove
      rw [hsplit]
      simpa [ListStoreImpl.delete, hk] using ⟨hr.seg, hr.head, hr.nodup⟩
  store k' a := by
    have hstore : (s.delete k).store = s.store.erase k := by
      cases hk : s.store.lookup k <;> simp [ListStoreImpl.delete, hk, ListStoreImpl.remove]
    rw [hstore, GoMap.lookup_erase']
    by_cases hk : k' = k <;> simp [hk, h.store]
  sorted := h.sorted.filter _
  bound x hx := by
    have hgen : (s.delete k).generation = s.generation := by
      cases hk : s.store.lookup k <;> simp [ListStoreImpl.delete, hk, ListStoreImpl.remove]
    rw [hgen]
    exact h.bound x (mem_of_mem_filter hx)

omit [DecidableEq K] [StoredObj V] in
theorem Linked.pushFront (h : Linked s l) {c : Cell (ListItem K V)} (hc : s.heap[a]? = some c)
    (ha : a ∉ l.map Prod.fst) (store : GoMap K Addr) (g : ℤ) :
    Linked ⟨store, some a, g, LinkedCells.pushFront s.heap s.head a⟩ ((a, c.val) :: l) where
  seg := by
    have hnd : (a :: l.map Prod.fst).Nodup := nodup_cons.mpr ⟨ha, h.nodup⟩
    rw [h.head]
    exact h.seg.pushFront hc hnd
  head := rfl
  nodup := nodup_cons.mpr ⟨ha, h.nodup⟩

def front (s : ListStoreImpl K V) (k : K) : Addr := (s.store.lookup k).getD s.heap.length

theorem set_store (s : ListStoreImpl K V) (k : K) (v : V) :
    (s.set k v).store = s.store.insert k (s.front k) := by
  cases hk : s.store.lookup k <;> simp [set, front, hk, remove]

theorem set_generation (s : ListStoreImpl K V) (k : K) (v : V) :
    (s.set k v).generation = s.generation + 1 := by
  cases hk : s.store.lookup k <;> simp [set, hk, remove]

theorem Rep.linked_set (h : Rep s l) (k : K) (v : V) :
    Linked (s.set k v) ((s.front k, ⟨k, setGeneration (s.generation + 1) v⟩) :: others k l) := by
  cases hk : s.store.lookup k with
  | none =>
    rw [h.others_eq hk]
    have hfront : s.front k = s.heap.length := by simp [front, hk]
    have hout : s.heap.length ∉ l.map Prod.fst := by
      intro hmem
      obtain ⟨x, hx, e⟩ := mem_map.mp hmem
      obtain ⟨c, hc, -⟩ := h.seg.getElem? hx
      rw [e] at hc
      simp at hc
    have hl : Linked { s with heap := s.heap ++
        [⟨⟨k, setGeneration (s.generation + 1) v⟩, none, none⟩] } l :=
      ⟨h.seg.append_cell _, h.head, h.nodup⟩
    have hpush := hl.pushFront List.getElem?_concat_length hout
      (s.store.insert k s.heap.length) (s.generation + 1)
    simpa [ListStoreImpl.set, hk, hfront] using hpush
  | some a =>
    obtain ⟨l₁, l₂, w, rfl, hsplit⟩ := h.split hk
    have hfront : s.front k = a := by simp [front, hk]
    have hr := h.toLinked.remove
    have hout : a ∉ (l₁ ++ l₂).map Prod.fst := by
      have hnd := h.nodup
      rw [map_append, map_cons] at hnd
      simpa using (nodup_cons.mp (nodup_middle.mp hnd)).1
    obtain ⟨c, hc, hval⟩ : ∃ c, (s.remove a).heap[a]? = some c ∧ c.val = ⟨k, w⟩ := by
      obtain ⟨c, hc, hval⟩ := h.seg.getElem? (x := (a, ⟨k, w⟩)) (by simp)
      have hsame := unlink_val s.heap a a
      rw [hc, Option.map_some, hval] at hsame
      simpa [ListStoreImpl.remove] using hsame
    have hl : Linked { s.remove a with
        heap := updateVal (s.remove a).heap a fun i =>
          { i with obj := setGeneration (s.generation + 1) v } } (l₁ ++ l₂) :=
      ⟨hr.seg.modify hout _, hr.head, hr.nodup⟩
    have hcell : (updateVal (s.remove a).heap a fun i =>
        { i with obj := setGeneration (s.generation + 1) v })[a]? =
        some { c with val := ⟨k, setGeneration (s.generation + 1) v⟩ } := by
      simp [updateVal, List.getElem?_modify_eq, hc, hval]
    have hpush := hl.pushFront hcell hout (s.store.insert k a) (s.generation + 1)
    rw [hsplit, hfront]
    simpa [ListStoreImpl.set, hk, ListStoreImpl.remove] using hpush

theorem Rep.set (h : Rep s l) (k : K) (v : V) :
    Rep (s.set k v) ((s.front k, ⟨k, setGeneration (s.generation + 1) v⟩) :: others k l) where
  toLinked := h.linked_set k v
  store k' a := by
    rw [set_store, GoMap.lookup_insert']
    by_cases hk : k' = k
    · subst hk
      simp [eq_comm]
    · simp [hk, h.store]
  sorted := by
    refine pairwise_cons.mpr ⟨fun x hx => ?_, h.sorted.filter _⟩
    have := h.bound x (mem_of_mem_filter hx)
    simp only [getGeneration_setGeneration]
    omega
  bound x hx := by
    rw [set_generation]
    rcases mem_cons.mp hx with rfl | hx
    · simp
    · have := h.bound x (mem_of_mem_filter hx)
      omega

/-- What a write to the object of a key makes of an item. -/
def write (k : K) (f : V → V) (i : ListItem K V) : ListItem K V :=
  if i.key = k then ⟨i.key, f i.obj⟩ else i

omit [StoredObj V] in
@[simp] theorem key_write (k : K) (f : V → V) (i : ListItem K V) : (write k f i).key = i.key := by
  unfold write
  split_ifs <;> rfl

theorem getGeneration_write (k : K) (hf : ∀ v, getGeneration (f v) = getGeneration v)
    (i : ListItem K V) : getGeneration (write k f i).obj = getGeneration i.obj := by
  unfold write
  split_ifs
  · exact hf i.obj
  · rfl

omit [StoredObj V] in
theorem mem_map_write (k : K) (f : V → V) {k' : K} :
    (∃ v, (a, ⟨k', v⟩) ∈ l.map fun x => (x.1, write k f x.2)) ↔ ∃ v, (a, ⟨k', v⟩) ∈ l := by
  simp only [mem_map, Prod.mk.injEq]
  constructor
  · rintro ⟨v, ⟨b, i⟩, hi, rfl, hwrite⟩
    obtain rfl : i.key = k' := by rw [← key_write k f i, hwrite]
    exact ⟨i.obj, hi⟩
  · rintro ⟨v, hv⟩
    refine ⟨(write k f ⟨k', v⟩).obj, (a, ⟨k', v⟩), hv, rfl, ?_⟩
    unfold write
    split_ifs <;> rfl

theorem Rep.seg_modify (h : Rep s l) (k : K) (f : V → V) :
    Seg (s.modify k f).heap none (l.map fun x => (x.1, write k f x.2)) none := by
  unfold ListStoreImpl.modify
  cases hk : s.store.lookup k with
  | none =>
    have hid : (l.map fun x => (x.1, write k f x.2)) = l.map id := by
      apply map_congr_left
      intro x hx
      rw [← h.others_eq hk, mem_filter, decide_eq_true_iff] at hx
      simp [write, hx.2]
    rw [hid, map_id]
    exact h.seg
  | some a =>
    obtain ⟨v, hv⟩ := (h.store k a).mp hk
    have hcell : (l.map fun x => (x.1, write k f x.2)) =
        l.map fun x => (x.1, if x.1 = a then ⟨x.2.key, f x.2.obj⟩ else x.2) := by
      apply map_congr_left
      intro x hx
      have hiff : x.2.key = k ↔ x.1 = a := by
        constructor
        · intro hkey
          rw [h.eq_of_key hx hv hkey]
        · intro haddr
          rw [inj_on_of_nodup_map h.nodup hx hv haddr]
      simp only [write, hiff]
    rw [hcell]
    exact h.seg.updateVal a fun i => ⟨i.key, f i.obj⟩

theorem Rep.modify (h : Rep s l) (k : K) (hf : ∀ v, getGeneration (f v) = getGeneration v) :
    Rep (s.modify k f) (l.map fun x => (x.1, write k f x.2)) := by
  have hsame : (s.modify k f).store = s.store ∧ (s.modify k f).head = s.head ∧
      (s.modify k f).generation = s.generation := by
    unfold ListStoreImpl.modify
    split <;> exact ⟨rfl, rfl, rfl⟩
  refine ⟨⟨h.seg_modify k f, ?_, ?_⟩, ?_, ?_, ?_⟩
  · rw [hsame.2.1, h.head]
    cases l <;> rfl
  · rw [map_map]
    exact h.nodup
  · intro k' a
    rw [hsame.1, h.store, mem_map_write]
  · simp only [pairwise_map, getGeneration_write k hf]
    exact h.sorted
  · intro x hx
    obtain ⟨y, hy, rfl⟩ := mem_map.mp hx
    rw [hsame.2.2]
    simp only [getGeneration_write k hf]
    exact h.bound y hy

end ListStoreImpl

/-- A list store whose pointers, map and generations agree. -/
structure ListStore (K V : Type*) [DecidableEq K] [StoredObj V] where
  impl : ListStoreImpl K V
  rep : ∃ l, impl.Rep l

namespace ListStore

def new : ListStore K V := ⟨.new, [], ListStoreImpl.rep_new⟩

def set (s : ListStore K V) (key : K) (obj : V) : ListStore K V :=
  ⟨s.impl.set key obj, s.rep.elim fun _ h => ⟨_, h.set key obj⟩⟩

def delete (s : ListStore K V) (key : K) : ListStore K V :=
  ⟨s.impl.delete key, s.rep.elim fun _ h => ⟨_, h.delete key⟩⟩

/-- A write to a stored object that leaves its generation. -/
def modify (s : ListStore K V) (key : K) (f : V → V)
    (hf : ∀ v, getGeneration (f v) = getGeneration v) : ListStore K V :=
  ⟨s.impl.modify key f, s.rep.elim fun _ h => ⟨_, h.modify key hf⟩⟩

def get (s : ListStore K V) (key : K) : Option V := s.impl.get key

def len (s : ListStore K V) : ℕ := s.impl.len

def keys (s : ListStore K V) : List K := s.impl.store.keys

def generation (s : ListStore K V) : ℤ := s.impl.generation

def items (s : ListStore K V) : List (ListItem K V) := s.impl.items

def walk {σ : Type*} (s : ListStore K V) (keep : ListItem K V → Bool)
    (f : σ → ListItem K V → σ) (init : σ) : σ :=
  s.impl.walk keep f init

@[simp] theorem items_new : (new : ListStore K V).items = [] := rfl

variable (s : ListStore K V)

theorem walk_eq {σ : Type*} (keep : ListItem K V → Bool) (f : σ → ListItem K V → σ) (init : σ) :
    s.walk keep f init = (s.items.takeWhile keep).foldl f init := by
  obtain ⟨l, h⟩ := s.rep
  rw [walk, items, h.walk_eq, h.items_eq]

theorem get_eq_some {v : V} : s.get k = some v ↔ ⟨k, v⟩ ∈ s.items := by
  obtain ⟨l, h⟩ := s.rep
  rw [get, items, h.get_eq_some, h.items_eq]

theorem items_sorted : s.items.Pairwise fun x y => getGeneration y.obj < getGeneration x.obj := by
  obtain ⟨l, h⟩ := s.rep
  rw [items, h.items_eq, pairwise_map]
  exact h.sorted

@[simp] theorem generation_set (k : K) (v : V) : (s.set k v).generation = s.generation + 1 :=
  s.impl.set_generation k v

@[simp] theorem generation_delete (k : K) : (s.delete k).generation = s.generation := by
  cases hk : s.impl.store.lookup k <;>
    simp [generation, delete, ListStoreImpl.delete, hk, ListStoreImpl.remove]

theorem items_set (k : K) (v : V) :
    (s.set k v).items =
      ⟨k, setGeneration (s.generation + 1) v⟩ :: s.items.filter fun i => decide (i.key ≠ k) := by
  obtain ⟨l, h⟩ := s.rep
  have hset := (h.set k v).items_eq
  rw [map_cons, ListStoreImpl.map_others, ← h.items_eq] at hset
  exact hset

theorem items_delete (k : K) : (s.delete k).items = s.items.filter fun i => decide (i.key ≠ k) := by
  obtain ⟨l, h⟩ := s.rep
  have hdel := (h.delete k).items_eq
  rw [ListStoreImpl.map_others, ← h.items_eq] at hdel
  exact hdel

theorem get_set (k a : K) (v : V) :
    (s.set k v).get a = if a = k then some (setGeneration (s.generation + 1) v) else s.get a := by
  ext w
  rw [get_eq_some, items_set]
  split_ifs with h
  · subst h
    simp [eq_comm]
  · simp [h, get_eq_some]

theorem get_delete (k a : K) : (s.delete k).get a = if a = k then none else s.get a := by
  ext w
  rw [get_eq_some, items_delete]
  split_ifs with h
  · simp [h]
  · simp [h, get_eq_some]

theorem items_modify (k : K) (hf : ∀ v, getGeneration (f v) = getGeneration v) :
    (s.modify k f hf).items = s.items.map (ListStoreImpl.write k f) := by
  obtain ⟨l, h⟩ := s.rep
  have hmod := (h.modify k hf).items_eq
  rw [map_map] at hmod
  rw [items, items, modify, hmod, h.items_eq, map_map]
  rfl

@[simp] theorem generation_modify (k : K) (hf : ∀ v, getGeneration (f v) = getGeneration v) :
    (s.modify k f hf).generation = s.generation := by
  cases hk : s.impl.store.lookup k <;> simp [generation, modify, ListStoreImpl.modify, hk]

theorem get_modify (k a : K) (hf : ∀ v, getGeneration (f v) = getGeneration v) :
    (s.modify k f hf).get a = if a = k then (s.get a).map f else s.get a := by
  ext w
  rw [get_eq_some, items_modify, mem_map]
  constructor
  · rintro ⟨i, hi, hw⟩
    have hget := (s.get_eq_some).mpr hi
    unfold ListStoreImpl.write at hw
    split_ifs at hw with hkey
    · cases hw
      rw [if_pos hkey, hget]
      rfl
    · cases hw
      rw [if_neg hkey, hget]
  · intro hw
    split_ifs at hw with hkey
    · obtain ⟨v, hv, rfl⟩ := Option.map_eq_some_iff.mp hw
      exact ⟨⟨a, v⟩, s.get_eq_some.mp hv, if_pos hkey⟩
    · exact ⟨⟨a, w⟩, s.get_eq_some.mp hw, if_neg hkey⟩

@[simp] theorem get_new (k : K) : (new : ListStore K V).get k = none := by
  ext w
  simp [get_eq_some]

theorem mem_keys : k ∈ s.keys ↔ (s.get k).isSome := by
  obtain ⟨l, h⟩ := s.rep
  rw [keys, ← AList.mem_keys, GoMap.mem_iff_lookup, Option.isSome_iff_exists]
  simp only [h.store, get, h.get_eq_some, mem_map]
  constructor
  · rintro ⟨a, v, hv⟩
    exact ⟨v, _, hv, rfl⟩
  · rintro ⟨v, ⟨a, i⟩, hi, rfl⟩
    exact ⟨a, v, hi⟩

theorem keys_nodup : s.keys.Nodup := s.impl.store.keys_nodup

/-- A write to a stored object, which is deleted if it is then empty. -/
def modifyOrDelete (s : ListStore K V) (key : K) (f : V → V)
    (hf : ∀ v, getGeneration (f v) = getGeneration v) (empty : V → Bool) : ListStore K V :=
  let s := s.modify key f hf
  match s.get key with
  | none => s
  | some obj => if empty obj then s.delete key else s

/-- `Range` with a function that writes to each object and deletes it if it is then empty. -/
def sweep (s : ListStore K V) (o : RangeOrder K) (f : K → V → V)
    (hf : ∀ k v, getGeneration (f k v) = getGeneration v) (empty : V → Bool) : ListStore K V :=
  (o.list s.keys).foldl (fun s key => s.modifyOrDelete key (f key) (hf key) empty) s

section

variable {f : V → V} {empty : V → Bool} (hf : ∀ v, getGeneration (f v) = getGeneration v)

theorem get_modifyOrDelete (s : ListStore K V) (k a : K) :
    (s.modifyOrDelete k f hf empty).get a =
      if a = k then ((s.get a).map f).filter (fun v => !empty v) else s.get a := by
  have hmodify := s.get_modify k a hf
  have hkey := s.get_modify k k hf
  rw [if_pos rfl] at hkey
  unfold modifyOrDelete
  by_cases ha : a = k
  · subst ha
    cases hget : s.get a with
    | none =>
      rw [hget] at hkey
      simp [hkey]
    | some v =>
      rw [hget] at hkey
      simp only [hkey, Option.map_some, if_true, Option.filter_some]
      cases empty (f v) <;> simp [hkey, get_delete]
  · rw [if_neg ha] at hmodify ⊢
    cases hget : s.get k with
    | none =>
      rw [hget] at hkey
      simpa [hkey] using hmodify
    | some v =>
      rw [hget] at hkey
      simp only [hkey, Option.map_some]
      split_ifs
      · rw [get_delete, if_neg ha, hmodify]
      · exact hmodify

theorem generation_modifyOrDelete (s : ListStore K V) (k : K) :
    (s.modifyOrDelete k f hf empty).generation = s.generation := by
  unfold modifyOrDelete
  dsimp only
  split
  · exact s.generation_modify k hf
  · split_ifs
    · rw [generation_delete, generation_modify]
    · exact s.generation_modify k hf

end

section

variable {f : K → V → V} {empty : V → Bool} (hf : ∀ k v, getGeneration (f k v) = getGeneration v)
  (s : ListStore K V)

theorem get_foldl_modifyOrDelete {ks : List K} (hnd : ks.Nodup) (a : K) :
    (ks.foldl (fun s key => s.modifyOrDelete key (f key) (hf key) empty) s).get a =
      if a ∈ ks then ((s.get a).map (f a)).filter (fun v => !empty v) else s.get a := by
  induction ks generalizing s with
  | nil => simp
  | cons k ks ih =>
    obtain ⟨hk, hnd⟩ := nodup_cons.mp hnd
    rw [foldl_cons, ih _ hnd, get_modifyOrDelete]
    by_cases ha : a = k
    · subst ha
      simp [hk]
    · simp [ha]

theorem get_sweep (o : RangeOrder K) (a : K) :
    (s.sweep o f hf empty).get a = ((s.get a).map (f a)).filter fun v => !empty v := by
  rw [sweep, get_foldl_modifyOrDelete hf s (o.nodup_list s.keys_nodup)]
  split_ifs with hmem
  · rfl
  · rw [RangeOrder.mem_list, mem_keys, Option.not_isSome_iff_eq_none] at hmem
    rw [hmem]
    rfl

theorem generation_sweep (o : RangeOrder K) : (s.sweep o f hf empty).generation = s.generation := by
  unfold sweep
  apply List.foldlRecOn (motive := fun s' : ListStore K V => s'.generation = s.generation) _ _ rfl
  intro s' hs' key _
  rw [generation_modifyOrDelete, hs']

end

theorem takeWhile_newer (g : ℤ) :
    s.items.takeWhile (fun i => decide (g < getGeneration i.obj)) =
      s.items.filter fun i => decide (g < getGeneration i.obj) := by
  have h := s.items_sorted
  generalize s.items = l at h
  induction l with
  | nil => rfl
  | cons x l ih =>
    obtain ⟨hx, hl⟩ := pairwise_cons.mp h
    by_cases hg : g < getGeneration x.obj
    · simp [hg, ih hl]
    · have hnone : l.filter (fun i => decide (g < getGeneration i.obj)) = [] := by
        refine filter_eq_nil_iff.mpr fun y hy => ?_
        have := hx y hy
        simp only [decide_eq_true_eq]
        omega
      simp [hg, hnone]

end ListStore

end GodelScheduler.GenerationStore
