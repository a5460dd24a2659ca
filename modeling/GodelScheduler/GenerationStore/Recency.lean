import GodelScheduler.GenerationStore.ListStore
import GodelScheduler.Library.Runs

/-!
# The recency list over whole runs

The store holds references, and the generation is a field of the object. Setting an
object that is stored under another key too gives both items one generation.
-/

namespace GodelScheduler.GenerationStore

open Library

/-- A reference to an object, with the generation this item's `set` gave it. -/
structure ObjRef (R : Type*) where
  ref : R
  stamp : ℤ

instance {R : Type*} : StoredObj (ObjRef R) where
  getGeneration := ObjRef.stamp
  setGeneration g v := { v with stamp := g }
  getGeneration_setGeneration _ _ := rfl

/-- The store, and the generations of the objects. -/
structure SharedObjs (K R : Type*) [DecidableEq K] where
  store : ListStore K (ObjRef R)
  getGeneration : R → ℤ

inductive StoreOp (K R : Type*) where
  | set (key : K) (obj : R)
  | delete (key : K)

namespace SharedObjs

variable {K R : Type*} [DecidableEq K] (s : SharedObjs K R)

/-- The links from the head visit every stored item once and lead back, the generations decrease
along them, and the head is not newer than the store. -/
def Recency : Prop :=
  (∃ l, s.store.impl.Linked l ∧
      ∀ k a, s.store.impl.store.lookup k = some a ↔ ∃ v, (a, ⟨k, v⟩) ∈ l) ∧
    (s.store.items.Pairwise fun x y => s.getGeneration y.obj.ref < s.getGeneration x.obj.ref) ∧
    ∀ i ∈ s.store.items.head?, s.getGeneration i.obj.ref ≤ s.store.generation

/-- The object that is set is not stored under another key. -/
def Unshared : StoreOp K R → Prop
  | .set key obj => ∀ i ∈ s.store.items, i.obj.ref = obj → i.key = key
  | .delete _ => True

/-- Every object has the generation of its item. -/
def Stamped : Prop := ∀ i ∈ s.store.items, s.getGeneration i.obj.ref = i.obj.stamp

variable {s}

theorem Stamped.recency (h : s.Stamped) : s.Recency := by
  obtain ⟨l, hl⟩ := s.store.rep
  refine ⟨⟨l, hl.toLinked, hl.store⟩, ?_, fun i hi => ?_⟩
  · apply s.store.items_sorted.imp_of_mem
    intro x y hx hy hlt
    rw [h x hx, h y hy]
    exact hlt
  · have hmem := List.mem_of_mem_head? hi
    rw [h i hmem]
    have hitems : s.store.items = l.map Prod.snd := hl.items_eq
    rw [hitems] at hmem
    obtain ⟨x, hx, rfl⟩ := List.mem_map.mp hmem
    exact hl.bound x hx

variable [DecidableEq R] {o : StoreOp K R}

def step (s : SharedObjs K R) : StoreOp K R → SharedObjs K R
  | .set key obj =>
    ⟨s.store.set key ⟨obj, 0⟩, Function.update s.getGeneration obj (s.store.generation + 1)⟩
  | .delete key => { s with store := s.store.delete key }

theorem stamped_step (h : s.Stamped) (ho : s.Unshared o) : (s.step o).Stamped := by
  intro i hi
  cases o with
  | set key obj =>
    simp only [step, ListStore.items_set, List.mem_cons, List.mem_filter,
      decide_eq_true_iff] at hi
    simp only [step, Function.update_apply]
    rcases hi with rfl | ⟨hi, hkey⟩
    · simp [setGeneration]
    · rw [if_neg (mt (ho i hi) hkey)]
      exact h i hi
  | delete key =>
    simp only [step, ListStore.items_delete, List.mem_filter] at hi
    exact h i hi.1

theorem unshared_of_recency (h : (s.step o).Recency) : s.Unshared o := by
  cases o with
  | delete key => trivial
  | set key obj =>
    intro i hi href
    by_contra hkey
    have hdecreasing := h.2.1
    simp only [step, ListStore.items_set, List.pairwise_cons] at hdecreasing
    have hlt := hdecreasing.1 i (List.mem_filter.mpr ⟨hi, decide_eq_true hkey⟩)
    simp [href, setGeneration] at hlt

/-- For every run from the empty store, whatever generations the objects come with. -/
theorem recency_iff_unshared (getGeneration : R → ℤ) (ops : List (StoreOp K R)) :
    Always step Recency ⟨.new, getGeneration⟩ ops ↔
      Along step Unshared ⟨.new, getGeneration⟩ ops := by
  have hstamped : Stamped (⟨.new, getGeneration⟩ : SharedObjs K R) := by simp [Stamped]
  exact always_iff_along (fun _ h => h.recency) (fun _ _ h _ => stamped_step h)
    (fun _ _ _ _ => unshared_of_recency) hstamped (along_true _ ops)

/-- One object under two keys: the second `set` gives both items the generation 2. -/
theorem shared_obj_not_recency : ¬ Always step Recency
    (⟨.new, fun _ => 0⟩ : SharedObjs String String) [.set "a" "o", .set "b" "o"] := by
  intro h
  have hdecreasing := h.last.2.1
  revert hdecreasing
  decide

end SharedObjs

end GodelScheduler.GenerationStore
