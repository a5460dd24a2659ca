import GodelScheduler.Library.HashSlice
import GodelScheduler.Library.Runs

/-!
# The node hash slice as a set of nodes

The slice is compared with the nodes that were added and not deleted since, by name.
-/

namespace GodelScheduler.NodeHashSlice

open Library

variable {κ α : Type*} [DecidableEq κ] (getNodeName : α → κ)

def add (hs : HashSlice κ α) (n : α) : HashSlice κ α × Bool :=
  (hs.add getNodeName n, (hs.hash.lookup (getNodeName n)).isNone)

def del (hs : HashSlice κ α) (n : α) : HashSlice κ α × Bool :=
  (hs.del getNodeName n, (hs.hash.lookup (getNodeName n)).isSome)

inductive Op (α : Type*) where
  | add (n : α)
  | del (n : α)

/-- The slice and the current nodes by name. -/
def step (s : HashSlice κ α × (κ → Option α)) : Op α → HashSlice κ α × (κ → Option α)
  | .add n => ((add getNodeName s.1 n).1, Function.update s.2 (getNodeName n) (some n))
  | .del n => ((del getNodeName s.1 n).1, Function.update s.2 (getNodeName n) none)

/-- Every current node has a position, every position one name, and the node of that name. -/
structure Faithful (hs : HashSlice κ α) (nodes : κ → Option α) : Prop where
  stored : ∀ k, hs.hash.lookup k = none ↔ nodes k = none
  index : ∀ i < hs.items.length, ∃! k, hs.hash.lookup k = some i
  items : ∀ k i, hs.hash.lookup k = some i → hs.items[i]? = nodes k
  len : hs.count = hs.items.length

variable {getNodeName} {s : HashSlice κ α × (κ → Option α)}

/-- The slice holds the current nodes. -/
def Holds (getNodeName : α → κ) (s : HashSlice κ α × (κ → Option α)) : Prop :=
  s.1.WF getNodeName ∧ ∀ k n, s.2 k = some n ↔ n ∈ s.1.items ∧ getNodeName n = k

theorem Holds.step (h : Holds getNodeName s) (o : Op α) :
    Holds getNodeName (step getNodeName s o) := by
  obtain ⟨hwf, hnodes⟩ := h
  cases o with
  | add m =>
    refine ⟨hwf.add m, fun k n => ?_⟩
    simp only [NodeHashSlice.step, add, hwf.mem_add, Function.update_apply]
    grind
  | del m =>
    refine ⟨hwf.del m, fun k n => ?_⟩
    simp only [NodeHashSlice.step, del, hwf.mem_del, Function.update_apply]
    grind

theorem Holds.faithful (h : Holds getNodeName s) : Faithful s.1 s.2 := by
  obtain ⟨hwf, hnodes⟩ := h
  refine ⟨?_, ?_, ?_, hwf.count_eq⟩
  · intro k
    rw [hwf.lookup_eq_none, Option.eq_none_iff_forall_ne_some]
    simp [hnodes]
  · intro i hi
    have hn := List.getElem?_eq_getElem hi
    refine ⟨_, (hwf.hash_iff _ i).mpr ⟨_, hn, rfl⟩, ?_⟩
    intro k hk
    obtain ⟨m, hm, rfl⟩ := (hwf.hash_iff k i).mp hk
    rw [Option.some.inj (hm.symm.trans hn)]
  · intro k i hk
    obtain ⟨n, hn, hkey⟩ := (hwf.hash_iff k i).mp hk
    rw [hn, (hnodes k n).mpr ⟨List.mem_of_getElem? hn, hkey⟩]

/-- After every run of `Add` and `Del` from the empty slice, which is then faithful, the next call
reports whether the name is absent, or present. -/
theorem hashSlice_faithful (ops : List (Op α)) :
    let s := run (step getNodeName) (HashSlice.new, fun _ => none) ops
    Faithful s.1 s.2 ∧ ∀ n,
      ((add getNodeName s.1 n).2 = true ↔ s.2 (getNodeName n) = none) ∧
      ((del getNodeName s.1 n).2 = true ↔ s.2 (getNodeName n) ≠ none) := by
  intro s
  have hnew : Holds getNodeName (HashSlice.new, fun _ => none) := by
    refine ⟨HashSlice.wf_new _, ?_⟩
    simp [HashSlice.new]
  have h : Holds getNodeName s := run_invariant (fun _ o h => h.step o) hnew ops
  refine ⟨h.faithful, fun n => ?_⟩
  constructor
  · rw [← h.faithful.stored, add, Option.isNone_iff_eq_none]
  · rw [ne_eq, ← h.faithful.stored, del, Option.isSome_iff_ne_none]

end GodelScheduler.NodeHashSlice
