import Mathlib.Data.List.Nodup
import Mathlib.Tactic

/-!
# Doubly linked lists in a heap of cells

A heap is a list of cells addressed by position; allocation appends, and a cell
that is no longer linked stays where it is. `Seg h p l n` says that the cells
`l` (address and value) are linked both ways in this order, entered from `p`
and left towards `n`. Unlinking a cell and pushing one at the front are the two
updates; `foldWhile` walks the forward links.
-/

namespace GodelScheduler.Library.LinkedCells

open List

abbrev Addr := ℕ

structure Cell (α : Type*) where
  val : α
  next : Option Addr
  prev : Option Addr
  deriving DecidableEq, Repr

abbrev Heap (α : Type*) := List (Cell α)

variable {α σ : Type*}

def setNext (h : Heap α) (p : Option Addr) (n : Option Addr) : Heap α :=
  match p with
  | none => h
  | some a => h.modify a fun c => { c with next := n }

def setPrev (h : Heap α) (n : Option Addr) (p : Option Addr) : Heap α :=
  match n with
  | none => h
  | some a => h.modify a fun c => { c with prev := p }

def updateVal (h : Heap α) (a : Addr) (f : α → α) : Heap α :=
  h.modify a fun c => { c with val := f c.val }

def setLinks (h : Heap α) (a : Addr) (n p : Option Addr) : Heap α :=
  h.modify a fun c => { c with next := n, prev := p }

/-- Take the cell out of its list; its own links are kept. -/
def unlink (h : Heap α) (a : Addr) : Heap α :=
  match h[a]? with
  | none => h
  | some c => setPrev (setNext h c.prev c.next) c.next c.prev

/-- Address of the first cell, or `n` when there is none. -/
def first (l : List (Addr × α)) (n : Option Addr) : Option Addr :=
  (l.head?.map Prod.fst).or n

/-- Address of the last cell, or `p` when there is none. -/
def final (p : Option Addr) (l : List (Addr × α)) : Option Addr :=
  (l.getLast?.map Prod.fst).or p

def Seg (h : Heap α) : Option Addr → List (Addr × α) → Option Addr → Prop
  | _, [], _ => True
  | p, (a, v) :: l, n => h[a]? = some ⟨v, first l n, p⟩ ∧ Seg h (some a) l n

@[simp] theorem first_nil (n : Option Addr) : first ([] : List (Addr × α)) n = n := rfl

@[simp] theorem first_cons (x : Addr × α) (l : List (Addr × α)) (n : Option Addr) :
    first (x :: l) n = some x.1 := rfl

@[simp] theorem final_nil (p : Option Addr) : final p ([] : List (Addr × α)) = p := rfl

@[simp] theorem final_cons (p : Option Addr) (x : Addr × α) (l : List (Addr × α)) :
    final p (x :: l) = final (some x.1) l := by
  cases l with
  | nil => rfl
  | cons y l =>
    have hlast : (y :: l).getLast? = some ((y :: l).getLast (by simp)) :=
      List.getLast?_eq_some_getLast _
    simp [final, hlast]

theorem first_append (l₁ l₂ : List (Addr × α)) (n : Option Addr) :
    first (l₁ ++ l₂) n = first l₁ (first l₂ n) := by
  cases l₁ <;> rfl

variable {h : Heap α} {p n : Option Addr} {l : List (Addr × α)} {a : Addr}

theorem seg_append (l₁ l₂ : List (Addr × α)) (p n : Option Addr) :
    Seg h p (l₁ ++ l₂) n ↔ Seg h p l₁ (first l₂ n) ∧ Seg h (final p l₁) l₂ n := by
  induction l₁ generalizing p with
  | nil => simp [Seg]
  | cons x l₁ ih =>
    obtain ⟨a, v⟩ := x
    simp only [cons_append, Seg, first_append, final_cons, ih, and_assoc]

theorem Seg.getElem? (hs : Seg h p l n) {x : Addr × α} (hx : x ∈ l) :
    ∃ c, h[x.1]? = some c ∧ c.val = x.2 := by
  induction l generalizing p with
  | nil => simp at hx
  | cons y l ih =>
    rcases mem_cons.mp hx with rfl | hx
    · exact ⟨_, hs.1, rfl⟩
    · exact ih hs.2 hx

theorem Seg.congr {h h' : Heap α} (hs : Seg h p l n) (hag : ∀ x ∈ l, h'[x.1]? = h[x.1]?) :
    Seg h' p l n := by
  induction l generalizing p with
  | nil => trivial
  | cons x l ih =>
    rw [forall_mem_cons] at hag
    refine ⟨?_, ih hs.2 hag.2⟩
    rw [hag.1]
    exact hs.1

theorem Seg.modify (hs : Seg h p l n) (ha : a ∉ l.map Prod.fst) (f : Cell α → Cell α) :
    Seg (h.modify a f) p l n := by
  refine hs.congr fun x hx => ?_
  have hne : a ≠ x.1 := fun e => ha (e ▸ mem_map_of_mem hx)
  rw [List.getElem?_modify_ne _ _ hne]

theorem Seg.append_cell (hs : Seg h p l n) (c : Cell α) : Seg (h ++ [c]) p l n := by
  refine hs.congr fun x hx => ?_
  obtain ⟨d, hd, -⟩ := hs.getElem? hx
  rw [List.getElem?_append_left (List.getElem?_eq_some_iff.mp hd).1]

theorem Seg.setNext_final (hs : Seg h p l n) (hnd : (l.map Prod.fst).Nodup) (n' : Option Addr) :
    Seg (setNext h (final p l) n') p l n' := by
  induction l generalizing p with
  | nil => trivial
  | cons x l ih =>
    obtain ⟨a, v⟩ := x
    rw [map_cons, nodup_cons] at hnd
    have hrec := ih hs.2 hnd.2
    rw [final_cons]
    refine ⟨?_, hrec⟩
    cases l with
    | nil => simp [setNext, List.getElem?_modify_eq, hs.1]
    | cons y l =>
      have hlast : ∃ b, final (some a) (y :: l) = some b ∧ b ∈ (y :: l).map Prod.fst := by
        refine ⟨((y :: l).getLast (by simp)).1, ?_, ?_⟩
        · simp [final, List.getLast?_eq_some_getLast]
        · exact mem_map_of_mem (getLast_mem _)
      obtain ⟨b, hb, hmem⟩ := hlast
      have hne : b ≠ a := fun e => hnd.1 (e ▸ hmem)
      rw [hb, setNext, List.getElem?_modify_ne _ _ hne]
      simpa using hs.1

theorem Seg.setPrev_first (hs : Seg h p l n) (hnd : (l.map Prod.fst).Nodup) (p' : Option Addr) :
    Seg (setPrev h (first l n) p') p' l n := by
  cases l with
  | nil => trivial
  | cons x l =>
    obtain ⟨a, v⟩ := x
    rw [map_cons, nodup_cons] at hnd
    refine ⟨?_, hs.2.modify hnd.1 _⟩
    simp [setPrev, List.getElem?_modify_eq, hs.1]

theorem setNext_of_notMem {p n q : Option Addr} (hs : Seg h q l n)
    (hp : ∀ a ∈ p, a ∉ l.map Prod.fst) (m : Option Addr) : Seg (setNext h p m) q l n := by
  cases p with
  | none => exact hs
  | some a => exact hs.modify (hp a rfl) _

theorem setPrev_of_notMem {m n q : Option Addr} (hs : Seg h q l n)
    (hm : ∀ a ∈ m, a ∉ l.map Prod.fst) (p : Option Addr) : Seg (setPrev h m p) q l n := by
  cases m with
  | none => exact hs
  | some a => exact hs.modify (hm a rfl) _

theorem mem_of_final (h : a ∈ final none l) : a ∈ l.map Prod.fst := by
  simp only [final, Option.or_none, Option.mem_def, Option.map_eq_some_iff] at h
  obtain ⟨x, hx, rfl⟩ := h
  exact mem_map_of_mem (mem_of_getLast? hx)

theorem mem_of_first (h : a ∈ first l none) : a ∈ l.map Prod.fst := by
  simp only [first, Option.or_none, Option.mem_def, Option.map_eq_some_iff] at h
  obtain ⟨x, hx, rfl⟩ := h
  exact mem_map_of_mem (mem_of_head? hx)

theorem Seg.unlink {l₁ l₂ : List (Addr × α)} {v : α} (hs : Seg h none (l₁ ++ (a, v) :: l₂) none)
    (hnd : ((l₁ ++ (a, v) :: l₂).map Prod.fst).Nodup) : Seg (unlink h a) none (l₁ ++ l₂) none := by
  obtain ⟨h₁, hcell, h₂⟩ := (seg_append l₁ ((a, v) :: l₂) none none).mp hs
  rw [map_append, map_cons, nodup_append] at hnd
  obtain ⟨hnd₁, hnd₂, hdisj⟩ := hnd
  have hnd₂ := (nodup_cons.mp hnd₂).2
  have hout₁ : ∀ b ∈ first l₂ none, b ∉ l₁.map Prod.fst := fun b hb hmem =>
    hdisj b hmem b (mem_cons_of_mem _ (mem_of_first hb)) rfl
  have hout₂ : ∀ b ∈ final none l₁, b ∉ l₂.map Prod.fst := fun b hb hmem =>
    hdisj b (mem_of_final hb) b (mem_cons_of_mem _ hmem) rfl
  simp only [LinkedCells.unlink, hcell]
  refine (seg_append l₁ l₂ none none).mpr ⟨?_, ?_⟩
  · exact setPrev_of_notMem (h₁.setNext_final hnd₁ _) hout₁ _
  · exact (setNext_of_notMem h₂ hout₂ _).setPrev_first hnd₂ _

theorem modify_val (h : Heap α) (a b : Addr) (f : Cell α → Cell α)
    (hf : ∀ c, (f c).val = c.val) : (h.modify a f)[b]?.map Cell.val = h[b]?.map Cell.val := by
  by_cases hab : a = b
  · subst hab
    rw [List.getElem?_modify_eq]
    cases h[a]? <;> simp [hf]
  · rw [List.getElem?_modify_ne _ _ hab]

theorem Seg.updateVal (hs : Seg h p l n) (a : Addr) (f : α → α) :
    Seg (updateVal h a f) p (l.map fun x => (x.1, if x.1 = a then f x.2 else x.2)) n := by
  induction l generalizing p with
  | nil => trivial
  | cons x l ih =>
    obtain ⟨b, v⟩ := x
    refine ⟨?_, ih hs.2⟩
    have hfirst : first (l.map fun x => (x.1, if x.1 = a then f x.2 else x.2)) n = first l n := by
      cases l <;> rfl
    rw [hfirst, LinkedCells.updateVal]
    by_cases hb : b = a
    · subst hb
      simp [List.getElem?_modify_eq, hs.1]
    · rw [List.getElem?_modify_ne _ _ (Ne.symm hb), hs.1]
      simp [hb]

theorem setNext_val (h : Heap α) (p n : Option Addr) (b : Addr) :
    (setNext h p n)[b]?.map Cell.val = h[b]?.map Cell.val := by
  cases p with
  | none => rfl
  | some a => exact modify_val h a b _ fun _ => rfl

theorem setPrev_val (h : Heap α) (n p : Option Addr) (b : Addr) :
    (setPrev h n p)[b]?.map Cell.val = h[b]?.map Cell.val := by
  cases n with
  | none => rfl
  | some a => exact modify_val h a b _ fun _ => rfl

theorem unlink_val (h : Heap α) (a b : Addr) :
    (unlink h a)[b]?.map Cell.val = h[b]?.map Cell.val := by
  unfold unlink
  split
  · rfl
  · rw [setPrev_val, setNext_val]

/-- Push a cell at the front: link it to the old head and the old head back to it. -/
def pushFront (h : Heap α) (head : Option Addr) (a : Addr) : Heap α :=
  setLinks (setPrev h head (some a)) a head none

theorem Seg.pushFront {c : Cell α} (hs : Seg h none l none) (hc : h[a]? = some c)
    (hnd : (a :: l.map Prod.fst).Nodup) :
    Seg (pushFront h (first l none) a) none ((a, c.val) :: l) none := by
  obtain ⟨ha, hnd⟩ := nodup_cons.mp hnd
  refine ⟨?_, (hs.setPrev_first hnd _).modify ha _⟩
  have hne : ∀ b ∈ first l none, b ≠ a := fun b hb e => ha (e ▸ mem_of_first hb)
  have hkeep : (setPrev h (first l none) (some a))[a]? = some c := by
    cases hf : first l none with
    | none => exact hc
    | some b => rw [setPrev, List.getElem?_modify_ne _ _ (hne b hf), hc]
  simp [LinkedCells.pushFront, setLinks, List.getElem?_modify_eq, hkeep]

/-- Walk the forward links from `p` while `keep` holds. -/
def foldWhile (keep : α → Bool) (f : σ → α → σ) (h : Heap α) : ℕ → Option Addr → σ → σ
  | 0, _, s => s
  | _ + 1, none, s => s
  | fuel + 1, some a, s =>
    match h[a]? with
    | none => s
    | some c => if keep c.val then foldWhile keep f h fuel c.next (f s c.val) else s

theorem Seg.foldWhile_eq {p : Option Addr} (hs : Seg h p l none) {fuel : ℕ}
    (hfuel : l.length ≤ fuel) (keep : α → Bool) (f : σ → α → σ) (s : σ) :
    foldWhile keep f h fuel (first l none) s = ((l.map Prod.snd).takeWhile keep).foldl f s := by
  induction l generalizing p fuel s with
  | nil => cases fuel <;> simp [foldWhile]
  | cons x l ih =>
    obtain ⟨a, v⟩ := x
    obtain ⟨fuel, rfl⟩ : ∃ m, fuel = m + 1 := ⟨fuel - 1, by simp at hfuel; omega⟩
    have hrec := ih hs.2 (Nat.le_of_succ_le_succ hfuel)
    by_cases hk : keep v <;> simp [foldWhile, hs.1, hk, hrec]

theorem Seg.length_le (hs : Seg h p l n) (hnd : (l.map Prod.fst).Nodup) : l.length ≤ h.length := by
  have hsub : l.map Prod.fst ⊆ List.range h.length := by
    intro a ha
    obtain ⟨x, hx, rfl⟩ := mem_map.mp ha
    obtain ⟨c, hc, -⟩ := hs.getElem? hx
    exact mem_range.mpr (List.getElem?_eq_some_iff.mp hc).1
  simpa using (hnd.subperm hsub).length_le

end GodelScheduler.Library.LinkedCells
