import Mathlib.Data.List.Nodup
import Mathlib.Tactic

/-!
# Binary trees in an array of linked slots

A slot of the array has a left child, a right child and a parent, and slot 0
stands for no node. `Embeds h p t` says that the array `h` holds the tree `t`
below the parent `p`, all links included. A tree is taken apart at one of its
nodes into the subtree there and the path above it (`plug`); the array holds the
whole just when it holds the two parts (`embeds_plug`).

Left and right are the directions `false` and `true`, so that a rotation and its
mirror image are one theorem, `embeds_rotate`: the links that a rotation writes
make the array hold the rotated tree, whose in-order walk is what it was.
-/

namespace GodelScheduler.Library

open List hiding after nil

inductive SlotTree
  | nil
  | node (l : SlotTree) (x : ℕ) (r : SlotTree)
  deriving DecidableEq

namespace SlotTree

def root : SlotTree → ℕ
  | nil => 0
  | node _ x _ => x

def inorder : SlotTree → List ℕ
  | nil => []
  | node l x r => l.inorder ++ x :: r.inorder

/-- The node `x` with `t` in direction `d` and `u` in the other one. -/
def branch (d : Bool) (t : SlotTree) (x : ℕ) (u : SlotTree) : SlotTree :=
  bif d then node u x t else node t x u

/-- A node above the subtree in question: the direction in which the subtree hangs, and the
subtree in the other direction. -/
structure Frame where
  dir : Bool
  slot : ℕ
  sibling : SlotTree

/-- Put a tree below a path, which is listed upwards. -/
def plug : SlotTree → List Frame → SlotTree
  | t, [] => t
  | t, f :: path => plug (branch f.dir t f.slot f.sibling) path

/-- The slot of the node a path hangs its subtree from, 0 for the empty path. -/
def above : List Frame → ℕ
  | [] => 0
  | f :: _ => f.slot

def side : List Frame → Bool
  | [] => false
  | f :: _ => f.dir

def pathSlots : List Frame → List ℕ
  | [] => []
  | f :: path => f.slot :: f.sibling.inorder ++ pathSlots path

/-- What the in-order walk visits before the subtree below a path. -/
def before : List Frame → List ℕ
  | [] => []
  | f :: path => before path ++ bif f.dir then f.sibling.inorder ++ [f.slot] else []

/-- What the in-order walk visits after the subtree below a path. -/
def after : List Frame → List ℕ
  | [] => []
  | f :: path => (bif f.dir then [] else f.slot :: f.sibling.inorder) ++ after path

/-- The node reached from the root by going in one direction as far as possible. -/
def far (d : Bool) : SlotTree → ℕ
  | nil => 0
  | node l x r =>
    bif d then (if r.root = 0 then x else far d r) else (if l.root = 0 then x else far d l)

section

variable (d : Bool) (t u : SlotTree) (x : ℕ) (path : List Frame)

@[simp] theorem root_branch : (branch d t x u).root = x := by
  cases d <;> rfl

theorem branch_not : branch (!d) t x u = branch d u x t := by
  cases d <;> rfl

theorem perm_inorder_branch : (branch d t x u).inorder.Perm (x :: (t.inorder ++ u.inorder)) := by
  cases d
  · exact perm_middle
  · exact perm_middle.trans (perm_append_comm.cons x)

theorem inorder_rotate (a b c : SlotTree) (y : ℕ) :
    (branch (!d) (branch d b y c) x a).inorder = (branch d (branch d a x b) y c).inorder := by
  cases d <;> simp [branch, inorder]

theorem inorder_plug : (plug t path).inorder = before path ++ t.inorder ++ after path := by
  induction path generalizing t with
  | nil => simp [plug, before, after]
  | cons f path ih =>
    rw [plug, ih]
    cases hd : f.dir <;> simp [before, after, branch, inorder, hd]

theorem perm_inorder_plug : (plug t path).inorder.Perm (t.inorder ++ pathSlots path) := by
  induction path generalizing t with
  | nil => simp [plug, pathSlots]
  | cons f path ih =>
    refine (ih _).trans ?_
    have hbranch := (perm_inorder_branch f.dir t f.sibling f.slot).append_right (pathSlots path)
    refine hbranch.trans ?_
    rw [pathSlots, cons_append, append_assoc, cons_append]
    exact perm_middle.symm

theorem plug_append (path' : List Frame) : plug t (path ++ path') = plug (plug t path) path' := by
  induction path generalizing t with
  | nil => rfl
  | cons f path ih => exact ih _

theorem inorder_plug_congr {t t' : SlotTree} (h : t.inorder = t'.inorder) :
    (plug t path).inorder = (plug t' path).inorder := by
  rw [inorder_plug, inorder_plug, h]

variable {t x path}

theorem root_mem (h : t.root ≠ 0) : t.root ∈ t.inorder := by
  cases t with
  | nil => exact absurd rfl h
  | node l x r => simp [root, inorder]

theorem eq_nil_of_inorder (h : t.inorder = []) : t = nil := by
  cases t with
  | nil => rfl
  | node l x r => simp [inorder] at h

theorem eq_leaf_of_inorder (h : t.inorder = [x]) : t = node nil x nil := by
  cases t with
  | nil => cases h
  | node l y r =>
    have hlen := congrArg List.length h
    simp only [inorder, length_append, length_cons, length_nil] at hlen
    obtain rfl := eq_nil_of_inorder (eq_nil_of_length_eq_zero (l := l.inorder) (by omega))
    obtain rfl := eq_nil_of_inorder (eq_nil_of_length_eq_zero (l := r.inorder) (by omega))
    obtain rfl : y = x := by simpa [inorder] using h
    rfl

theorem above_mem (h : above path ≠ 0) : above path ∈ pathSlots path := by
  cases path with
  | nil => exact absurd rfl h
  | cons f path => simp [above, pathSlots]

theorem ne_root {i : ℕ} (h : i ≠ 0) (hi : i ∉ t.inorder) : i ≠ t.root := by
  rintro rfl
  exact hi (root_mem h)

theorem ne_above {i : ℕ} (h : i ≠ 0) (hi : i ∉ pathSlots path) : i ≠ above path := by
  rintro rfl
  exact hi (above_mem h)

theorem mem_pathSlots {f : Frame} {i : ℕ} (hf : f ∈ path)
    (hi : i = f.slot ∨ i ∈ f.sibling.inorder) : i ∈ pathSlots path := by
  induction path with
  | nil => cases hf
  | cons g path ih =>
    simp only [pathSlots, mem_append, mem_cons]
    rcases mem_cons.mp hf with rfl | hf
    · exact .inl hi
    · exact .inr (ih hf)

theorem exists_plug (h : x ∈ t.inorder) : ∃ l r path, t = plug (node l x r) path := by
  induction t with
  | nil => cases h
  | node l y r ihl ihr =>
    rcases mem_append.mp h with h | h
    · obtain ⟨a, b, path, hl⟩ := ihl h
      exact ⟨a, b, path ++ [⟨false, y, r⟩], by rw [plug_append, ← hl]; rfl⟩
    · rcases mem_cons.mp h with rfl | h
      · exact ⟨l, r, [], rfl⟩
      · obtain ⟨a, b, path, hr⟩ := ihr h
        exact ⟨a, b, path ++ [⟨true, y, l⟩], by rw [plug_append, ← hr]; rfl⟩

theorem pathSlots_append (path path' : List Frame) :
    pathSlots (path ++ path') = pathSlots path ++ pathSlots path' := by
  induction path with
  | nil => rfl
  | cons f path ih => simp [pathSlots, ih]

theorem length_le_pathSlots (path : List Frame) : path.length ≤ (pathSlots path).length := by
  induction path with
  | nil => simp
  | cons f path ih =>
    rw [pathSlots, length_append, length_cons, length_cons]
    omega

end

section

variable (g : ℕ → Bool)

/-- The path of a search from the root to the empty place where it ends: right where `g` holds. -/
def searchPath : SlotTree → List Frame → List Frame
  | nil, path => path
  | node l x r, path =>
    if g x then searchPath r (⟨true, x, l⟩ :: path) else searchPath l (⟨false, x, r⟩ :: path)

/-- Along the walk the slots with `g` come before those without. -/
def Monotone (l : List ℕ) : Prop := l.Pairwise fun i j => g j → g i

variable {g} {t : SlotTree} {path : List Frame}

theorem plug_searchPath : plug nil (searchPath g t path) = plug t path := by
  induction t generalizing path with
  | nil => rfl
  | node l x r ihl ihr =>
    rw [searchPath]
    split_ifs
    · rw [ihr]
      rfl
    · rw [ihl]
      rfl

/-- In a walk ordered by `g`, the search ends between the slots with `g` and those without. -/
theorem searchPath_split (ht : Monotone g t.inorder)
    (hbefore : ∀ i ∈ before path, g i) (hafter : ∀ i ∈ after path, ¬ g i) :
    (∀ i ∈ before (searchPath g t path), g i) ∧ ∀ i ∈ after (searchPath g t path), ¬ g i := by
  induction t generalizing path with
  | nil => exact ⟨hbefore, hafter⟩
  | node l x r ihl ihr =>
    obtain ⟨hl, hxr, hcross⟩ := pairwise_append.mp ht
    obtain ⟨hx, hr⟩ := pairwise_cons.mp hxr
    rw [searchPath]
    split_ifs with hg
    · refine ihr hr ?_ (by simpa [after] using hafter)
      simp only [before, cond_true, mem_append, mem_singleton]
      rintro i (hi | hi | rfl)
      · exact hbefore i hi
      · exact hcross i hi x mem_cons_self hg
      · exact hg
    · refine ihl hl (by simpa [before] using hbefore) ?_
      simp only [after, cond_false, cons_append, mem_cons, mem_append]
      rintro i (rfl | hi | hi)
      · exact hg
      · exact fun hgi => hg (hx i hi hgi)
      · exact hafter i hi

variable (h : ∀ f ∈ path, f.dir = g f.slot)

include h

theorem dir_searchPath : ∀ f ∈ searchPath g t path, f.dir = g f.slot := by
  induction t generalizing path with
  | nil => exact h
  | node l x r ihl ihr =>
    rw [searchPath]
    split_ifs with hg
    · exact ihr (forall_mem_cons.mpr ⟨hg.symm, h⟩)
    · exact ihl (forall_mem_cons.mpr ⟨(Bool.eq_false_iff.mpr hg).symm, h⟩)

theorem head_after {i : ℕ} {l : List ℕ} (hafter : after path = i :: l) : g i = false := by
  induction path with
  | nil => cases hafter
  | cons f path ih =>
    obtain ⟨hf, hpath⟩ := forall_mem_cons.mp h
    cases hd : f.dir with
    | true => exact ih hpath (by simpa [after, hd] using hafter)
    | false =>
      simp only [after, hd, cond_false, cons_append, List.cons.injEq] at hafter
      rw [← hafter.1, ← hf, hd]

theorem last_before (hafter : after path = []) {i : ℕ}
    {l : List ℕ} (hbefore : before path = l ++ [i]) : g i = true := by
  cases path with
  | nil => simp [before] at hbefore
  | cons f path =>
    obtain ⟨hf, -⟩ := forall_mem_cons.mp h
    cases hd : f.dir with
    | false => simp [after, hd] at hafter
    | true =>
      rw [before, hd, cond_true, ← append_assoc] at hbefore
      have hlast := (append_inj' hbefore rfl).2
      rw [List.cons.injEq] at hlast
      rw [← hlast.1, ← hf, hd]

end

section

variable {t : SlotTree}

theorem inorder_far_right (h : t.root ≠ 0) (hz : 0 ∉ t.inorder) :
    ∃ m, t.inorder = m ++ [far true t] := by
  induction t with
  | nil => exact absurd rfl h
  | node l x r _ ihr =>
    by_cases hr : r.root = 0
    · cases r with
      | nil => exact ⟨l.inorder, by simp [inorder, far, root]⟩
      | node a y b => exact absurd (by simp [inorder, hr.symm, root]) hz
    · obtain ⟨m, hm⟩ := ihr hr (fun h0 => hz (by simp [inorder, h0]))
      exact ⟨l.inorder ++ x :: m, by simp [inorder, far, hr, hm]⟩

theorem inorder_far_left (h : t.root ≠ 0) (hz : 0 ∉ t.inorder) :
    ∃ m, t.inorder = far false t :: m := by
  induction t with
  | nil => exact absurd rfl h
  | node l x r ihl _ =>
    by_cases hl : l.root = 0
    · cases l with
      | nil => exact ⟨r.inorder, by simp [inorder, far, root]⟩
      | node a y b => exact absurd (by simp [inorder, hl.symm, root]) hz
    · obtain ⟨m, hm⟩ := ihl hl (fun h0 => hz (by simp [inorder, h0]))
      exact ⟨m ++ x :: r.inorder, by simp [inorder, far, hl, hm]⟩

end

section

variable (σ : ℕ → ℕ)

def map : SlotTree → SlotTree
  | nil => nil
  | node l x r => node l.map (σ x) r.map

@[simp] theorem inorder_map (t : SlotTree) : (t.map σ).inorder = t.inorder.map σ := by
  induction t with
  | nil => rfl
  | node l x r ihl ihr => simp [map, inorder, ihl, ihr]

variable {σ}

theorem map_eq_self {t : SlotTree} (h : ∀ i ∈ t.inorder, σ i = i) : t.map σ = t := by
  induction t with
  | nil => rfl
  | node l x r ihl ihr =>
    simp only [inorder, mem_append, mem_cons] at h
    rw [map, ihl fun i hi => h i (.inl hi), ihr fun i hi => h i (.inr (.inr hi)),
      h x (.inr (.inl rfl))]

theorem map_plug {t : SlotTree} {path : List Frame} (h : ∀ i ∈ pathSlots path, σ i = i) :
    (plug t path).map σ = plug (t.map σ) path := by
  induction path generalizing t with
  | nil => rfl
  | cons f path ih =>
    simp only [pathSlots, mem_append, mem_cons] at h
    rw [plug, ih fun i hi => h i (.inr hi), plug]
    have hsib : f.sibling.map σ = f.sibling := map_eq_self fun i hi => h i (.inl (.inr hi))
    cases f.dir <;> simp [branch, map, hsib, h f.slot (.inl (.inl rfl))]

end

end SlotTree

structure Cell where
  lchild : ℕ
  rchild : ℕ
  parent : ℕ
  deriving DecidableEq

namespace Cell

def child (c : Cell) (d : Bool) : ℕ := bif d then c.rchild else c.lchild

def setChild (c : Cell) (d : Bool) (v : ℕ) : Cell :=
  bif d then { c with rchild := v } else { c with lchild := v }

def setParent (c : Cell) (v : ℕ) : Cell := { c with parent := v }

/-- The cell with child `i` in direction `d`, child `j` in the other one, and parent `p`. -/
def of (d : Bool) (i j p : ℕ) : Cell := bif d then ⟨j, i, p⟩ else ⟨i, j, p⟩

variable (d : Bool) (i j p v : ℕ)

@[simp] theorem child_of : (of d i j p).child d = i := by
  cases d <;> rfl

@[simp] theorem child_of_not : (of d i j p).child (!d) = j := by
  cases d <;> rfl

@[simp] theorem parent_of : (of d i j p).parent = p := by
  cases d <;> rfl

@[simp] theorem setChild_of : (of d i j p).setChild d v = of d v j p := by
  cases d <;> rfl

@[simp] theorem setChild_of_not : (of d i j p).setChild (!d) v = of d i v p := by
  cases d <;> rfl

@[simp] theorem setParent_of : (of d i j p).setParent v = of d i j v := by
  cases d <;> rfl

theorem of_not : of (!d) i j p = of d j i p := by
  cases d <;> rfl

end Cell

abbrev Cells := ℕ → Option Cell

namespace Cells

open SlotTree

/-- A write to one slot, unless it is slot 0. -/
def write (h : Cells) (i : ℕ) (f : Cell → Cell) : Cells :=
  fun j => if j = i ∧ j ≠ 0 then (h j).map f else h j

section

variable {h : Cells} {i j : ℕ} {f : Cell → Cell}

theorem write_self (hi : i ≠ 0) : h.write i f i = (h i).map f := if_pos ⟨rfl, hi⟩

theorem write_of_ne (hij : j ≠ i) : h.write i f j = h j := if_neg fun hj => hij hj.1

theorem write_zero : h.write 0 f = h := by
  funext j
  exact if_neg fun hj => hj.2 hj.1

theorem isSome_write : (h.write i f j).isSome = (h j).isSome := by
  rw [write]
  split_ifs <;> simp

end

/-- The array holds the tree, and the parent of its root is `p`. -/
def Embeds (h : Cells) : ℕ → SlotTree → Prop
  | _, nil => True
  | p, node l x r => x ≠ 0 ∧ h x = some ⟨l.root, r.root, p⟩ ∧ Embeds h x l ∧ Embeds h x r

/-- The array holds a path, with the slot `i` in the place of the subtree. -/
def EmbedsPath (h : Cells) : List Frame → ℕ → Prop
  | [], _ => True
  | f :: path, i => f.slot ≠ 0 ∧ h f.slot = some (.of f.dir i f.sibling.root (above path)) ∧
    Embeds h f.slot f.sibling ∧ EmbedsPath h path f.slot

section Embeds

variable {h h' : Cells} {p q : ℕ} {t u : SlotTree} {path : List Frame} {i j x : ℕ} {d : Bool}

theorem embeds_branch : Embeds h p (branch d t x u) ↔
    x ≠ 0 ∧ h x = some (.of d t.root u.root p) ∧ Embeds h x t ∧ Embeds h x u := by
  cases d <;> simp only [branch, Embeds, Cell.of, cond_false, cond_true]
  tauto

theorem embeds_plug : Embeds h 0 (plug t path) ↔
    Embeds h (above path) t ∧ EmbedsPath h path t.root := by
  induction path generalizing t with
  | nil => simp [plug, EmbedsPath, above]
  | cons f path ih =>
    rw [plug, ih, embeds_branch, root_branch]
    simp only [EmbedsPath, above]
    tauto

theorem Embeds.mem (ht : Embeds h p t) (hi : i ∈ t.inorder) : i ≠ 0 ∧ (h i).isSome := by
  induction t generalizing p with
  | nil => cases hi
  | node l x r ihl ihr =>
    obtain ⟨hx, hcell, hl, hr⟩ := ht
    rcases mem_append.mp hi with hi | hi
    · exact ihl hl hi
    · rcases mem_cons.mp hi with rfl | hi
      · exact ⟨hx, Option.isSome_of_eq_some hcell⟩
      · exact ihr hr hi

theorem Embeds.ne_zero (ht : Embeds h p t) (hi : i ∈ t.inorder) : i ≠ 0 := (ht.mem hi).1

theorem Embeds.isSome (ht : Embeds h p t) (hi : i ∈ t.inorder) : (h i).isSome := (ht.mem hi).2

theorem EmbedsPath.ne_zero (hpath : EmbedsPath h path i) (hj : j ∈ pathSlots path) : j ≠ 0 := by
  induction path generalizing i with
  | nil => cases hj
  | cons f path ih =>
    obtain ⟨hf, -, hsib, hrest⟩ := hpath
    simp only [pathSlots, mem_append, mem_cons] at hj
    rcases hj with (rfl | hj) | hj
    · exact hf
    · exact hsib.ne_zero hj
    · exact ih hrest hj

theorem Embeds.congr (ht : Embeds h p t) (hagree : ∀ i ∈ t.inorder, h' i = h i) :
    Embeds h' p t := by
  induction t generalizing p with
  | nil => trivial
  | node l x r ihl ihr =>
    obtain ⟨hx, hcell, hl, hr⟩ := ht
    simp only [inorder, mem_append, mem_cons] at hagree
    refine ⟨hx, ?_, ihl hl fun i hi => hagree i (.inl hi),
      ihr hr fun i hi => hagree i (.inr (.inr hi))⟩
    rw [hagree x (.inr (.inl rfl)), hcell]

theorem EmbedsPath.congr (hpath : EmbedsPath h path i)
    (hagree : ∀ j ∈ pathSlots path, h' j = h j) : EmbedsPath h' path i := by
  induction path generalizing i with
  | nil => trivial
  | cons f path ih =>
    obtain ⟨hf, hcell, hsib, hrest⟩ := hpath
    simp only [pathSlots, mem_append, mem_cons] at hagree
    refine ⟨hf, ?_, hsib.congr fun j hj => hagree j (.inl (.inr hj)),
      ih hrest fun j hj => hagree j (.inr hj)⟩
    rw [hagree _ (.inl (.inl rfl)), hcell]

theorem Embeds.reparent (ht : Embeds h p t) (hnodup : t.inorder.Nodup)
    (hroot : t.root ≠ 0 → h' t.root = (h t.root).map fun c => c.setParent q)
    (hagree : ∀ i ∈ t.inorder, i ≠ t.root → h' i = h i) : Embeds h' q t := by
  cases t with
  | nil => trivial
  | node l x r =>
    obtain ⟨hx, hcell, hl, hr⟩ := ht
    simp only [inorder, nodup_append, nodup_cons, mem_cons] at hnodup
    obtain ⟨-, ⟨hxr, -⟩, hlx⟩ := hnodup
    simp only [inorder, root, mem_append, mem_cons] at hagree hroot
    refine ⟨hx, ?_, hl.congr fun i hi => hagree i (.inl hi) ?_,
      hr.congr fun i hi => hagree i (.inr (.inr hi)) ?_⟩
    · rw [hroot hx, hcell]
      rfl
    · rintro rfl
      exact hlx i hi i (.inl rfl) rfl
    · rintro rfl
      exact hxr hi

theorem EmbedsPath.replace (hpath : EmbedsPath h path i) (hnodup : (pathSlots path).Nodup)
    (htop : above path ≠ 0 →
      h' (above path) = (h (above path)).map fun c => c.setChild (side path) j)
    (hagree : ∀ i ∈ pathSlots path, i ≠ above path → h' i = h i) : EmbedsPath h' path j := by
  cases path with
  | nil => trivial
  | cons f path =>
    obtain ⟨hf, hcell, hsib, hrest⟩ := hpath
    simp only [pathSlots, cons_append, nodup_cons, mem_append] at hnodup
    obtain ⟨hfresh, -⟩ := hnodup
    simp only [pathSlots, above, side, mem_append, mem_cons] at hagree htop
    refine ⟨hf, ?_, hsib.congr fun i hi => hagree i (.inl (.inr hi)) ?_,
      hrest.congr fun i hi => hagree i (.inr hi) ?_⟩
    · rw [htop hf, hcell, Option.map_some, Cell.setChild_of]
    · rintro rfl
      exact hfresh (.inl hi)
    · rintro rfl
      exact hfresh (.inr hi)

theorem nodup_rotate {k : Bool} {a b c : SlotTree} {x y : ℕ} {rest : List Frame}
    (hnodup : (plug (branch k (branch k a x b) y c) rest).inorder.Nodup) :
    (y :: x :: (a.inorder ++ (b.inorder ++ (c.inorder ++ pathSlots rest)))).Nodup := by
  have houter := (perm_inorder_branch k (branch k a x b) c y).append_right (pathSlots rest)
  have hinner := (perm_inorder_branch k a b x).append_right (c.inorder ++ pathSlots rest)
  have hperm := (perm_inorder_plug _ rest).trans houter
  rw [cons_append, append_assoc] at hperm
  have h := (hperm.trans (hinner.cons y)).nodup_iff.mp hnodup
  rwa [cons_append, append_assoc] at h

/-- The links a rotation of `x` over its parent `y` writes: it takes the place of `y`, takes `y`
for its child, and hands over its inner subtree. -/
structure Rotates (h h' : Cells) (k : Bool) (a : SlotTree) (x : ℕ) (b : SlotTree) (y : ℕ)
    (c : SlotTree) (rest : List Frame) : Prop where
  lifted : h' x = some (.of k a.root y (above rest))
  lowered : h' y = some (.of k b.root c.root x)
  inner : b.root ≠ 0 → h' b.root = (h b.root).map fun cell => cell.setParent y
  top : above rest ≠ 0 →
    h' (above rest) = (h (above rest)).map fun cell => cell.setChild (side rest) x
  other : ∀ j, j ≠ x → j ≠ y → j ≠ b.root → j ≠ above rest → h' j = h j

theorem embeds_rotate {k : Bool} {a b c : SlotTree} {y : ℕ} {rest : List Frame}
    (hembeds : Embeds h 0 (plug (branch k (branch k a x b) y c) rest))
    (hnodup : (plug (branch k (branch k a x b) y c) rest).inorder.Nodup)
    (hrot : Rotates h h' k a x b y c rest) :
    Embeds h' 0 (plug (branch (!k) (branch k b y c) x a) rest) := by
  obtain ⟨hy, hrest⟩ := embeds_plug.mp hembeds
  obtain ⟨hy0, -, hx, hc⟩ := embeds_branch.mp hy
  obtain ⟨hx0, -, ha, hb⟩ := embeds_branch.mp hx
  have hd := nodup_rotate hnodup
  simp only [nodup_cons, nodup_append, mem_cons, mem_append, not_or] at hd
  obtain ⟨⟨hyx, hya, hyb, hyc, hyr⟩, ⟨hxa, hxb, hxc, hxr⟩, -, ⟨hbnd, ⟨-, hrnd, hcr⟩, hbcr⟩,
    habcr⟩ := hd
  -- The four slots written lie outside a subtree that shares none of them.
  have hkeep : ∀ j, j ≠ 0 → j ≠ x → j ≠ y → (j ∈ b.inorder → j ≠ b.root) →
      (j ∈ pathSlots rest → j ≠ above rest) → h' j = h j := by
    intro j hj0 hjx hjy hjb hjr
    refine hrot.other j hjx hjy ?_ ?_
    · rintro rfl
      exact hjb (root_mem hj0) rfl
    · rintro rfl
      exact hjr (above_mem hj0) rfl
  rw [embeds_plug, embeds_branch, embeds_branch, root_branch, root_branch]
  refine ⟨⟨hx0, ?_, ⟨hy0, hrot.lowered, ?_, ?_⟩, ?_⟩, ?_⟩
  · rw [hrot.lifted, Cell.of_not]
  · refine hb.reparent hbnd hrot.inner fun j hj hjroot => ?_
    exact hkeep j (hb.ne_zero hj) (by grind) (by grind) (fun _ => hjroot) (by grind)
  · refine hc.congr fun j hj => ?_
    exact hkeep j (hc.ne_zero hj) (by grind) (by grind) (by grind) (by grind)
  · refine ha.congr fun j hj => ?_
    exact hkeep j (ha.ne_zero hj) (by grind) (by grind) (by grind) (by grind)
  · refine hrest.replace hrnd hrot.top fun j hj hjtop => ?_
    exact hkeep j (hrest.ne_zero hj) (by grind) (by grind) (by grind) (fun _ => hjtop)

/-- The links that move the node of slot `last` to slot `i`. -/
structure Relocates (h h' : Cells) (l : SlotTree) (i : ℕ) (r : SlotTree) (path : List Frame) :
    Prop where
  moved : h' i = some ⟨l.root, r.root, above path⟩
  left : l.root ≠ 0 → h' l.root = (h l.root).map fun cell => cell.setParent i
  right : r.root ≠ 0 → h' r.root = (h r.root).map fun cell => cell.setParent i
  top : above path ≠ 0 →
    h' (above path) = (h (above path)).map fun cell => cell.setChild (side path) i
  other : ∀ j, j ≠ i → j ≠ l.root → j ≠ r.root → j ≠ above path → h' j = h j

theorem embeds_relocate {l r : SlotTree} {last : ℕ}
    (hembeds : Embeds h 0 (plug (node l last r) path))
    (hnodup : (plug (node l last r) path).inorder.Nodup)
    (hi : i ∉ (plug (node l last r) path).inorder) (hi0 : i ≠ 0)
    (hmove : Relocates h h' l i r path) : Embeds h' 0 (plug (node l i r) path) := by
  obtain ⟨⟨-, -, hl, hr⟩, hpath⟩ := embeds_plug.mp hembeds
  have hd := (perm_inorder_plug _ path).nodup_iff.mp hnodup
  have hi' := fun h => hi ((perm_inorder_plug _ path).mem_iff.mpr h)
  simp only [inorder, nodup_append, nodup_cons, mem_append, mem_cons] at hd hi'
  obtain ⟨⟨hlnd, ⟨-, hrnd⟩, hlr⟩, hpnd, hlrp⟩ := hd
  have hkeep : ∀ j, j ≠ 0 → j ≠ i → (j ∈ l.inorder → j ≠ l.root) → (j ∈ r.inorder → j ≠ r.root) →
      (j ∈ pathSlots path → j ≠ above path) → h' j = h j := by
    intro j hj0 hji hjl hjr hjp
    refine hmove.other j hji ?_ ?_ ?_
    · rintro rfl
      exact hjl (root_mem hj0) rfl
    · rintro rfl
      exact hjr (root_mem hj0) rfl
    · rintro rfl
      exact hjp (above_mem hj0) rfl
  refine embeds_plug.mpr ⟨⟨hi0, hmove.moved, ?_, ?_⟩, ?_⟩
  · refine hl.reparent hlnd hmove.left fun j hj hjroot => ?_
    exact hkeep j (hl.ne_zero hj) (by grind) (fun _ => hjroot) (by grind) (by grind)
  · refine hr.reparent hrnd hmove.right fun j hj hjroot => ?_
    exact hkeep j (hr.ne_zero hj) (by grind) (by grind) (fun _ => hjroot) (by grind)
  · refine hpath.replace hpnd hmove.top fun j hj hjtop => ?_
    exact hkeep j (hpath.ne_zero hj) (by grind) (by grind) (by grind) (fun _ => hjtop)

theorem Embeds.parent_root (ht : Embeds h p t) (hroot : t.root ≠ 0) :
    (h t.root).map Cell.parent = some p := by
  cases t with
  | nil => exact absurd rfl hroot
  | node l x r =>
    rw [root, ht.2.1]
    rfl

theorem Embeds.links (ht : Embeds h 0 t) (hi : i ∈ t.inorder) : ∃ c, h i = some c ∧
    (c.parent = 0 → i = t.root) ∧
    (c.parent ≠ 0 → c.parent ∈ t.inorder ∧ ∃ c' d, h c.parent = some c' ∧ c'.child d = i) ∧
    ∀ d, c.child d ≠ 0 → c.child d ∈ t.inorder ∧ (h (c.child d)).map Cell.parent = some i := by
  obtain ⟨l, r, path, rfl⟩ := exists_plug hi
  obtain ⟨⟨-, hcell, hl, hr⟩, hpath⟩ := embeds_plug.mp ht
  have hmem : ∀ {j}, j ∈ (node l i r).inorder ∨ j ∈ pathSlots path →
      j ∈ (plug (node l i r) path).inorder := fun hj =>
    (perm_inorder_plug _ path).mem_iff.mpr (mem_append.mpr hj)
  refine ⟨_, hcell, ?_, ?_, ?_⟩
  · intro htop
    cases path with
    | nil => rfl
    | cons f path => exact absurd htop hpath.1
  · intro htop
    refine ⟨hmem (.inr (above_mem htop)), ?_⟩
    cases path with
    | nil => exact absurd rfl htop
    | cons f path => exact ⟨_, f.dir, hpath.2.1, Cell.child_of ..⟩
  · rintro (_ | _) hne
    · exact ⟨hmem (.inl (mem_append_left _ (root_mem hne))), hl.parent_root hne⟩
    · exact ⟨hmem (.inl (mem_append_right _ (mem_cons_of_mem _ (root_mem hne)))),
        hr.parent_root hne⟩

end Embeds

end Cells

end GodelScheduler.Library
