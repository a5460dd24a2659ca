import GodelScheduler.Splay.Rotation

/-!
# Moving a node up

`Holds s t` says that the array of `s` holds the tree `t`, with nothing outside the
sentinels in its walk. While a node is moved up, only the sums on the path above it
may be out of date (`Focus`). A rotation repairs the node that it lowers, whichever
of the two nodes it is made at (`Focus.rotate_self`, `Focus.rotate_parent`), so the
loop takes a focus to the top of its path (`splayLoop_spec`).
-/

namespace GodelScheduler.Splay

open Library SlotTree Cells List

variable {α I : Type} {s : Splay α I} {d k : Bool} {t u a b c l r : SlotTree} {x y z : ℕ}
  {f g : Frame} {path rest : List Frame}

/-- In a walk, nothing comes after `maxv` and nothing before `minv`. -/
def Fence (walk : List ℕ) : Prop := ∀ a x b, walk = a ++ x :: b → maxv ∉ a ∧ minv ∉ b

theorem Fence.sublist {walk walk' : List ℕ} (h : Fence walk) (hsub : walk'.Sublist walk) :
    Fence walk' := by
  rintro a x b rfl
  obtain ⟨r₁, r₂, rfl, ha, hxb⟩ := append_sublist_iff.mp hsub
  obtain ⟨r₃, r₄, rfl, hx, hb⟩ := cons_sublist_iff.mp hxb
  obtain ⟨p, q, rfl⟩ := append_of_mem hx
  obtain ⟨hmax, hmin⟩ := h (r₁ ++ p) x (q ++ r₄) (by simp)
  exact ⟨fun h => hmax (mem_append_left _ (ha.subset h)),
    fun h => hmin (mem_append_right _ (hb.subset h))⟩

structure Holds (s : Splay α I) (t : SlotTree) : Prop where
  embeds : Embeds s.cells 0 t
  nodup : t.inorder.Nodup
  fence : Fence t.inorder

theorem Holds.zero_notMem (h : Holds s t) : 0 ∉ t.inorder := fun h0 => h.embeds.ne_zero h0 rfl

theorem Holds.nodup_parts (h : Holds s (plug t path)) : (t.inorder ++ pathSlots path).Nodup :=
  (perm_inorder_plug t path).nodup_iff.mp h.nodup

theorem Remade.holds {s' : Splay α I} (h : Remade s s' x) (ht : Holds s t) : Holds s' t :=
  ⟨ht.embeds.congr fun i _ => by rw [cells, cells, h.items], ht.nodup, ht.fence⟩

theorem Holds.fence_node (h : Holds s (plug (node l x r) path)) :
    maxv ∉ l.inorder ∧ minv ∉ r.inorder := by
  have hwalk : (plug (node l x r) path).inorder =
      (before path ++ l.inorder) ++ x :: (r.inorder ++ after path) := by
    rw [inorder_plug, inorder]
    simp
  obtain ⟨hmax, hmin⟩ := h.fence _ _ _ hwalk
  exact ⟨fun hl => hmax (mem_append_right _ hl), fun hr => hmin (mem_append_left _ hr)⟩

variable [StoredObj α I] {A : Aggregate α I}

/-- The sums are right in the subtree `t` and beside the path above it. -/
structure Focus (A : Aggregate α I) (s : Splay α I) (t : SlotTree) (path : List Frame) : Prop where
  holds : Holds s (plug t path)
  exact : Exact A s t
  beside : ExactPath A s path

section

theorem maintain_branch (h : Holds s (plug (branch d t x u) path)) (hx : Kept A s x)
    (ht : Exact A s t) (hu : Exact A s u) :
    ∃ s', s.maintain x = some s' ∧ Remade s s' x ∧ Exact A s' (branch d t x u) := by
  have hnodup := (nodup_append.mp h.nodup_parts).1
  have hembeds := (embeds_plug.mp h.embeds).1
  have hzero : 0 ∉ (branch d t x u).inorder := fun h0 => hembeds.ne_zero h0 rfl
  cases d
  · obtain ⟨hmax, hmin⟩ := Holds.fence_node h
    exact maintain_spec hembeds.2.1 hx ht hu hnodup hzero hmax hmin
  · obtain ⟨hmax, hmin⟩ := Holds.fence_node h
    exact maintain_spec hembeds.2.1 hx hu ht hnodup hzero hmax hmin

theorem rotate_spec (h : Holds s (plug (branch k (branch k a x b) y c) rest))
    (hx : Kept A s x) (hy : Kept A s y) (ha : Exact A s a) (hb : Exact A s b) (hc : Exact A s c)
    (hrest : ExactPath A s rest) :
    ∃ s', s.rotate x = some s' ∧ Keeps s s' ∧
      Focus A s' (branch (!k) (branch k b y c) x a) rest := by
  have hd := nodup_rotate h.nodup
  simp only [nodup_cons, nodup_append, mem_cons, mem_append, not_or] at hd
  obtain ⟨⟨hyx, hya, hyb, hyc, hyr⟩, ⟨hxa, hxb, hxc, hxr⟩, -⟩ := hd
  obtain ⟨hy', -⟩ := embeds_plug.mp h.embeds
  obtain ⟨-, -, hx', -⟩ := embeds_branch.mp hy'
  obtain ⟨-, hcx, -, -⟩ := embeds_branch.mp hx'
  obtain ⟨s₁, e₁, r₁, hrot⟩ := rotateLinks_spec h.embeds h.nodup
  have hwalk := inorder_plug_congr rest (inorder_rotate k x a b c y)
  have h₁ : Holds s₁ (plug (branch (!k) (branch k b y c) x a) rest) :=
    ⟨embeds_rotate h.embeds h.nodup hrot, hwalk ▸ h.nodup, hwalk ▸ h.fence⟩
  have hagree : ∀ i, s₁.infos[i]? = s.infos[i]? ∧ s₁.objAt i = s.objAt i :=
    fun i => ⟨by rw [r₁.infos], r₁.keeps.objAt i⟩
  -- The lowered node is summed up first, as the left or right child of the lifted one.
  have hlow : Holds s₁ (plug (branch k b y c) (⟨!k, x, a⟩ :: rest)) := h₁
  obtain ⟨s₂, e₂, r₂, hy₂⟩ := maintain_branch hlow
    (hy.congr (hagree y).1 (hagree y).2) (hb.congr fun i _ => hagree i)
    (hc.congr fun i _ => hagree i)
  have h₂ := r₂.holds h₁
  have hx₂ : Kept A s₂ x := (hx.congr (hagree x).1 (hagree x).2).congr (r₂.other x (Ne.symm hyx))
    (r₂.keeps.objAt x)
  obtain ⟨s₃, e₃, r₃, hx₃⟩ := maintain_branch h₂ hx₂ hy₂
    (r₂.exact (ha.congr fun i _ => hagree i) hya)
  refine ⟨s₃, ?_, r₁.keeps.trans (r₂.keeps.trans r₃.keeps), r₃.holds h₂, hx₃, ?_⟩
  · simp only [rotate, parent_eq hcx, Cell.parent_of, e₁, e₂, e₃, Option.bind_eq_bind,
      Option.bind_some]
  · exact r₃.exactPath (r₂.exactPath (hrest.congr fun i _ => hagree i) hyr) hxr

theorem Focus.rotate_self (h : Focus A s (branch k a x b) (⟨k, y, c⟩ :: rest)) :
    ∃ s', s.rotate x = some s' ∧ Keeps s s' ∧
      Focus A s' (branch (!k) (branch k b y c) x a) rest := by
  obtain ⟨hx, ha, hb, -⟩ := exact_branch.mp h.exact
  obtain ⟨hy, hc⟩ := h.beside _ mem_cons_self
  exact rotate_spec h.holds hx hy ha hb hc fun f hf => h.beside f (mem_cons_of_mem _ hf)

/-- The parent and the grandparent on the same side: the parent is lifted with the focus. -/
theorem Focus.rotate_parent (h : Focus A s t (⟨k, y, b⟩ :: ⟨k, z, c⟩ :: rest)) :
    ∃ s', s.rotate y = some s' ∧ Keeps s s' ∧ Focus A s' t (⟨k, y, branch k b z c⟩ :: rest) := by
  obtain ⟨hy, hb⟩ := h.beside _ mem_cons_self
  obtain ⟨hz, hc⟩ := h.beside _ (mem_cons_of_mem _ mem_cons_self)
  obtain ⟨s', hs', hkeeps, hfocus⟩ := rotate_spec h.holds hy hz h.exact hb hc fun f hf =>
    h.beside f (mem_cons_of_mem _ (mem_cons_of_mem _ hf))
  rw [branch_not] at hfocus
  obtain ⟨hy', ht', hsib, -⟩ := exact_branch.mp hfocus.exact
  refine ⟨s', hs', hkeeps, hfocus.holds, ht', ?_⟩
  intro f hf
  rcases mem_cons.mp hf with rfl | hf
  · exact ⟨hy', hsib⟩
  · exact hfocus.beside f hf

theorem exists_branch (k : Bool) (hx : t.root ≠ 0) : ∃ a b, t = branch k a t.root b := by
  cases t with
  | nil => exact absurd rfl hx
  | node l x r =>
    cases k
    · exact ⟨l, r, rfl⟩
    · exact ⟨r, l, rfl⟩

theorem Focus.rotate_root (h : Focus A s t (f :: rest)) (hx : t.root ≠ 0) :
    ∃ s' t', s.rotate t.root = some s' ∧ Keeps s s' ∧ Focus A s' t' rest ∧ t'.root = t.root ∧
      t'.inorder = (plug t [f]).inorder := by
  obtain ⟨k, y, c⟩ := f
  obtain ⟨a, b, ht⟩ := exists_branch k hx
  generalize t.root = x at ht
  subst ht
  obtain ⟨s', hs', hkeeps, hfocus⟩ := h.rotate_self
  exact ⟨s', _, hs', hkeeps, hfocus, root_branch .., inorder_rotate k x a b c y⟩

end

section

theorem Focus.getChildIndex (h : Focus A s t (f :: rest)) (hx : t.root ≠ 0) :
    s.getChildIndex t.root f.slot = some f.dir := by
  obtain ⟨-, hf, hcell, -, -⟩ := embeds_plug.mp h.holds.embeds
  refine getChildIndex_eq hf hcell (ne_root hx fun hsib => ?_)
  exact (nodup_append.mp h.holds.nodup_parts).2.2 _ (root_mem hx) _
    (mem_append_left _ (mem_cons_of_mem _ hsib)) rfl

theorem Focus.parent (h : Focus A s t path) (hx : t.root ≠ 0) :
    s.parent t.root = some (above path) := by
  have hparent := (embeds_plug.mp h.holds.embeds).1.parent_root hx
  obtain ⟨c, hc, hp⟩ := Option.map_eq_some_iff.mp hparent
  rw [parent_eq hc, hp]

/-- The focus one frame higher, where the sum may be out of date. -/
theorem Focus.parent_above (h : Focus A s t (f :: rest)) : s.parent f.slot = some (above rest) := by
  obtain ⟨-, -, hcell, -, -⟩ := embeds_plug.mp h.holds.embeds
  rw [parent_eq hcell, Cell.parent_of]

theorem Focus.slot_ne_above (h : Focus A s t (path ++ rest)) (hf : f ∈ path) :
    f.slot ≠ above rest := by
  have hslot := mem_pathSlots hf (.inl rfl)
  have hpath := (embeds_plug.mp h.holds.embeds).2
  have hnodup := (nodup_append.mp h.holds.nodup_parts).2.1
  rw [pathSlots_append] at hnodup
  have hne := hpath.ne_zero (pathSlots_append path rest ▸ mem_append_left _ hslot)
  exact ne_above hne fun hmem => (nodup_append.mp hnodup).2.2 _ hslot _ hmem rfl

theorem Focus.splayUpper (h : Focus A s t (f :: g :: rest)) (hx : t.root ≠ 0) {k : ℕ}
    (hk : g.slot ≠ k) :
    ∃ s' t' f', s.splayUpper t.root f.slot k = some s' ∧ Keeps s s' ∧ Focus A s' t' (f' :: rest) ∧
      t'.root = t.root ∧ (plug t' [f']).inorder = (plug t [f, g]).inorder := by
  obtain ⟨fd, y, b⟩ := f
  obtain ⟨gd, z, c⟩ := g
  have hxy := h.getChildIndex hx
  have hyz : s.getChildIndex y z = some gd := by
    obtain ⟨-, hpath⟩ := embeds_plug.mp h.holds.embeds
    obtain ⟨hy0, -, -, hz0, hcell, -, -⟩ := hpath
    refine getChildIndex_eq hz0 hcell (ne_root hy0 fun hsib => ?_)
    have hnodup := (nodup_append.mp h.holds.nodup_parts).2.1
    rw [pathSlots, cons_append, nodup_cons] at hnodup
    exact hnodup.1 (mem_append_right _ (mem_append_left _ (mem_cons_of_mem _ hsib)))
  have hz : s.parent y = some z := h.parent_above
  by_cases hdir : fd = gd
  · subst hdir
    obtain ⟨s', hs', hkeeps, hfocus⟩ := h.rotate_parent
    refine ⟨s', t, _, ?_, hkeeps, hfocus, rfl, ?_⟩
    · simpa [Splay.splayUpper, hz, hk, hxy, hyz] using hs'
    · have hrot := inorder_rotate fd y t b c z
      rwa [branch_not] at hrot
  · obtain ⟨s', t', hs', hkeeps, hfocus, hroot, hwalk⟩ := h.rotate_root hx
    refine ⟨s', t', ⟨gd, z, c⟩, ?_, hkeeps, hfocus, hroot, inorder_plug_congr [_] hwalk⟩
    simpa [Splay.splayUpper, hz, hk, hxy, hyz, hdir] using hs'

/-- The loop takes a focus to the top of `path`, in as many rounds as the path is long. -/
theorem splayLoop_spec (fuel : ℕ) (h : Focus A s t (path ++ rest)) (hx : t.root ≠ 0)
    (hfuel : path.length < fuel) :
    ∃ s' t', splayLoop t.root (above rest) fuel s = some s' ∧ Keeps s s' ∧ Focus A s' t' rest ∧
      t'.root = t.root ∧ t'.inorder = (plug t path).inorder := by
  induction fuel generalizing s t path with
  | zero => omega
  | succ fuel ih =>
    match path, h, hfuel with
    | [], h, _ =>
      refine ⟨s, t, ?_, .refl s, h, rfl, rfl⟩
      have hparent : s.parent t.root = some (above rest) := h.parent hx
      simp [splayLoop, hparent]
    | [f], h, hfuel =>
      have hparent : s.parent t.root = some f.slot := h.parent hx
      have hupper : s.splayUpper t.root f.slot (above rest) = some s := by
        simp [Splay.splayUpper, Focus.parent_above h]
      obtain ⟨s₁, t₁, e₁, k₁, h₁, hroot₁, hwalk₁⟩ := Focus.rotate_root h hx
      have hrest : Focus A s₁ t₁ ([] ++ rest) := h₁
      obtain ⟨s', t', e', k', h', hroot', hwalk'⟩ :=
        ih hrest (hroot₁ ▸ hx) (by simpa using hfuel)
      refine ⟨s', t', ?_, k₁.trans k', h', hroot'.trans hroot₁, hwalk'.trans hwalk₁⟩
      rw [hroot₁] at e'
      simp [splayLoop, hparent, h.slot_ne_above (mem_singleton_self f), hupper, e₁, e']
    | f :: g :: path, h, hfuel =>
      have hparent : s.parent t.root = some f.slot := h.parent hx
      have hy := h.slot_ne_above mem_cons_self
      have hk := h.slot_ne_above (mem_cons_of_mem _ mem_cons_self)
      obtain ⟨s₁, t₁, f₁, e₁, k₁, h₁, hroot₁, hwalk₁⟩ := Focus.splayUpper h hx hk
      obtain ⟨s₂, t₂, e₂, k₂, h₂, hroot₂, hwalk₂⟩ := Focus.rotate_root h₁ (hroot₁ ▸ hx)
      obtain ⟨s', t', e', k', h', hroot', hwalk'⟩ :=
        ih h₂ (by rwa [hroot₂, hroot₁]) (by simp only [length_cons] at hfuel; omega)
      refine ⟨s', t', ?_, k₁.trans (k₂.trans k'), h', by rw [hroot', hroot₂, hroot₁], ?_⟩
      · rw [hroot₂, hroot₁] at e'
        rw [hroot₁] at e₂
        simp [splayLoop, hparent, hy, e₁, e₂, e']
      · rw [hwalk', inorder_plug_congr path (hwalk₂.trans hwalk₁)]
        rfl

end

end GodelScheduler.Splay
