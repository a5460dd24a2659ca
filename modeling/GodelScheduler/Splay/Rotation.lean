import GodelScheduler.Splay.Splay

/-!
# Rotations of the splay tree

The links that a rotation writes are those of the rotated tree (`rotateLinks_spec`).
What is summed up in a subtree is described by an `Aggregate`: `Exact` says that every
sum below a node is right, except over a subtree with a sentinel, where nothing is
claimed. A node is summed up from its children (`maintain_spec`).
-/

namespace GodelScheduler.Splay

open Library SlotTree Cells StoredObj List

variable {α I : Type}

section

variable {s s' s₁ s₂ : Splay α I} {i j v p : ℕ} {d : Bool} {c : Cell}

def cells (s : Splay α I) : Cells := fun i => (s.items[i]?).map Node.toCell

/-- Only links change from `s` to `s'`. -/
structure Relinked (s s' : Splay α I) : Prop where
  root : s'.root = s.root
  hash : s'.hash = s.hash
  count : s'.count = s.count
  infos : s'.infos = s.infos
  payload : s'.items.map Node.payload = s.items.map Node.payload

theorem Relinked.refl (s : Splay α I) : Relinked s s := ⟨rfl, rfl, rfl, rfl, rfl⟩

theorem Relinked.trans (h : Relinked s s₁) (h' : Relinked s₁ s₂) : Relinked s s₂ where
  root := h'.root.trans h.root
  hash := h'.hash.trans h.hash
  count := h'.count.trans h.count
  infos := h'.infos.trans h.infos
  payload := h'.payload.trans h.payload

theorem lt_of_cells (h : s.cells i = some c) : i < s.items.length := by
  obtain ⟨n, hn, -⟩ := Option.map_eq_some_iff.mp h
  exact (List.getElem?_eq_some_iff.mp hn).1

theorem child_eq (h : s.cells i = some c) : s.child d i = some (c.child d) := by
  obtain ⟨n, hn, rfl⟩ := Option.map_eq_some_iff.mp h
  simp [child, hn]

theorem parent_eq (h : s.cells i = some c) : s.parent i = some c.parent := by
  obtain ⟨n, hn, rfl⟩ := Option.map_eq_some_iff.mp h
  simp [parent, hn]

theorem modifyNode_relink {f : Cell → Cell} (hi : i ≠ 0) (h : (s.cells i).isSome) :
    ∃ s', (s.modifyNode i fun n => n.relink f) = some s' ∧ Relinked s s' ∧
      s'.cells = s.cells.write i f := by
  obtain ⟨c, hc⟩ := Option.isSome_iff_exists.mp h
  refine ⟨_, if_pos (lt_of_cells hc), ⟨rfl, rfl, rfl, rfl, ?_⟩, ?_⟩
  · refine ext_getElem? fun j => ?_
    rw [List.getElem?_map, List.getElem?_map, List.getElem?_modify,
      Option.map_eq_map, Option.map_map]
    congr 1
    funext n
    dsimp only [Function.comp]
    split_ifs <;> rfl
  · funext j
    rw [cells, List.getElem?_modify]
    rcases eq_or_ne j i with rfl | hj
    · simp only [write_self hi, cells, Option.map_eq_map, Option.map_map, if_true]
      rfl
    · simp only [write_of_ne hj, cells, if_neg hj.symm, Option.map_eq_map, Option.map_id']

theorem setChild_spec (hi : i ≠ 0) (h : (s.cells i).isSome) (d : Bool) (v : ℕ) :
    ∃ s', s.setChild d i v = some s' ∧ Relinked s s' ∧
      s'.cells = s.cells.write i fun c => c.setChild d v :=
  modifyNode_relink hi h

theorem setParent_spec (hi : i ≠ 0) (h : (s.cells i).isSome) (v : ℕ) :
    ∃ s', s.setParent i v = some s' ∧ Relinked s s' ∧
      s'.cells = s.cells.write i fun c => c.setParent v :=
  modifyNode_relink hi h

theorem reparent_spec {t : SlotTree} (h : ∀ j ∈ t.inorder, (s.cells j).isSome) (v : ℕ) :
    ∃ s', s.reparent t.root v = some s' ∧ Relinked s s' ∧
      s'.cells = s.cells.write t.root fun c => c.setParent v := by
  rw [reparent]
  split_ifs with hroot
  · exact setParent_spec hroot (h _ (root_mem hroot)) v
  · exact ⟨s, rfl, .refl s, by rw [not_not.mp hroot, write_zero]⟩

theorem getChildIndex_eq {x y : ℕ} (hy : y ≠ 0) (h : s.cells y = some (.of d x j p))
    (hne : x ≠ j) : s.getChildIndex x y = some d := by
  rw [getChildIndex, if_pos hy, child_eq h]
  cases d
  · simp [Cell.of, Cell.child, hne.symm]
  · simp [Cell.of, Cell.child]

theorem replaceChild_spec {path : List Frame} {x : ℕ} (h : EmbedsPath s.cells path x) (hx : x ≠ 0)
    (hfresh : x ∉ pathSlots path) (v : ℕ) :
    ∃ s', s.replaceChild x (above path) v = some s' ∧ Relinked s s' ∧
      s'.cells = s.cells.write (above path) fun c => c.setChild (side path) v := by
  cases path with
  | nil => exact ⟨s, rfl, .refl s, write_zero.symm⟩
  | cons f path =>
    obtain ⟨hf, hcell, -, -⟩ := h
    have hne : x ≠ f.sibling.root := ne_root hx fun hmem =>
      hfresh (mem_append_left _ (mem_cons_of_mem _ hmem))
    obtain ⟨s', hs', hlinked, hcells⟩ :=
      setChild_spec hf (Option.isSome_of_eq_some hcell) f.dir v
    refine ⟨s', ?_, hlinked, hcells⟩
    rw [replaceChild, above, if_pos hf, getChildIndex_eq hf hcell hne]
    exact hs'

end

section

variable {s : Splay α I} {k : Bool} {a b c : SlotTree} {x y : ℕ}
  {rest : List Frame}

theorem rotateLinks_spec (h : Embeds s.cells 0 (plug (branch k (branch k a x b) y c) rest))
    (hnodup : (plug (branch k (branch k a x b) y c) rest).inorder.Nodup) :
    ∃ s', s.rotateLinks x = some s' ∧ Relinked s s' ∧
      Rotates s.cells s'.cells k a x b y c rest := by
  obtain ⟨hy, hrest⟩ := embeds_plug.mp h
  obtain ⟨hy0, hcy, hx, -⟩ := embeds_branch.mp hy
  obtain ⟨hx0, hcx, -, hb⟩ := embeds_branch.mp hx
  rw [root_branch] at hcy hrest
  have hd := nodup_rotate hnodup
  simp only [nodup_cons, nodup_append, mem_cons, mem_append, not_or] at hd
  obtain ⟨⟨hyx, -, hyb, -, hyr⟩, ⟨-, hxb, hxc, hxr⟩, -, ⟨-, -, hbcr⟩, -⟩ := hd
  have hxb' := ne_root hx0 hxb
  have hyb' := ne_root hy0 hyb
  have hxz := ne_above hx0 hxr
  have hyz := ne_above hy0 hyr
  have hbz : b.root ≠ 0 → b.root ≠ above rest := fun hb0 =>
    ne_above hb0 fun hmem => hbcr _ (root_mem hb0) _ (.inr hmem) rfl
  -- The six writes, in the order of the source.
  obtain ⟨s₁, e₁, r₁, c₁⟩ := replaceChild_spec hrest hy0 hyr x
  obtain ⟨s₂, e₂, r₂, c₂⟩ := setParent_spec hx0
    (by rw [c₁, isSome_write, hcx]; rfl) (above rest)
  have hcx₂ : s₂.cells x = some (.of k a.root b.root (above rest)) := by
    rw [c₂, write_self hx0, c₁, write_of_ne hxz, hcx, Option.map_some, Cell.setParent_of]
  obtain ⟨s₃, e₃, r₃, c₃⟩ := setChild_spec hy0
    (by rw [c₂, isSome_write, c₁, isSome_write, hcy]; rfl) k b.root
  have hcx₃ : s₃.cells x = some (.of k a.root b.root (above rest)) := by
    rw [c₃, write_of_ne (Ne.symm hyx), hcx₂]
  obtain ⟨s₄, e₄, r₄, c₄⟩ := reparent_spec (fun j hj => by
    rw [c₃, isSome_write, c₂, isSome_write, c₁, isSome_write]
    exact hb.isSome hj) y
  obtain ⟨s₅, e₅, r₅, c₅⟩ := setChild_spec hx0
    (by rw [c₄, isSome_write, hcx₃]; rfl) (!k) y
  obtain ⟨s₆, e₆, r₆, c₆⟩ := setParent_spec hy0
    (by rw [c₅, isSome_write, c₄, isSome_write, c₃, isSome_write, c₂, isSome_write, c₁,
      isSome_write, hcy]; rfl) x
  refine ⟨s₆, ?_, r₁.trans (r₂.trans (r₃.trans (r₄.trans (r₅.trans r₆)))), ?_⟩
  · simp only [rotateLinks, parent_eq hcx, parent_eq hcy,
      getChildIndex_eq hy0 hcy (ne_root hx0 hxc), e₁, e₂, child_eq hcx₂, e₃, child_eq hcx₃, e₄, e₅,
      e₆, Cell.parent_of, Cell.child_of_not,
      Option.bind_eq_bind, Option.bind_some]
  · constructor
    · rw [c₆, write_of_ne (Ne.symm hyx), c₅, write_self hx0, c₄, write_of_ne hxb', hcx₃,
        Option.map_some, Cell.setChild_of_not]
    · rw [c₆, write_self hy0, c₅, write_of_ne hyx, c₄, write_of_ne hyb', c₃, write_self hy0, c₂,
        write_of_ne hyx, c₁, write_of_ne hyz, hcy]
      simp only [Option.map_some, Cell.setChild_of, Cell.setParent_of]
    · intro hb0
      rw [c₆, write_of_ne hyb'.symm, c₅, write_of_ne hxb'.symm, c₄, write_self hb0, c₃,
        write_of_ne hyb'.symm, c₂, write_of_ne hxb'.symm, c₁, write_of_ne (hbz hb0)]
    · intro hz0
      have hzb : above rest ≠ b.root := fun h => hbz (h ▸ hz0) h.symm
      rw [c₆, write_of_ne hyz.symm, c₅, write_of_ne hxz.symm, c₄, write_of_ne hzb, c₃,
        write_of_ne hyz.symm, c₂, write_of_ne hxz.symm, c₁, write_self hz0]
    · intro j hjx hjy hjb hjz
      rw [c₆, write_of_ne hjy, c₅, write_of_ne hjx, c₄, write_of_ne hjb, c₃, write_of_ne hjy, c₂,
        write_of_ne hjx, c₁, write_of_ne hjz]

end

section

def objAt (s : Splay α I) (i : ℕ) : Option α :=
  (s.items[i]?).bind fun n => match n.obj with
    | .stored a => some a
    | .forLookup _ => none
    | .nil => none

def objs (s : Splay α I) (slots : List ℕ) : List α := slots.filterMap s.objAt

variable {s s' s₁ s₂ : Splay α I} {x : ℕ}

/-- The objects stay where they are from `s` to `s'`. -/
structure Keeps (s s' : Splay α I) : Prop where
  root : s'.root = s.root
  hash : s'.hash = s.hash
  count : s'.count = s.count
  payload : s'.items.map Node.payload = s.items.map Node.payload
  infos : s'.infos.length = s.infos.length

theorem Keeps.refl (s : Splay α I) : Keeps s s := ⟨rfl, rfl, rfl, rfl, rfl⟩

theorem Keeps.trans (h : Keeps s s₁) (h' : Keeps s₁ s₂) : Keeps s s₂ where
  root := h'.root.trans h.root
  hash := h'.hash.trans h.hash
  count := h'.count.trans h.count
  payload := h'.payload.trans h.payload
  infos := h'.infos.trans h.infos

theorem Relinked.keeps (h : Relinked s s') : Keeps s s' :=
  ⟨h.root, h.hash, h.count, h.payload, by rw [h.infos]⟩

theorem Keeps.items_length (h : Keeps s s') : s'.items.length = s.items.length := by
  simpa using congrArg List.length h.payload

theorem objAt_eq (s : Splay α I) (i : ℕ) : s.objAt i =
    ((s.items.map Node.payload)[i]?).bind fun n => match n.2 with
      | .stored a => some a
      | .forLookup _ => none
      | .nil => none := by
  rw [List.getElem?_map, objAt]
  cases s.items[i]? <;> rfl

theorem Keeps.objAt (h : Keeps s s') (i : ℕ) : s'.objAt i = s.objAt i := by
  rw [objAt_eq, objAt_eq, h.payload]

theorem Keeps.objs (h : Keeps s s') (slots : List ℕ) : s'.objs slots = s.objs slots := by
  have heq : s'.objAt = s.objAt := funext h.objAt
  rw [Splay.objs, Splay.objs, heq]

/-- Only the value in slot `x` changes from `s` to `s'`. -/
structure Remade (s s' : Splay α I) (x : ℕ) : Prop where
  root : s'.root = s.root
  hash : s'.hash = s.hash
  count : s'.count = s.count
  items : s'.items = s.items
  infos : s'.infos.length = s.infos.length
  other : ∀ j, j ≠ x → s'.infos[j]? = s.infos[j]?

theorem Remade.keeps (h : Remade s s' x) : Keeps s s' :=
  ⟨h.root, h.hash, h.count, by rw [h.items], h.infos⟩

end

section

/-- The value is the sum over the objects, and there is none for no objects. -/
def SumsTo (sums : List α → I → Prop) (objs : List α) : MaintainInfo I → Prop
  | .nil => objs = []
  | .forLookup => False
  | .own info => objs ≠ [] ∧ sums objs info

variable [StoredObj α I]

variable (α I) in
/-- What is summed up: which value belongs to an object, and which is the sum over a list of them.
Summing up a node again gives the sum over its subtree from the sums at its children. -/
structure Aggregate where
  own : α → I → Prop
  sums : List α → I → Prop
  own_make : ∀ a, own a (makeMaintainInfo a)
  sums_make : ∀ a, sums [a] (makeMaintainInfo a)
  maintain : ∀ {a i} {l r : MaintainInfo I}, own a i → l ≠ .forLookup → r ≠ .forLookup →
    ∃ j, StoredObj.maintain α i l r = some j ∧ own a j ∧
      ∀ ls rs, SumsTo sums ls l → SumsTo sums rs r → sums (ls ++ a :: rs) j

variable (A : Aggregate α I)

/-- The value in a slot belongs to the object there. -/
def Kept (s : Splay α I) (x : ℕ) : Prop :=
  if x = minv ∨ x = maxv then s.infos[x]? = some .forLookup
  else ∃ a i, s.objAt x = some a ∧ s.infos[x]? = some (.own i) ∧ A.own a i

/-- Every sum in the tree is right, except over a subtree with a sentinel. -/
def Exact (s : Splay α I) : SlotTree → Prop
  | .nil => True
  | .node l x r => Kept A s x ∧ Exact s l ∧ Exact s r ∧
    (minv ∉ (node l x r).inorder → maxv ∉ (node l x r).inorder →
      ∃ i, s.infos[x]? = some (.own i) ∧ A.sums (s.objs (node l x r).inorder) i)

/-- Beside a path every sum is right; the sums on the path itself may be out of date. -/
def ExactPath (s : Splay α I) (path : List Frame) : Prop :=
  ∀ f ∈ path, Kept A s f.slot ∧ Exact A s f.sibling

variable {A} {s s' : Splay α I} {t l r : SlotTree} {path : List Frame} {x p : ℕ} {d : Bool}

theorem Kept.congr (h : Kept A s x) (hinfo : s'.infos[x]? = s.infos[x]?)
    (hobj : s'.objAt x = s.objAt x) : Kept A s' x := by
  rw [Kept, hinfo, hobj]
  exact h

theorem Exact.map {σ : ℕ → ℕ} (h : Exact A s t)
    (hinfo : ∀ j ∈ t.inorder, s'.infos[σ j]? = s.infos[j]?)
    (hobj : ∀ j ∈ t.inorder, s'.objAt (σ j) = s.objAt j)
    (hsent : ∀ j ∈ t.inorder, ∀ e ≤ maxv, σ j = e ↔ j = e) : Exact A s' (t.map σ) := by
  induction t with
  | nil => trivial
  | node l x r ihl ihr =>
    obtain ⟨hx, hl, hr, hsum⟩ := h
    have hx' : x ∈ (node l x r).inorder := mem_append_right _ mem_cons_self
    have hl' : ∀ j ∈ l.inorder, j ∈ (node l x r).inorder := fun j hj => mem_append_left _ hj
    have hr' : ∀ j ∈ r.inorder, j ∈ (node l x r).inorder := fun j hj =>
      mem_append_right _ (mem_cons_of_mem _ hj)
    have hobjs : s'.objs ((node l x r).map σ).inorder = s.objs (node l x r).inorder := by
      rw [inorder_map, objs, objs, filterMap_map]
      exact filterMap_congr hobj
    have hmem : ∀ e ≤ maxv, e ∈ ((node l x r).map σ).inorder ↔ e ∈ (node l x r).inorder := by
      intro e he
      rw [inorder_map, mem_map]
      constructor
      · rintro ⟨j, hj, hje⟩
        rwa [← (hsent j hj e he).mp hje]
      · exact fun hmem => ⟨e, hmem, (hsent e hmem e he).mpr rfl⟩
    refine ⟨?_, ihl hl (fun j hj => hinfo j (hl' j hj)) (fun j hj => hobj j (hl' j hj))
      fun j hj => hsent j (hl' j hj), ihr hr (fun j hj => hinfo j (hr' j hj))
      (fun j hj => hobj j (hr' j hj)) fun j hj => hsent j (hr' j hj), ?_⟩
    · have hmin := hsent x hx' minv (by decide)
      have hmax := hsent x hx' maxv le_rfl
      rw [Kept, hinfo x hx', hobj x hx']
      simp only [hmin, hmax]
      exact hx
    · change minv ∉ ((node l x r).map σ).inorder → maxv ∉ ((node l x r).map σ).inorder → _
      rw [hmem minv (by decide), hmem maxv le_rfl, hinfo x hx']
      change _ → _ → ∃ i, _ ∧ A.sums (s'.objs ((node l x r).map σ).inorder) i
      rw [hobjs]
      exact hsum

theorem Exact.congr (h : Exact A s t)
    (hagree : ∀ i ∈ t.inorder, s'.infos[i]? = s.infos[i]? ∧ s'.objAt i = s.objAt i) :
    Exact A s' t := by
  have hmap := h.map (fun i hi => (hagree i hi).1) (fun i hi => (hagree i hi).2)
    fun _ _ _ _ => Iff.rfl
  rwa [map_eq_self fun _ _ => rfl] at hmap

theorem ExactPath.congr (h : ExactPath A s path)
    (hagree : ∀ i ∈ pathSlots path, s'.infos[i]? = s.infos[i]? ∧ s'.objAt i = s.objAt i) :
    ExactPath A s' path := by
  intro f hf
  have hslot := hagree f.slot (mem_pathSlots hf (.inl rfl))
  exact ⟨(h f hf).1.congr hslot.1 hslot.2,
    (h f hf).2.congr fun i hi => hagree i (mem_pathSlots hf (.inr hi))⟩

theorem exact_branch {t u : SlotTree} : Exact A s (branch d t x u) ↔
    Kept A s x ∧ Exact A s t ∧ Exact A s u ∧
      (minv ∉ (branch d t x u).inorder → maxv ∉ (branch d t x u).inorder →
        ∃ i, s.infos[x]? = some (.own i) ∧ A.sums (s.objs (branch d t x u).inorder) i) := by
  cases d
  · exact Iff.rfl
  · change Kept A s x ∧ Exact A s u ∧ Exact A s t ∧ _ ↔ _
    exact ⟨fun h => ⟨h.1, h.2.2.1, h.2.1, h.2.2.2⟩, fun h => ⟨h.1, h.2.2.1, h.2.1, h.2.2.2⟩⟩

theorem childInfo_spec {e e' : ℕ} (he : e = minv ∧ e' = maxv ∨ e = maxv ∧ e' = minv)
    (ht : Exact A s t) (hzero : 0 ∉ t.inorder) (hfar : e' ∉ t.inorder) :
    ∃ m, s.childInfo e t.root = some m ∧ m ≠ .forLookup ∧
      (e ∉ t.inorder → SumsTo A.sums (s.objs t.inorder) m) := by
  cases t with
  | nil => exact ⟨.nil, rfl, by simp, fun _ => rfl⟩
  | node l x r =>
    obtain ⟨hx, -, -, hsum⟩ := ht
    have hmem : x ∈ (node l x r).inorder := mem_append_right _ mem_cons_self
    have hx0 : x ≠ 0 := fun h => hzero (h ▸ hmem)
    by_cases hxe : x = e
    · exact ⟨.nil, if_neg fun h => h.2 hxe, by simp, fun h => absurd (hxe ▸ hmem) h⟩
    · rw [Kept, if_neg (by grind)] at hx
      obtain ⟨a, i, hobj, hinfo, -⟩ := hx
      refine ⟨.own i, (if_pos ⟨hx0, hxe⟩).trans hinfo, by simp, fun hnear => ?_⟩
      obtain ⟨j, hj, hsums⟩ := hsum (by grind) (by grind)
      rw [hinfo, Option.some_inj, MaintainInfo.own.injEq] at hj
      subst hj
      refine ⟨?_, hsums⟩
      exact ne_nil_of_mem (mem_filterMap.mpr ⟨x, hmem, hobj⟩)

theorem Remade.exact (h : Remade s s' x) (ht : Exact A s t) (hx : x ∉ t.inorder) : Exact A s' t :=
  ht.congr fun i hi => ⟨h.other i fun hix => hx (hix ▸ hi), h.keeps.objAt i⟩

theorem Remade.exactPath (h : Remade s s' x) (hpath : ExactPath A s path)
    (hx : x ∉ pathSlots path) : ExactPath A s' path :=
  hpath.congr fun i hi => ⟨h.other i fun hix => hx (hix ▸ hi), h.keeps.objAt i⟩

theorem maintain_spec (hcell : s.cells x = some ⟨l.root, r.root, p⟩) (hx : Kept A s x)
    (hl : Exact A s l) (hr : Exact A s r) (hnodup : (node l x r).inorder.Nodup)
    (hzero : 0 ∉ (node l x r).inorder) (hmax : maxv ∉ l.inorder) (hmin : minv ∉ r.inorder) :
    ∃ s', s.maintain x = some s' ∧ Remade s s' x ∧ Exact A s' (node l x r) := by
  obtain ⟨n, hn, hlinks⟩ := Option.map_eq_some_iff.mp hcell
  simp only [inorder, mem_append, mem_cons, not_or] at hzero
  obtain ⟨lm, hlm, hlm', hlsum⟩ := childInfo_spec (.inl ⟨rfl, rfl⟩) hl hzero.1 hmax
  obtain ⟨rm, hrm, hrm', hrsum⟩ := childInfo_spec (.inr ⟨rfl, rfl⟩) hr hzero.2.2 hmin
  have hleft : s.childInfo minv n.lchild = some lm := by rw [hlinks]; exact hlm
  have hright : s.childInfo maxv n.rchild = some rm := by rw [hlinks]; exact hrm
  by_cases hsent : x = minv ∨ x = maxv
  · have hinfo : s.infos[x]? = some .forLookup := by rwa [Kept, if_pos hsent] at hx
    refine ⟨s, ?_, ⟨rfl, rfl, rfl, rfl, rfl, fun _ _ => rfl⟩, hx, hl, hr, fun h₁ h₂ => ?_⟩
    · simp [maintain, hn, hleft, hright, hinfo]
    · simp only [inorder, mem_append, mem_cons, not_or] at h₁ h₂
      exact absurd hsent (by grind)
  · rw [Kept, if_neg hsent] at hx
    obtain ⟨a, i, hobj, hinfo, hown⟩ := hx
    obtain ⟨j, hj, hown', hsums⟩ := A.maintain hown hlm' hrm'
    have hlt : x < s.infos.length := (List.getElem?_eq_some_iff.mp hinfo).1
    have hremade : Remade s { s with infos := s.infos.set x (.own j) } x :=
      ⟨rfl, rfl, rfl, rfl, length_set, fun k hk => List.getElem?_set_ne hk.symm⟩
    have hinfo' : ({ s with infos := s.infos.set x (.own j) } : Splay α I).infos[x]? =
        some (.own j) := List.getElem?_set_self hlt
    simp only [inorder, nodup_append, nodup_cons, mem_cons] at hnodup
    refine ⟨_, ?_, hremade, ?_, hremade.exact hl ?_, hremade.exact hr hnodup.2.1.1, ?_⟩
    · simp [maintain, hn, hleft, hright, hinfo, hj]
    · rw [Kept, if_neg hsent]
      exact ⟨a, j, hobj, hinfo', hown'⟩
    · exact fun hmem => hnodup.2.2 x hmem x (.inl rfl) rfl
    · intro h₁ h₂
      simp only [inorder, mem_append, mem_cons, not_or] at h₁ h₂
      refine ⟨j, hinfo', ?_⟩
      have hobjs : s.objs (node l x r).inorder = s.objs l.inorder ++ a :: s.objs r.inorder := by
        simp [objs, inorder, hobj]
      rw [hremade.keeps.objs, hobjs]
      exact hsums _ _ (hlsum h₁.1) (hrsum h₂.2.2)

end

end GodelScheduler.Splay
