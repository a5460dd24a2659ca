import GodelScheduler.Splay.OrderedTree

/-!
# Deleting from the splay tree

The node of the object is moved to the root, its two neighbours are found and moved
to the root and below it, and the node is then the only one between them; cutting it
off leaves the walk without it. The slot is filled with the last one of the array:
the links and the key that pointed to the last slot point to the freed one
(`removeSlot_spec`), which is a renaming of the slots of the tree.
-/

namespace GodelScheduler.Splay

open Library SlotTree Cells StoredObj List

variable {α I : Type} {s s' : Splay α I} {t l r u w : SlotTree} {i k p x : ℕ} {path : List Frame}
  {d : Bool}

section

theorem walkFar_spec (fuel : ℕ) (ht : Embeds s.cells p t) (hroot : t.root ≠ 0)
    (hfuel : t.inorder.length ≤ fuel) : s.walkFar d fuel t.root = some (far d t) := by
  induction t generalizing fuel p with
  | nil => exact absurd rfl hroot
  | node l x r ihl ihr =>
    obtain ⟨-, hcell, hl, hr⟩ := ht
    simp only [inorder, length_append, length_cons] at hfuel
    obtain ⟨fuel, rfl⟩ : ∃ n, fuel = n + 1 := ⟨fuel - 1, by omega⟩
    have hchild := child_eq (d := d) hcell
    change s.walkFar d (fuel + 1) x = _
    cases d
    · by_cases h0 : l.root = 0
      · simp [walkFar, hchild, Cell.child, far, h0]
      · have := ihl fuel hl h0 (by omega)
        simpa [walkFar, hchild, Cell.child, far, h0] using this
    · by_cases h0 : r.root = 0
      · simp [walkFar, hchild, Cell.child, far, h0]
      · have := ihr fuel hr h0 (by omega)
        simpa [walkFar, hchild, Cell.child, far, h0] using this

end

section RemoveSlot

/-- The slots after the last one has been moved to slot `i`. -/
def renamed (last i j : ℕ) : ℕ := if j = last then i else j

theorem map_renamed {last : ℕ} (hnodup : (plug (node l last r) path).inorder.Nodup) (i : ℕ) :
    (plug (node l last r) path).map (renamed last i) = plug (node l i r) path := by
  have hparts := (perm_inorder_plug _ path).nodup_iff.mp hnodup
  simp only [inorder, nodup_append, nodup_cons, mem_append, mem_cons] at hparts
  have hself : ∀ {j}, j ≠ last → renamed last i j = j := fun hj => if_neg hj
  rw [map_plug fun j hj => hself (by grind), SlotTree.map,
    map_eq_self fun j hj => hself (by grind), map_eq_self fun j hj => hself (by grind),
    renamed, if_pos rfl]

/-- From `s` to `s'` the last slot is moved to slot `i`. -/
structure LastMoved (s s' : Splay α I) (i : ℕ) : Prop where
  root : s'.root = renamed s.count i s.root
  count : s'.count = s.count
  items : s'.items.length = s.items.length
  infos : s'.infos.length = s.infos.length
  hash : ∀ e, s.entry s.count = some e → s'.hash = s.hash.insert e.1 i
  entry : ∀ j, s'.entry j = if j = i then s.entry s.count else s.entry j
  info : ∀ j, s'.infos[j]? = if j = i then s.infos[s.count]? else s.infos[j]?

theorem getElem?_modify_const {β : Type} {items : List β} (hi : i < items.length) (b : β) (j : ℕ) :
    (items.modify i fun _ => b)[j]? = if j = i then some b else items[j]? := by
  rw [List.getElem?_modify]
  by_cases hj : j = i
  · subst hj
    simp [List.getElem?_eq_getElem hi]
  · simp [hj, Ne.symm hj]

theorem moveLast_spec (hembeds : Embeds s.cells 0 (plug (node l s.count r) path))
    (hnodup : (plug (node l s.count r) path).inorder.Nodup)
    (hi : i ∉ (plug (node l s.count r) path).inorder) (hi0 : i ≠ 0)
    (hlen : i < s.items.length) (hinfos : s.infos.length = s.items.length) :
    ∃ s', s.moveLast i = some s' ∧ LastMoved s s' i ∧
      Embeds s'.cells 0 (plug (node l i r) path) := by
  obtain ⟨⟨hlast0, hcell, hl, hr⟩, hpath⟩ := embeds_plug.mp hembeds
  change EmbedsPath s.cells path s.count at hpath
  obtain ⟨n, hn, hncell⟩ := Option.map_eq_some_iff.mp hcell
  have hd := (perm_inorder_plug _ path).nodup_iff.mp hnodup
  have hi' := fun h => hi ((perm_inorder_plug _ path).mem_iff.mpr h)
  simp only [inorder, nodup_append, nodup_cons, mem_append, mem_cons] at hd hi'
  obtain ⟨⟨hlnd, ⟨hlastr, hrnd⟩, hlr⟩, hpnd, hlrp⟩ := hd
  obtain ⟨s₁, e₁, r₁, c₁⟩ := replaceChild_spec hpath hlast0 (by grind) i
  obtain ⟨s₂, e₂, r₂, c₂⟩ := reparent_spec (fun j hj => by
    rw [c₁, isSome_write]
    exact hl.isSome hj) i
  obtain ⟨s₃, e₃, r₃, c₃⟩ := reparent_spec (fun j hj => by
    rw [c₂, isSome_write, c₁, isSome_write]
    exact hr.isSome hj) i
  have hkeeps := (r₁.trans (r₂.trans r₃)).keeps
  have hcell₃ : s₃.cells s.count = some ⟨l.root, r.root, above path⟩ := by
    rw [c₃, write_of_ne (ne_root hlast0 hlastr), c₂, write_of_ne (ne_root hlast0 (by grind)), c₁,
      write_of_ne (ne_above hlast0 (by grind)), hcell]
  obtain ⟨n₃, hn₃, hncell₃⟩ := Option.map_eq_some_iff.mp hcell₃
  have hentry₃ : s.entry s.count = some n₃.payload := by
    rw [← hkeeps.moved.entry, entry, hn₃]
    rfl
  have hlast : s.count < s.infos.length := hinfos ▸ (List.getElem?_eq_some_iff.mp hn).1
  obtain ⟨info, hinfo⟩ : ∃ info, s.infos[s.count]? = some info :=
    ⟨_, List.getElem?_eq_getElem hlast⟩
  have hlen₃ : i < s₃.items.length := hkeeps.items_length ▸ hlen
  have hinfos₃ : s₃.infos = s.infos := (r₁.trans (r₂.trans r₃)).infos
  refine ⟨{ s₃ with
    items := s₃.items.modify i fun _ => n₃
    hash := s₃.hash.insert n₃.key i
    infos := s₃.infos.set i info
    root := if s₃.root = s.count then i else s₃.root }, ?_, ?_, ?_⟩
  · have hl' : n.lchild = l.root := by rw [hncell]
    have hr' : n.rchild = r.root := by rw [hncell]
    have hp' : n.parent = above path := by rw [hncell]
    have hmod : s₃.modifyNode i (fun _ => n₃) =
        some { s₃ with items := s₃.items.modify i fun _ => n₃ } :=
      if_pos hlen₃
    simp [moveLast, hn, hl', hr', hp', e₁, e₂, e₃, hn₃, hinfos₃, hinfo, hmod]
  · constructor
    · change (if s₃.root = s.count then i else s₃.root) = _
      rw [hkeeps.root]
      rfl
    · exact hkeeps.count
    · simpa using hkeeps.items_length
    · simpa using hkeeps.infos
    · intro e he
      rw [hentry₃, Option.some_inj] at he
      subst he
      change s₃.hash.insert n₃.key i = _
      rw [hkeeps.hash]
      rfl
    · intro j
      rw [entry, getElem?_modify_const hlen₃, hentry₃, ← hkeeps.moved.entry j]
      split_ifs <;> rfl
    · intro j
      change (s₃.infos.set i info)[j]? = _
      rw [hinfos₃, hinfo]
      by_cases hj : j = i
      · rw [hj, if_pos rfl, List.getElem?_set_self (hinfos ▸ hlen)]
      · rw [if_neg hj, List.getElem?_set_ne (Ne.symm hj)]
  · have hi'' : i ≠ l.root ∧ i ≠ r.root ∧ i ≠ above path :=
      ⟨ne_root hi0 (by grind), ne_root hi0 (by grind), ne_above hi0 (by grind)⟩
    have hlr' : l.root ≠ 0 → l.root ≠ r.root := fun h0 =>
      ne_root h0 fun h => hlr _ (root_mem h0) _ (.inr h) rfl
    have hlp : l.root ≠ 0 → l.root ≠ above path := fun h0 =>
      ne_above h0 fun h => hlrp _ (.inl (root_mem h0)) _ h rfl
    have hrp : r.root ≠ 0 → r.root ≠ above path := fun h0 =>
      ne_above h0 fun h => hlrp _ (.inr (.inr (root_mem h0))) _ h rfl
    have hother : ∀ j, j ≠ i →
        (((s₃.items.modify i fun _ => n₃)[j]?).map Node.toCell) = s₃.cells j := by
      intro j hj
      rw [getElem?_modify_const hlen₃, if_neg hj]
      rfl
    refine embeds_relocate hembeds hnodup hi hi0 ⟨?_, fun h0 => ?_, fun h0 => ?_, fun h0 => ?_,
      fun j hji hjl hjr hjp => ?_⟩
    · rw [cells, getElem?_modify_const hlen₃, if_pos rfl, Option.map_some, hncell₃]
    · rw [cells, hother _ hi''.1.symm, c₃, write_of_ne (hlr' h0), c₂, write_self h0, c₁,
        write_of_ne (hlp h0)]
    · have hrl : r.root ≠ l.root := fun h => hlr' (h ▸ h0) h.symm
      rw [cells, hother _ hi''.2.1.symm, c₃, write_self h0, c₂, write_of_ne hrl, c₁,
        write_of_ne (hrp h0)]
    · have hpl : above path ≠ l.root := fun h => hlp (h ▸ h0) h.symm
      have hpr : above path ≠ r.root := fun h => hrp (h ▸ h0) h.symm
      rw [cells, hother _ hi''.2.2.symm, c₃, write_of_ne hpr, c₂, write_of_ne hpl, c₁,
        write_self h0]
    · rw [cells, hother _ hji, c₃, write_of_ne hjr, c₂, write_of_ne hjl, c₁, write_of_ne hjp]

/-- Slot `i` is taken out of the tree and out of the hash, but still in the array. -/
structure Freed (s : Splay α I) (t : SlotTree) (i : ℕ) : Prop where
  embeds : Embeds s.cells 0 t
  nodup : t.inorder.Nodup
  root : s.root = t.root
  slots : ∀ j, j ∈ t.inorder ↔ 0 < j ∧ j ≤ s.count ∧ j ≠ i
  items : s.items.length = s.count + 1
  infos : s.infos.length = s.count + 1
  hash : ∀ k j, s.hash.lookup k = some j ↔ maxv < j ∧ j ≠ i ∧ (s.entry j).map Prod.fst = some k

/-- The array without its last slot, which has taken the place of slot `i`. -/
structure Compacted (s s' : Splay α I) (t : SlotTree) (i : ℕ) : Prop where
  embeds : Embeds s'.cells 0 (t.map (renamed s.count i))
  root : s'.root = (t.map (renamed s.count i)).root
  count : s'.count + 1 = s.count
  items : s'.items.length = s.count
  infos : s'.infos.length = s.count
  hash : ∀ k, s'.hash.lookup k = (s.hash.lookup k).map (renamed s.count i)
  entry : ∀ j ≤ s.count, j ≠ i → s'.entry (renamed s.count i j) = s.entry j
  info : ∀ j ≤ s.count, j ≠ i → s'.infos[renamed s.count i j]? = s.infos[j]?

section

variable {j : ℕ} (hj : j < s.count)

include hj

theorem cells_truncate : s.truncate.cells j = s.cells j :=
  congrArg (Option.map Node.toCell) (List.getElem?_take_of_lt hj)

theorem entry_truncate : s.truncate.entry j = s.entry j :=
  congrArg (Option.map Node.payload) (List.getElem?_take_of_lt hj)

theorem infos_truncate : s.truncate.infos[j]? = s.infos[j]? := List.getElem?_take_of_lt hj

end

theorem renamed_lt {last j : ℕ} (hi : i ≤ last) (hj : j ≤ last) (hne : j ≠ i) :
    renamed last i j < last := by
  rw [renamed]
  split_ifs <;> omega

theorem exists_renamed {last j : ℕ} (hi : maxv < i) (hj : j < last) :
    ∃ j₀ ≤ last, j₀ ≠ i ∧ renamed last i j₀ = j ∧ (maxv < j ↔ maxv < j₀) ∧ (0 < j ↔ 0 < j₀) := by
  by_cases h : j = i
  · exact ⟨last, le_rfl, by omega, by rw [renamed, if_pos rfl, h], by omega, by omega⟩
  · exact ⟨j, by omega, h, if_neg (by omega), Iff.rfl, Iff.rfl⟩

theorem renamed_injOn {last j j' : ℕ} (hj : j ≠ i) (hj' : j' ≠ i)
    (h : renamed last i j = renamed last i j') : j = j' := by
  rw [renamed, renamed] at h
  split_ifs at h <;> omega

theorem renamed_eq_iff {last j e : ℕ} (hi : maxv < i) (hle : i ≤ last) (he : e ≤ maxv) :
    renamed last i j = e ↔ j = e := by
  rw [renamed]
  split_ifs <;> omega

theorem root_map {σ : ℕ → ℕ} (h0 : σ 0 = 0) (t : SlotTree) : (t.map σ).root = σ t.root := by
  cases t with
  | nil => exact h0.symm
  | node l x r => rfl

theorem Freed.compacted_truncate (h : Freed s t i) (hle : i ≤ s.count) (hpos : 0 < s.count)
    (hembeds : Embeds s'.cells 0 (t.map (renamed s.count i)))
    (hroot : s'.root = renamed s.count i s.root) (hcount : s'.count = s.count)
    (hitems : s'.items.length = s.items.length) (hinfos : s'.infos.length = s.infos.length)
    (hhash : ∀ k, s'.hash.lookup k = (s.hash.lookup k).map (renamed s.count i))
    (hentry : ∀ j, j ≠ i → s'.entry (renamed s.count i j) = s.entry j)
    (hinfo : ∀ j, j ≠ i → s'.infos[renamed s.count i j]? = s.infos[j]?) :
    Compacted s s'.truncate t i := by
  have hlt : ∀ j ≤ s.count, j ≠ i → renamed s.count i j < s'.count := by
    intro j hj hne
    rw [hcount]
    exact renamed_lt hle hj hne
  constructor
  · refine hembeds.congr fun j hj => ?_
    rw [inorder_map] at hj
    obtain ⟨i', hi', rfl⟩ := mem_map.mp hj
    have hlive := (h.slots i').mp hi'
    exact cells_truncate (hlt i' hlive.2.1 hlive.2.2)
  · have hzero : renamed s.count i 0 = 0 := if_neg hpos.ne
    rw [root_map hzero, ← h.root]
    exact hroot
  · change s'.count - 1 + 1 = s.count
    omega
  · change (s'.items.take s'.count).length = s.count
    rw [length_take, hitems, h.items, hcount]
    omega
  · change (s'.infos.take s'.count).length = s.count
    rw [length_take, hinfos, h.infos, hcount]
    omega
  · exact hhash
  · exact fun j hj hne => (entry_truncate (hlt j hj hne)).trans (hentry j hne)
  · exact fun j hj hne => (infos_truncate (hlt j hj hne)).trans (hinfo j hne)

theorem Freed.removeSlot (h : Freed s t i) (hi : maxv < i) (hle : i ≤ s.count) :
    ∃ s', s.removeSlot i = some s' ∧ Compacted s s' t i := by
  have hpos : 0 < s.count := by omega
  by_cases hlast : i = s.count
  · have hself : ∀ j, renamed s.count i j = j := by
      intro j
      rw [renamed]
      split_ifs with hj
      · rw [hj, hlast]
      · rfl
    have hid : renamed s.count i = id := funext hself
    refine ⟨s.truncate, by simp [Splay.removeSlot, hlast], ?_⟩
    refine h.compacted_truncate hle hpos ?_ (hself _).symm rfl rfl rfl (fun k => ?_)
      (fun j _ => by rw [hself]) (fun j _ => by rw [hself])
    · rw [map_eq_self fun j _ => hself j]
      exact h.embeds
    · rw [hid, Option.map_id, id]
  · have hmem : s.count ∈ t.inorder := (h.slots _).mpr ⟨hpos, le_rfl, Ne.symm hlast⟩
    have hnot : i ∉ t.inorder := fun hmem => ((h.slots i).mp hmem).2.2 rfl
    obtain ⟨l, r, path, rfl⟩ := exists_plug hmem
    obtain ⟨s₁, e₁, hmoved, hembeds⟩ := moveLast_spec h.embeds h.nodup hnot (by omega)
      (by rw [h.items]; omega) (by rw [h.infos, h.items])
    refine ⟨s₁.truncate, by simp [Splay.removeSlot, hlast, e₁], ?_⟩
    refine h.compacted_truncate hle hpos ?_ hmoved.root hmoved.count hmoved.items hmoved.infos
      (fun k => ?_) (fun j hne => ?_) fun j hne => ?_
    · rw [map_renamed h.nodup]
      exact hembeds
    · -- Only the key of the last slot is hashed to the last slot.
      have hsome : ∃ e, s.entry s.count = some e := by
        rw [entry, List.getElem?_eq_getElem (by rw [h.items]; omega)]
        exact ⟨_, rfl⟩
      obtain ⟨e, he⟩ := hsome
      have hlastkey := (h.hash e.1 s.count).mpr ⟨by omega, Ne.symm hlast, by rw [he]; rfl⟩
      rw [hmoved.hash e he, GoMap.lookup_insert']
      split_ifs with hk
      · rw [hk, hlastkey, Option.map_some, renamed, if_pos rfl]
      · cases hold : s.hash.lookup k with
        | none => rfl
        | some j =>
          have hj : j ≠ s.count := by
            rintro rfl
            have hkey := ((h.hash k _).mp hold).2.2
            rw [he, Option.map_some, Option.some_inj] at hkey
            exact hk hkey.symm
          rw [Option.map_some, renamed, if_neg hj]
    · rw [hmoved.entry, renamed]
      split_ifs with h₁ h₂
      · rw [h₁]
      · exact absurd rfl h₂
      · rfl
    · rw [hmoved.info, renamed]
      split_ifs with h₁ h₂
      · rw [h₁]
      · exact absurd rfl h₂
      · rfl

end RemoveSlot

section Delete

variable [StoredObj α I] {A : Aggregate α I}

theorem IsSplay.between {a b : List ℕ} (h : IsSplay A s t) (hwalk : t.inorder = a ++ i :: b)
    (hi : maxv < i) : ∃ a' b', a = minv :: a' ∧ b = b' ++ [maxv] := by
  obtain ⟨m, hm⟩ := h.ends
  rw [hwalk] at hm
  have ha : a ≠ [] := by
    rintro rfl
    have hmin : i = minv := (List.cons.inj hm).1
    simp only [minv, maxv] at hmin hi
    omega
  obtain ⟨a', b', rfl, hb⟩ := ends_split hm ha (cons_ne_nil _ _)
  cases b' with
  | nil =>
    have hmax : i = maxv := (List.cons.inj hb).1
    omega
  | cons j b' => exact ⟨a', b', rfl, (List.cons.inj hb).2⟩

theorem IsSplay.children_ne_nil (h : IsSplay A s (node l i r)) (hi : maxv < i) :
    l.root ≠ 0 ∧ r.root ≠ 0 := by
  obtain ⟨-, -, hl, hr⟩ := h.holds.embeds
  obtain ⟨a, b, ha, hb⟩ := h.between rfl hi
  constructor
  · cases l with
    | nil => cases ha
    | node => exact hl.1
  · cases r with
    | nil => simp [inorder] at hb
    | node => exact hr.1

theorem IsSplay.find (h : IsSplay A s (node l i r)) (hi : maxv < i) :
    s.find i false = some (far true l) ∧ s.find i true = some (far false r) := by
  obtain ⟨-, hcell, hl, hr⟩ := h.holds.embeds
  obtain ⟨hl0, hr0⟩ := h.children_ne_nil hi
  have hlen := h.length_walk
  simp only [inorder, length_append, length_cons] at hlen
  constructor
  · simpa [Splay.find, child_eq hcell, Cell.child] using
      walkFar_spec s.items.length hl hl0 (by rw [h.items]; omega)
  · simpa [Splay.find, child_eq hcell, Cell.child] using
      walkFar_spec s.items.length hr hr0 (by rw [h.items]; omega)

theorem IsSplay.isolate (h : IsSplay A s t) (hmem : i ∈ t.inorder) (hi : maxv < i) :
    ∃ s₁ s₂ s' pre nxt l w, s.splay i 0 = some s₁ ∧ s₁.find i false = some pre ∧
      s₁.find i true = some nxt ∧ s₁.splay pre 0 = some s₂ ∧ s₂.splay nxt pre = some s' ∧
      Moved s s' ∧ IsSplay A s' (node l pre (node (node .nil i .nil) nxt w)) ∧
      t.inorder = (node l pre (node (node .nil i .nil) nxt w)).inorder := by
  obtain ⟨s₁, l₁, r₁, e₁, m₁, h₁, w₁⟩ := h.splay_root hmem
  obtain ⟨hpre, hnxt⟩ := h₁.find hi
  obtain ⟨hl0, hr0⟩ := h₁.children_ne_nil hi
  have hzero := h₁.holds.zero_notMem
  simp only [inorder, mem_append, mem_cons, not_or] at hzero
  obtain ⟨a, ha⟩ := inorder_far_right hl0 hzero.1
  obtain ⟨b, hb⟩ := inorder_far_left hr0 hzero.2.2
  have hwalk₁ : (node l₁ i r₁).inorder = a ++ far true l₁ :: i :: far false r₁ :: b := by
    rw [inorder, ha, hb]
    simp
  obtain ⟨s₂, l₂, r₂, e₂, m₂, h₂, w₂⟩ := h₁.splay_root (x := far true l₁) (by rw [hwalk₁]; simp)
  have hsplit₂ := split_unique h₂.holds.nodup (w₂.trans hwalk₁)
  obtain ⟨s₃, u, w, e₃, m₃, h₃, w₃⟩ := h₂.splay_below (x := far false r₁) (by rw [hsplit₂.2]; simp)
  have hnodup₃ : (u.inorder ++ far false r₁ :: w.inorder).Nodup := by
    have := h₃.holds.nodup
    rw [inorder, nodup_append, nodup_cons] at this
    exact this.2.1.2
  have hsplit₃ : u.inorder = [i] ∧ w.inorder = b :=
    split_unique hnodup₃ (w₃.trans hsplit₂.2)
  obtain rfl := eq_leaf_of_inorder hsplit₃.1
  refine ⟨s₁, s₂, s₃, _, _, l₂, w, e₁, hpre, hnxt, e₂, e₃, m₁.trans (m₂.trans m₃), h₃, ?_⟩
  rw [← w₁, ← w₂, inorder, inorder, w₃]

/-- The only node between two neighbours cut off, the sums above it made up again. -/
theorem IsSplay.cut {pre nxt : ℕ} (h : IsSplay A s (node l pre (node (node .nil i .nil) nxt w))) :
    ∃ s₁ s₂ s', s.setChild false nxt 0 = some s₁ ∧ s₁.maintain nxt = some s₂ ∧
      s₂.maintain pre = some s' ∧ Keeps s s' ∧
      Embeds s'.cells 0 (node l pre (node .nil nxt w)) ∧
      Exact A s' (node l pre (node .nil nxt w)) := by
  obtain ⟨hpre0, hpre, hl, hnxt0, hnxt, -, hw⟩ := h.holds.embeds
  have hsub : (node l pre (node .nil nxt w)).inorder.Sublist
      (node l pre (node (node .nil i .nil) nxt w)).inorder := by
    simp [inorder]
  have hnodup := h.holds.nodup
  simp only [inorder, nodup_append, nodup_cons, mem_append, mem_cons] at hnodup
  obtain ⟨hkpre, hexl, ⟨hknxt, -, hexw, -⟩, -⟩ := h.exact
  obtain ⟨s₁, e₁, r₁, c₁⟩ := setChild_spec hnxt0 (Option.isSome_of_eq_some hnxt) false 0
  have hagree : ∀ j, s₁.infos[j]? = s.infos[j]? ∧ s₁.objAt j = s.objAt j := fun j =>
    ⟨by rw [r₁.infos], r₁.keeps.objAt j⟩
  have hother : ∀ j, j ≠ nxt → s₁.cells j = s.cells j := fun j hj => by rw [c₁, write_of_ne hj]
  have h₁ : Holds s₁ (node l pre (node .nil nxt w)) := by
    refine ⟨⟨hpre0, ?_, hl.congr fun j hj => hother j ?_, hnxt0, ?_, trivial,
      hw.congr fun j hj => hother j ?_⟩, h.holds.nodup.sublist hsub, h.holds.fence.sublist hsub⟩
    · rw [hother _ (by grind), hpre]
      rfl
    · grind
    · rw [c₁, write_self hnxt0, hnxt]
      rfl
    · grind
  obtain ⟨s₂, e₂, r₂, hex₂⟩ := maintain_branch
    (show Holds s₁ (plug (branch false .nil nxt w) [⟨true, pre, l⟩]) from h₁)
    (hknxt.congr (hagree nxt).1 (hagree nxt).2) trivial (hexw.congr fun j _ => hagree j)
  have h₂ := r₂.holds h₁
  have hkpre₂ : Kept A s₂ pre := (hkpre.congr (hagree pre).1 (hagree pre).2).congr
    (r₂.other pre (by grind)) (r₂.keeps.objAt pre)
  have hexl₂ : Exact A s₂ l := r₂.exact (hexl.congr fun j _ => hagree j) (by grind)
  obtain ⟨s₃, e₃, r₃, hex₃⟩ := maintain_branch
    (show Holds s₂ (plug (branch false l pre (node .nil nxt w)) []) from h₂) hkpre₂ hexl₂ hex₂
  exact ⟨s₁, s₂, s₃, e₁, e₂, e₃, r₁.keeps.trans (r₂.keeps.trans r₃.keeps),
    (r₃.holds h₂).embeds, hex₃⟩

theorem IsSplay.compacted {t' : SlotTree} {s₁ : Splay α I} {a b : List ℕ} (h : IsSplay A s t)
    (hfreed : Freed s₁ t' i) (hcomp : Compacted s₁ s' t' i) (hexact : Exact A s₁ t')
    (hwalk : t.inorder = a ++ i :: b) (hwalk' : t'.inorder = a ++ b) (hi : maxv < i)
    (hcount : s₁.count = s.count) (hentry : ∀ j, s₁.entry j = s.entry j) :
    IsSplay A s' (t'.map (renamed s₁.count i)) ∧
      ∀ k, s'.contents k = (s₁.hash.lookup k).bind s.objAt := by
  have hle : i ≤ s₁.count := by
    rw [hcount]
    exact ((h.slots i).mp (by rw [hwalk]; simp)).2
  have hobj : ∀ j ≤ s₁.count, j ≠ i → s'.objAt (renamed s₁.count i j) = s.objAt j := by
    intro j hj hne
    exact objAt_congr ((hcomp.entry j hj hne).trans (hentry j))
  have hlookup : ∀ {k j}, s₁.hash.lookup k = some j → j ≤ s₁.count ∧ j ≠ i := by
    intro k j hj
    obtain ⟨-, hne, hkey⟩ := (hfreed.hash k j).mp hj
    obtain ⟨e, he, -⟩ := Option.map_eq_some_iff.mp hkey
    have hlt := lt_of_entry he
    rw [hfreed.items] at hlt
    exact ⟨by omega, hne⟩
  have hmem : ∀ j ∈ t'.inorder, j ≤ s₁.count ∧ j ≠ i := fun j hj => ((hfreed.slots j).mp hj).2
  have hobjs : s'.objs (t'.map (renamed s₁.count i)).inorder = s.objs (a ++ b) := by
    rw [inorder_map, objs, objs, filterMap_map, ← hwalk']
    exact filterMap_congr fun j hj => hobj j (hmem j hj).1 (hmem j hj).2
  have hnodup : (t'.map (renamed s₁.count i)).inorder.Nodup := by
    rw [inorder_map]
    refine hfreed.nodup.map_on fun j hj j' hj' heq => ?_
    exact renamed_injOn (hmem j hj).2 (hmem j' hj').2 heq
  obtain ⟨m, hm⟩ : ∃ m, (t'.map (renamed s₁.count i)).inorder = minv :: m ++ [maxv] := by
    obtain ⟨a', b', ha, hb⟩ := h.between hwalk hi
    refine ⟨(a' ++ b').map (renamed s₁.count i), ?_⟩
    rw [inorder_map, hwalk', ha, hb, ← append_assoc, map_append, cons_append,
      map_cons, map_singleton, (renamed_eq_iff hi hle (by decide)).mpr rfl,
      (renamed_eq_iff hi hle le_rfl).mpr rfl]
  have hcount' := hcomp.count
  refine ⟨⟨⟨hcomp.embeds, hnodup, fence_of_ends hnodup hm⟩, ?_, hcomp.root, fun j => ?_, ?_, ?_,
    ⟨m, hm⟩, fun j hj => ?_, fun j hj hj' => ?_, fun k j => ?_, ?_⟩, fun k => ?_⟩
  · refine hexact.map (fun j hj => hcomp.info j (hmem j hj).1 (hmem j hj).2) (fun j hj => ?_)
      fun j _ e he => renamed_eq_iff hi hle he
    rw [hobj j (hmem j hj).1 (hmem j hj).2, objAt_congr (hentry j)]
  · rw [inorder_map, mem_map]
    constructor
    · rintro ⟨j₀, hj₀, rfl⟩
      obtain ⟨hpos, hle₀, hne₀⟩ := (hfreed.slots j₀).mp hj₀
      have hlt := renamed_lt hle hle₀ hne₀
      exact ⟨Nat.pos_of_ne_zero fun h0 =>
        hpos.ne' ((renamed_eq_iff hi hle (Nat.zero_le _)).mp h0), by omega⟩
    · rintro ⟨hpos, hlt⟩
      obtain ⟨j₀, hle₀, hne₀, rfl, -, hpos₀⟩ := exists_renamed hi (show j < s₁.count by omega)
      exact ⟨j₀, (hfreed.slots j₀).mpr ⟨hpos₀.mp hpos, hle₀, hne₀⟩, rfl⟩
  · rw [hcomp.items, hcomp.count]
  · rw [hcomp.infos, hcomp.count]
  · rw [← h.sentinel j hj, ← hobj j (by omega) (by omega), renamed, if_neg (by omega)]
  · obtain ⟨j₀, hle₀, hne₀, rfl, hgt, -⟩ := exists_renamed hi (show j < s₁.count by omega)
    rw [hcomp.entry j₀ hle₀ hne₀, hentry]
    exact h.stored j₀ (hgt.mp hj) (hcount ▸ hle₀)
  · rw [hcomp.hash, Option.map_eq_some_iff]
    constructor
    · rintro ⟨j₀, hj₀, rfl⟩
      obtain ⟨hgt, hne₀, hkey⟩ := (hfreed.hash k j₀).mp hj₀
      rw [hcomp.entry j₀ (hlookup hj₀).1 hne₀]
      refine ⟨?_, hkey⟩
      rw [renamed]
      split_ifs <;> omega
    · rintro ⟨hgt, hkey⟩
      obtain ⟨e, he, -⟩ := Option.map_eq_some_iff.mp hkey
      have hlt := lt_of_entry he
      rw [hcomp.items] at hlt
      obtain ⟨j₀, hle₀, hne₀, rfl, hgt₀, -⟩ := exists_renamed hi hlt
      rw [hcomp.entry j₀ hle₀ hne₀] at hkey
      exact ⟨j₀, (hfreed.hash k j₀).mpr ⟨hgt₀.mp hgt, hne₀, hkey⟩, rfl⟩
  · rw [hobjs]
    refine h.sorted.sublist ?_
    rw [hwalk]
    exact (List.Sublist.append_left (sublist_cons_self i b) a).filterMap _
  · rw [contents, hcomp.hash, Option.bind_map]
    exact Option.bind_congr fun j hj => hobj j (hlookup hj).1 (hlookup hj).2

theorem IsSplay.freed {t' : SlotTree} {k : String} (h : IsSplay A s t)
    (hk : s.hash.lookup k = some i) (hmoved : Moved s s')
    (hperm : t.inorder.Perm (i :: t'.inorder)) (hembeds : Embeds s'.cells 0 t')
    (hroot : s'.root = t'.root) (hitems : s'.items.length = s'.count + 1)
    (hinfos : s'.infos.length = s'.count + 1) :
    Freed { s' with hash := s'.hash.erase k } t' i := by
  have hnodup := nodup_cons.mp (hperm.nodup_iff.mp h.holds.nodup)
  refine ⟨hembeds, hnodup.2, hroot, fun j => ?_, hitems, hinfos, fun k' j => ?_⟩
  · have hj := hperm.mem_iff (a := j)
    rw [h.slots, mem_cons, ← hmoved.count] at hj
    constructor
    · intro hmem
      have hlive := hj.mpr (.inr hmem)
      exact ⟨hlive.1, hlive.2, fun heq => hnodup.1 (heq ▸ hmem)⟩
    · rintro ⟨hpos, hle, hne⟩
      exact (hj.mp ⟨hpos, hle⟩).resolve_left hne
  · change (s'.hash.erase k).lookup k' = some j ↔ maxv < j ∧ j ≠ i ∧
      (s'.entry j).map Prod.fst = some k'
    have hhash := h.hash k' j
    rw [GoMap.lookup_erase', hmoved.hash, hmoved.entry]
    split_ifs with hk'
    · subst hk'
      rw [hk, Option.some_inj] at hhash
      constructor
      · intro hnone
        cases hnone
      · rintro ⟨hgt, hne, hkey⟩
        exact absurd (hhash.mpr ⟨hgt, hkey⟩).symm hne
    · rw [hhash]
      refine ⟨fun ⟨hgt, hkey⟩ => ⟨hgt, ?_, hkey⟩, fun ⟨hgt, _, hkey⟩ => ⟨hgt, hkey⟩⟩
      rintro rfl
      rw [((h.hash k j).mp hk).2, Option.some_inj] at hkey
      exact hk' hkey.symm

theorem IsSplay.delete (h : IsSplay A s t) (k : String) :
    ∃ s' t', s.delete k = some (s', (s.contents k).isSome) ∧ IsSplay A s' t' ∧
      ∀ k', s'.contents k' = if k' = k then none else s.contents k' := by
  cases hk : s.hash.lookup k with
  | none =>
    have hnone := h.contents_eq_none.mpr hk
    refine ⟨s, t, by simp [Splay.delete, hk, hnone], h, fun k' => ?_⟩
    split_ifs with hk'
    · rw [hk', hnone]
    · rfl
  | some i =>
    obtain ⟨hmem, o, ho, -⟩ := h.objAt_of_hash hk
    have hi := ((h.hash k i).mp hk).1
    obtain ⟨s₁, s₂, s₃, pre, nxt, l, w, e₁, hpre, hnxt, e₂, e₃, hmoved, h₃, hwalk⟩ :=
      h.isolate hmem hi
    obtain ⟨c₁, c₂, s₄, f₁, f₂, f₃, hkeeps, hembeds, hexact⟩ := h₃.cut
    have hmoved₄ := hmoved.trans hkeeps.moved
    have hsplit : t.inorder = (l.inorder ++ [pre]) ++ i :: nxt :: w.inorder := by
      rw [hwalk]
      simp [inorder]
    have hwalk₄ : (node l pre (node .nil nxt w)).inorder =
        (l.inorder ++ [pre]) ++ nxt :: w.inorder := by
      simp [inorder]
    have hfreed := h.freed hk hmoved₄ (by rw [hsplit, hwalk₄]; exact perm_middle) hembeds
      (hkeeps.root.trans h₃.root) (by rw [hkeeps.items_length, h₃.items, hkeeps.count])
      (by rw [hkeeps.infos, h₃.infos, hkeeps.count])
    have hle : i ≤ s₄.count := hmoved₄.count ▸ ((h.slots i).mp hmem).2
    obtain ⟨s', e', hcomp⟩ := hfreed.removeSlot hi hle
    obtain ⟨hsplay, hcontents⟩ := h.compacted hfreed hcomp (hexact.congr fun j _ => ⟨rfl, rfl⟩)
      hsplit hwalk₄ hi hmoved₄.count hmoved₄.entry
    refine ⟨s', _, ?_, hsplay, fun k' => ?_⟩
    · have hsome : s.contents k = some o := by rw [contents, hk, Option.bind_some, ho]
      simp [Splay.delete, hk, e₁, hpre, hnxt, e₂, e₃, f₁, f₂, f₃, e', hsome]
    · rw [hcontents]
      change ((s₄.hash.erase k).lookup k').bind s.objAt = _
      rw [GoMap.lookup_erase', hmoved₄.hash]
      split_ifs <;> rfl

end Delete

end GodelScheduler.Splay
