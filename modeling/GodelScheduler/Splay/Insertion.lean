import GodelScheduler.Splay.OrderedTree

/-!
# Inserting into the splay tree

The search for the place of a new object ends between the smaller and the greater
objects. The new slot is hung there as a leaf; the sums above it are out of date
until the leaf has been moved to the root.
-/

namespace GodelScheduler.Splay

open Library SlotTree Cells StoredObj List

variable {α I : Type} [StoredObj α I] {A : Aggregate α I} {s s' : Splay α I} {t : SlotTree}
  {v : α} {i p : ℕ} {path : List Frame}

section

theorem getElem?_concat {β : Type} {l : List β} {n : ℕ} (hlen : l.length = n) (b : β) (i : ℕ) :
    (l ++ [b])[i]? = if i = n then some b else l[i]? := by
  subst hlen
  split_ifs with h
  · rw [h, List.getElem?_concat_length]
  · rcases Nat.lt_or_ge i l.length with hlt | hge
    · rw [List.getElem?_append_left hlt]
    · rw [List.getElem?_eq_none hge, List.getElem?_eq_none]
      rw [length_append, length_singleton]
      omega

variable (h : IsSplay A s t)

include h

theorem cells_newSlot (v : α) (p i : ℕ) : (s.newSlot v p).cells i =
    if i = s.count + 1 then some ⟨0, 0, p⟩ else s.cells i := by
  rw [cells, newSlot, getElem?_concat h.items]
  split_ifs <;> rfl

theorem entry_newSlot (v : α) (p i : ℕ) : (s.newSlot v p).entry i =
    if i = s.count + 1 then some (key v, .stored v) else s.entry i := by
  rw [entry, newSlot, getElem?_concat h.items]
  split_ifs <;> rfl

theorem infos_newSlot (v : α) (p i : ℕ) : (s.newSlot v p).infos[i]? =
    if i = s.count + 1 then some (.own (makeMaintainInfo v)) else s.infos[i]? :=
  getElem?_concat h.infos _ i

theorem objAt_newSlot (v : α) (p i : ℕ) : (s.newSlot v p).objAt i =
    if i = s.count + 1 then some v else s.objAt i := by
  split_ifs with hi
  · exact objAt_eq_some.mpr ⟨key v, by rw [entry_newSlot h, if_pos hi]⟩
  · exact objAt_congr (by rw [entry_newSlot h, if_neg hi])

theorem IsSplay.ne_newSlot (hi : i ∈ t.inorder) : i ≠ s.count + 1 := by
  have := ((h.slots i).mp hi).2
  omega

end

section

variable (hpath : path = searchPath (s.goesRight (compare v)) t [])

include hpath

theorem plug_path : plug .nil path = t := by
  rw [hpath, plug_searchPath]
  rfl

theorem IsSplay.searchPath_split (hord : Ordered α) (h : IsSplay A s t) :
    t.inorder = before path ++ after path ∧
      (∀ i ∈ before path, s.goesRight (compare v) i) ∧
      ∀ i ∈ after path, ¬ s.goesRight (compare v) i := by
  have hwalk := inorder_plug .nil path
  rw [plug_path hpath, inorder, append_nil] at hwalk
  have hmono := h.monotone fun a _ b _ hba hvb => hord.trans v b a hvb hba
  have hnil : ∀ i ∈ before [], s.goesRight (compare v) i := fun i hi => absurd hi not_mem_nil
  have hnil' : ∀ i ∈ after [], ¬ s.goesRight (compare v) i := fun i hi =>
    absurd hi not_mem_nil
  have hsplit := SlotTree.searchPath_split hmono hnil hnil'
  rw [← hpath] at hsplit
  exact ⟨hwalk, hsplit⟩

theorem mem_of_mem_pathSlots (hi : i ∈ pathSlots path) : i ∈ t.inorder := by
  rw [← plug_path hpath]
  exact (perm_inorder_plug _ _).mem_iff.mpr (mem_append_right _ hi)

theorem IsSplay.attach (h : IsSplay A s t) :
    ∃ s', (s.newSlot v (above path)).attach (compare v) (above path) (s.count + 1) = some s' ∧
      Relinked (s.newSlot v (above path)) s' ∧
      s'.cells = (s.newSlot v (above path)).cells.write (above path)
        fun c => c.setChild (side path) (s.count + 1) := by
  by_cases htop : above path = 0
  · exact ⟨_, by simp [Splay.attach, htop], .refl _, by rw [htop, write_zero]⟩
  · have hmem := mem_of_mem_pathSlots hpath (above_mem htop)
    have hne := h.ne_newSlot hmem
    have hobj : (s.newSlot v (above path)).objAt (above path) = s.objAt (above path) := by
      rw [objAt_newSlot h, if_neg hne]
    have hside : side path = s.goesRight (compare v) (above path) := by
      have hdir : ∀ f ∈ path, f.dir = s.goesRight (compare v) f.slot := by
        rw [hpath]
        exact dir_searchPath fun f hf => absurd hf not_mem_nil
      cases path with
      | nil => exact absurd rfl htop
      | cons f path => exact hdir f (mem_cons_self ..)
    have hchoose : (s.newSlot v (above path)).chooseChildIndex (compare v) (above path) =
        some (side path) := by
      rw [chooseChildIndex_eq, hside, goesRight, goesRight, hobj]
      rw [hobj]
      exact h.live hmem
    have hsome : ((s.newSlot v (above path)).cells (above path)).isSome := by
      rw [cells_newSlot h, if_neg hne]
      exact h.holds.embeds.isSome hmem
    obtain ⟨s', hs', hlinked, hcells⟩ := setChild_spec htop hsome (side path) (s.count + 1)
    refine ⟨s', ?_, hlinked, hcells⟩
    simp [Splay.attach, htop, hchoose, hs']

theorem IsSplay.ends_leaf (h : IsSplay A s t) (hord : Ordered α) (n : ℕ) :
    ∃ m, before path ++ n :: after path = minv :: m ++ [maxv] := by
  obtain ⟨hwalk, hbefore, hafter⟩ := h.searchPath_split hpath hord
  obtain ⟨m, hm⟩ := h.ends
  rw [hwalk] at hm
  have hb : before path ≠ [] := by
    intro hb
    rw [hb, nil_append] at hm
    exact hafter minv (by rw [hm]; exact mem_cons_self ..) rfl
  have ha : after path ≠ [] := by
    intro ha
    rw [ha, append_nil] at hm
    exact absurd (hbefore maxv (by rw [hm]; simp)) (by simp [goesRight, minv, maxv])
  obtain ⟨b, a, hb', ha'⟩ := ends_split hm hb ha
  exact ⟨b ++ n :: a, by rw [hb', ha']; simp⟩

theorem IsSplay.focus_leaf (h : IsSplay A s t) (hord : Ordered α)
    (hlinked : Relinked (s.newSlot v (above path)) s')
    (hcells : s'.cells = (s.newSlot v (above path)).cells.write (above path)
      fun c => c.setChild (side path) (s.count + 1)) :
    Focus A s' (node .nil (s.count + 1) .nil) path := by
  have hplug := plug_path hpath
  have hmem : ∀ j ∈ pathSlots path, j ∈ t.inorder := fun j hj => mem_of_mem_pathSlots hpath hj
  have htop : s.count + 1 ≠ above path :=
    ne_above (Nat.succ_ne_zero _) fun hi => h.ne_newSlot (hmem _ hi) rfl
  have hwalk : (plug (node .nil (s.count + 1) .nil) path).inorder =
      before path ++ (s.count + 1) :: after path := by
    rw [inorder_plug]
    simp [inorder]
  have hperm : (plug (node .nil (s.count + 1) .nil) path).inorder.Perm
      ((s.count + 1) :: t.inorder) := by
    rw [hwalk, (h.searchPath_split hpath hord).1]
    exact perm_middle
  have hnodup : (plug (node .nil (s.count + 1) .nil) path).inorder.Nodup :=
    hperm.nodup_iff.mpr (nodup_cons.mpr ⟨fun hi => h.ne_newSlot hi rfl, h.holds.nodup⟩)
  have hold : ∀ i, i ≠ s.count + 1 → s'.infos[i]? = s.infos[i]? ∧ s'.objAt i = s.objAt i := by
    intro i hi
    rw [hlinked.infos, infos_newSlot h, if_neg hi, hlinked.keeps.objAt, objAt_newSlot h, if_neg hi]
    exact ⟨rfl, rfl⟩
  have hinfo : s'.infos[s.count + 1]? = some (.own (makeMaintainInfo v)) := by
    rw [hlinked.infos, infos_newSlot h, if_pos rfl]
  have hobj : s'.objAt (s.count + 1) = some v := by
    rw [hlinked.keeps.objAt, objAt_newSlot h, if_pos rfl]
  have hembeds := embeds_plug.mp (hplug ▸ h.holds.embeds)
  obtain ⟨m, hm⟩ := h.ends_leaf hpath hord (s.count + 1)
  refine ⟨⟨embeds_plug.mpr ⟨⟨Nat.succ_ne_zero _, ?_, trivial, trivial⟩, ?_⟩, hnodup,
    fence_of_ends hnodup (hwalk.trans hm)⟩, ?_, ?_⟩
  · rw [hcells, write_of_ne htop, cells_newSlot h, if_pos rfl]
    rfl
  · have hslots := (nodup_append.mp ((perm_inorder_plug _ _).nodup_iff.mp
      (hplug ▸ h.holds.nodup))).2.1
    refine hembeds.2.replace hslots (fun hne => ?_) fun j hj hjtop => ?_
    · rw [hcells, write_self hne, cells_newSlot h, if_neg htop.symm]
      rfl
    · rw [hcells, write_of_ne hjtop, cells_newSlot h, if_neg (h.ne_newSlot (hmem j hj))]
  · have hle := h.maxv_le_count
    have hkept : Kept A s' (s.count + 1) := by
      rw [Kept, if_neg (by simp only [minv, maxv] at hle ⊢; omega)]
      exact ⟨v, _, hobj, hinfo, A.own_make v⟩
    refine ⟨hkept, trivial, trivial, fun _ _ => ⟨_, hinfo, ?_⟩⟩
    have hobjs : s'.objs (node .nil (s.count + 1) .nil).inorder = [v] := by
      simp [objs, inorder, hobj]
    rw [hobjs]
    exact A.sums_make v
  · have hexact : ExactPath A s path := (hplug ▸ h.exact : Exact A s (plug .nil path)).plug.2
    exact hexact.congr fun i hi => hold i (h.ne_newSlot (hmem i hi))

end

theorem IsSplay.sorted_leaf (hord : Ordered α) (h : IsSplay A s t)
    (hfresh : s.hash.lookup (key v) = none)
    (hpath : path = searchPath (s.goesRight (compare v)) t []) :
    (s.objs (before path) ++ v :: s.objs (after path)).Pairwise fun a b => compare b a := by
  obtain ⟨hwalk, hbefore, hafter⟩ := h.searchPath_split hpath hord
  have hside : ∀ i a, s.objAt i = some a →
      s.goesRight (compare v) i = compare v a ∧ key a ≠ key v := by
    refine fun i a ha => ⟨h.goesRight_of_objAt ha, fun hkey => ?_⟩
    have hhash := h.hash_of_objAt ha
    rw [hkey, hfresh] at hhash
    cases hhash
  have hsorted := h.sorted
  rw [hwalk, objs, filterMap_append] at hsorted
  obtain ⟨hb, ha, hba⟩ := pairwise_append.mp hsorted
  refine pairwise_append.mpr ⟨hb, pairwise_cons.mpr ⟨?_, ha⟩, ?_⟩
  · intro a hmem
    obtain ⟨i, hi, hobj⟩ := mem_objs.mp hmem
    obtain ⟨hcmp, hkey⟩ := hside i a hobj
    exact (hord.total a v hkey).resolve_right fun hva => hafter i hi (hcmp ▸ hva)
  · intro b hmem c hc
    rcases mem_cons.mp hc with rfl | hc
    · obtain ⟨i, hi, hobj⟩ := mem_objs.mp hmem
      obtain ⟨hcmp, -⟩ := hside i b hobj
      exact hcmp ▸ hbefore i hi
    · exact hba b hmem c hc

/-- From `s` to `s'` a slot for `v` is added at the end. -/
structure Grown (s s' : Splay α I) (v : α) : Prop where
  hash : s'.hash = s.hash.insert (key v) (s.count + 1)
  count : s'.count = s.count + 1
  items : s'.items.length = s.count + 2
  infos : s'.infos.length = s.count + 2
  entry : ∀ i, s'.entry i = if i = s.count + 1 then some (key v, .stored v) else s.entry i

namespace Grown

variable (hgrown : Grown s s' v)

include hgrown

theorem objAt (i : ℕ) : s'.objAt i = if i = s.count + 1 then some v else s.objAt i := by
  have hentry := hgrown.entry i
  split_ifs at hentry ⊢
  · exact objAt_eq_some.mpr ⟨_, hentry⟩
  · exact objAt_congr hentry

theorem objs (h : IsSplay A s t) (slots : List ℕ) (hslots : ∀ i ∈ slots, i ∈ t.inorder) :
    s'.objs slots = s.objs slots := by
  refine filterMap_congr fun i hi => ?_
  rw [hgrown.objAt, if_neg (h.ne_newSlot (hslots i hi))]

theorem contents (h : IsSplay A s t) (k : String) :
    s'.contents k = if k = key v then some v else s.contents k := by
  rw [Splay.contents, Splay.contents, hgrown.hash, GoMap.lookup_insert']
  split_ifs with hk
  · rw [Option.bind_some, hgrown.objAt, if_pos rfl]
  · refine Option.bind_congr fun i hi => ?_
    rw [hgrown.objAt, if_neg (h.ne_newSlot (h.objAt_of_hash hi).1)]

theorem lookup_hash (h : IsSplay A s t) (hfresh : s.hash.lookup (key v) = none) (k : String)
    (i : ℕ) : s'.hash.lookup k = some i ↔ maxv < i ∧ (s'.entry i).map Prod.fst = some k := by
  have hle := h.maxv_le_count
  rw [hgrown.hash, hgrown.entry, GoMap.lookup_insert']
  by_cases hi : i = s.count + 1
  · rw [if_pos hi, Option.map_some, Option.some_inj]
    split_ifs with hk
    · simp only [hk, hi, and_true, true_iff]
      omega
    · refine ⟨fun hold => ?_, fun hkey => absurd hkey.2.symm hk⟩
      exact absurd hi (h.ne_newSlot (h.objAt_of_hash hold).1)
  · rw [if_neg hi, ← h.hash]
    split_ifs with hk
    · rw [hk, hfresh]
      simp [Ne.symm hi]
    · exact Iff.rfl

theorem isSplay {t' : SlotTree} (hord : Ordered α) (h : IsSplay A s t)
    (hfresh : s.hash.lookup (key v) = none)
    (hpath : path = searchPath (s.goesRight (compare v)) t [])
    (hembeds : Embeds s'.cells 0 t') (hexact : Exact A s' t') (hroot : s'.root = t'.root)
    (hleaf : t'.inorder = before path ++ (s.count + 1) :: after path) : IsSplay A s' t' := by
  obtain ⟨hwalk, -⟩ := h.searchPath_split hpath hord
  obtain ⟨m, hm⟩ := h.ends_leaf hpath hord (s.count + 1)
  have hperm : t'.inorder.Perm ((s.count + 1) :: t.inorder) := by
    rw [hleaf, hwalk]
    exact perm_middle
  have hnodup : t'.inorder.Nodup :=
    hperm.nodup_iff.mpr (nodup_cons.mpr ⟨fun hi => h.ne_newSlot hi rfl, h.holds.nodup⟩)
  have hle := h.maxv_le_count
  refine
    { holds := ⟨hembeds, hnodup, fence_of_ends hnodup (hleaf.trans hm)⟩
      exact := hexact
      root := hroot
      slots := fun i => ?_
      items := by rw [hgrown.items, hgrown.count]
      infos := by rw [hgrown.infos, hgrown.count]
      ends := ⟨m, hleaf.trans hm⟩
      sentinel := fun i hi => ?_
      stored := fun i hgt hi => ?_
      hash := hgrown.lookup_hash h hfresh
      sorted := ?_ }
  · rw [hperm.mem_iff, mem_cons, h.slots, hgrown.count]
    omega
  · rw [hgrown.objAt, if_neg (by omega), h.sentinel i hi]
  · rw [hgrown.count] at hi
    rw [hgrown.entry]
    split_ifs with hnew
    · exact ⟨v, rfl⟩
    · exact h.stored i hgt (by omega)
  · have hv : s'.objAt (s.count + 1) = some v := by rw [hgrown.objAt, if_pos rfl]
    have hsplit : s'.objs t'.inorder = s.objs (before path) ++ v :: s.objs (after path) := by
      rw [← hgrown.objs h (before path) fun i hi => hwalk ▸ mem_append_left _ hi,
        ← hgrown.objs h (after path) fun i hi => hwalk ▸ mem_append_right _ hi, hleaf]
      simp [Splay.objs, hv]
    rw [hsplit]
    exact h.sorted_leaf hord hfresh hpath

end Grown

theorem IsSplay.insert (hord : Ordered α) (h : IsSplay A s t) (hfresh : s.contents (key v) = none) :
    ∃ s' t', s.insert v = some (s', true) ∧ IsSplay A s' t' ∧
      ∀ k, s'.contents k = if k = key v then some v else s.contents k := by
  rw [h.contents_eq_none] at hfresh
  generalize hpath : searchPath (s.goesRight (compare v)) t [] = path
  have hdescend : s.descend (compare v) s.items.length 0 s.root = some (above path) := by
    rw [h.root, ← hpath]
    exact (descend_spec [] s.items.length h.holds.embeds
      (fun i hi => chooseChildIndex_eq (h.live hi)) h.length_walk_lt).1
  obtain ⟨s₂, e₂, hlinked, hcells⟩ := h.attach hpath.symm
  have hfocus := h.focus_leaf hpath.symm hord hlinked hcells
  have hitems : s₂.items.length = s.count + 2 := by
    rw [hlinked.keeps.items_length]
    simp [newSlot, h.items]
  have hfuel : path.length < s₂.items.length := by
    have h₁ := length_le_pathSlots path
    have h₂ := (perm_inorder_plug .nil path).length_eq
    rw [plug_path hpath.symm, h.length_walk, length_append] at h₂
    omega
  rw [← append_nil path] at hfocus
  obtain ⟨s₃, t₃, e₃, hkeeps, hfocus₃, hroot, hwalk₃⟩ :=
    splayLoop_spec s₂.items.length hfocus (Nat.succ_ne_zero _) hfuel
  have hgrown : Grown s { s₃ with root := s.count + 1 } v :=
    { hash := hkeeps.hash.trans hlinked.hash
      count := hkeeps.count.trans hlinked.count
      items := hkeeps.items_length.trans hitems
      infos := by
        change s₃.infos.length = _
        rw [hkeeps.infos, hlinked.infos]
        simp [newSlot, h.infos]
      entry := fun i => by
        change s₃.entry i = _
        rw [hkeeps.moved.entry, hlinked.keeps.moved.entry, entry_newSlot h] }
  refine ⟨{ s₃ with root := s.count + 1 }, t₃, ?_, ?_, hgrown.contents h⟩
  · have hloop : splayLoop (s.count + 1) 0 s₂.items.length s₂ = some s₃ := e₃
    have hnew : (s.newSlot v (above path)).count = s.count + 1 := rfl
    simp [Splay.insert, hfresh, hdescend, hnew, e₂, splay, hloop]
  · refine hgrown.isSplay hord h hfresh hpath.symm hfocus₃.holds.embeds ?_ hroot.symm ?_
    · exact hfocus₃.exact.congr fun i _ => ⟨rfl, rfl⟩
    · rw [hwalk₃, inorder_plug]
      simp [inorder]

end GodelScheduler.Splay
