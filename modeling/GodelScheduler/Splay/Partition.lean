import GodelScheduler.Splay.OrderedTree

/-!
# Partition queries of the splay tree

A partition moves the lower sentinel to the root and the first slot that is not below
the partition object under it; what lies between the two is one subtree, without a
sentinel, so the sum kept at its root is right.
-/

namespace GodelScheduler.Splay

open Library SlotTree Cells StoredObj List

variable {α I : Type} [StoredObj α I] {A : Aggregate α I} {s s' : Splay α I} {t r : SlotTree}
  {o : α → Bool} {path : List Frame}

theorem IsSplay.splay_minv (h : IsSplay A s t) :
    ∃ s' r, s.splay minv 0 = some s' ∧ Moved s s' ∧ IsSplay A s' (node .nil minv r) ∧
      minv :: r.inorder = t.inorder := by
  obtain ⟨s', l, r, hs', hmoved, h', hwalk⟩ := h.splay_root h.minv_mem
  obtain ⟨m, hm⟩ := h'.ends
  have hsplit : l.inorder = [] ∧ r.inorder = m ++ [maxv] := split_unique h'.holds.nodup hm
  obtain rfl := eq_nil_of_inorder hsplit.1
  exact ⟨s', r, hs', hmoved, h', hwalk⟩

theorem IsSplay.exists_next (h : IsSplay A s (node .nil minv r))
    (hpath : path = searchPath (s.goesRight o) (node .nil minv r) []) :
    ∃ next u w, minv :: r.inorder = before path ++ after path ∧ after path = next :: w ∧
      before path = minv :: u := by
  have hwalk := inorder_plug .nil path
  have hdir : ∀ f ∈ path, f.dir = s.goesRight o f.slot := by
    rw [hpath]
    exact dir_searchPath fun f hf => absurd hf not_mem_nil
  rw [hpath, plug_searchPath, ← hpath] at hwalk
  have hwalk' : minv :: r.inorder = before path ++ after path := by
    simpa [inorder, plug] using hwalk
  obtain ⟨m, hm⟩ := h.ends
  have hm' : minv :: r.inorder = minv :: m ++ [maxv] := hm
  cases hafter : after path with
  | nil =>
    rw [hwalk', hafter, append_nil] at hm'
    have hright := last_before hdir hafter hm'
    exact absurd hright (by simp [goesRight, minv, maxv])
  | cons next w =>
    cases hbefore : before path with
    | nil =>
      rw [hbefore, hafter, nil_append, List.cons.injEq] at hwalk'
      have hleft := head_after hdir hafter
      rw [← hwalk'.1] at hleft
      exact absurd hleft (by simp [goesRight])
    | cons i u =>
      rw [hbefore, hafter, cons_append, List.cons.injEq] at hwalk'
      rw [hwalk'.1]
      exact ⟨next, u, w, by rw [← hwalk'.1, cons_append, ← hwalk'.2], rfl, rfl⟩

theorem Exact.sumsTo {p : ℕ} {u : SlotTree} (h : Exact A s u) (hembeds : Embeds s.cells p u)
    (hmin : minv ∉ u.inorder) (hmax : maxv ∉ u.inorder) :
    ∃ info, (if u.root = 0 then some .nil else s.infos[u.root]?) = some info ∧
      SumsTo A.sums (s.objs u.inorder) info := by
  obtain ⟨m, hm, -, hsums⟩ := childInfo_spec (Or.inl ⟨rfl, rfl⟩) h
    (fun h0 => hembeds.ne_zero h0 rfl) hmax
  refine ⟨m, ?_, hsums hmin⟩
  by_cases h0 : u.root = 0
  · simpa [childInfo, h0] using hm
  · have hne : u.root ≠ minv := fun heq => hmin (heq ▸ root_mem h0)
    simpa [childInfo, h0, hne] using hm

theorem IsSplay.filter_objs (h : IsSplay A s t) {u w : List ℕ} (hwalk : t.inorder = u ++ w)
    (hu : ∀ i ∈ u, s.goesRight o i) (hw : ∀ i ∈ w, ¬ s.goesRight o i) :
    (s.objs t.inorder).filter o = s.objs u := by
  have hleft : (s.objs u).filter o = s.objs u := by
    refine filter_eq_self.mpr fun a ha => ?_
    obtain ⟨i, hi, hobj⟩ := mem_objs.mp ha
    rw [← h.goesRight_of_objAt (o := o) hobj]
    exact hu i hi
  have hright : (s.objs w).filter o = [] := by
    refine filter_eq_nil_iff.mpr fun a ha => ?_
    obtain ⟨i, hi, hobj⟩ := mem_objs.mp ha
    rw [← h.goesRight_of_objAt (o := o) hobj]
    exact hw i hi
  have hsplit : s.objs t.inorder = s.objs u ++ s.objs w := by
    rw [hwalk, objs, objs, objs, filterMap_append]
  rw [hsplit, filter_append, hleft, hright, append_nil]

/-- A partition keeps the objects and, where `o` goes down with their order, returns the sum over
those below it. -/
theorem IsSplay.partition (h : IsSplay A s t) (o : α → Bool) :
    ∃ s' t' info, s.partition o = some (s', info) ∧ IsSplay A s' t' ∧ Moved s s' ∧
      ((∀ a ∈ s.objs t.inorder, ∀ b ∈ s.objs t.inorder, compare b a → o b → o a) →
        SumsTo A.sums ((s.objs t.inorder).filter o) info) := by
  obtain ⟨s₁, r, e₁, hmoved₁, h₁, hwalk₁⟩ := h.splay_minv
  generalize hpath : searchPath (s₁.goesRight o) (node .nil minv r) [] = path
  obtain ⟨next, u, w, hwalk, hafter, hbefore⟩ := h₁.exists_next hpath.symm
  have hnext : s₁.descendNext o s₁.items.length 0 s₁.root = some next := by
    have hdescend := (descend_spec [] s₁.items.length h₁.holds.embeds
      (fun i hi => chooseChildIndex_eq (o := o) (h₁.live hi)) h₁.length_walk_lt).2
    rw [hpath, hafter, ← h₁.root] at hdescend
    exact hdescend
  rw [hbefore, hafter, cons_append, List.cons.injEq] at hwalk
  obtain ⟨s₂, l₂, w₂, e₂, hmoved₂, h₂, hwalk₂⟩ := h₁.splay_below (x := next) (by
    rw [hwalk.2]
    simp)
  obtain ⟨-, -, -, -, hcell, hembeds, -⟩ := h₂.holds.embeds
  have hnodup : (l₂.inorder ++ next :: w₂.inorder).Nodup :=
    (nodup_cons.mp h₂.holds.nodup).2
  have hu : l₂.inorder = u := (split_unique hnodup (hwalk₂.trans hwalk.2)).1
  have hmin : minv ∉ l₂.inorder := fun hmem =>
    (nodup_cons.mp h₂.holds.nodup).1 (mem_append_left _ hmem)
  have hmax : maxv ∉ l₂.inorder := (h₂.holds.fence (minv :: l₂.inorder) next w₂.inorder rfl).1 ∘
    mem_cons_of_mem _
  obtain ⟨info, hinfo, hsums⟩ := h₂.exact.2.2.1.2.1.sumsTo hembeds hmin hmax
  have hmoved := hmoved₁.trans hmoved₂
  refine ⟨s₂, _, info, ?_, h₂, hmoved, fun ho => ?_⟩
  · have hchild : s₂.child false next = some l₂.root := child_eq hcell
    by_cases h0 : l₂.root = 0
    · rw [if_pos h0, Option.some_inj] at hinfo
      simp [Splay.partition, e₁, hnext, e₂, hchild, h0, hinfo]
    · rw [if_neg h0] at hinfo
      simp [Splay.partition, e₁, hnext, e₂, hchild, h0, hinfo]
  · have hobjs : s₁.objs (node .nil minv r).inorder = s.objs t.inorder := by
      rw [hmoved₁.objs, ← hwalk₁]
      rfl
    have hmono := h₁.monotone (by rw [hobjs]; exact ho)
    obtain ⟨hleft, hright⟩ := SlotTree.searchPath_split hmono
      (fun i hi => absurd hi not_mem_nil : ∀ i ∈ before [], s₁.goesRight o i)
      (fun i hi => absurd hi not_mem_nil : ∀ i ∈ after [], ¬ s₁.goesRight o i)
    rw [hpath] at hleft hright
    have hsplit : (node .nil minv r).inorder = before path ++ after path := by
      rw [hbefore, hafter, cons_append, ← hwalk.2]
      rfl
    have hfilter := h₁.filter_objs hsplit hleft hright
    have hsent : s₁.objs (before path) = s₂.objs l₂.inorder := by
      rw [hmoved₂.objs, hu, hbefore, objs, filterMap_cons, h₁.sentinel minv (by decide)]
      rfl
    rw [hobjs, hsent] at hfilter
    rw [hfilter]
    exact hsums

end GodelScheduler.Splay
