import Mathlib.Data.Set.Insert
import Mathlib.Tactic

/-!
# Giving back what need not be taken

A test is passed once some elements are taken away. One after the other is given back;
where the test then fails, the element is taken away again, for good. The state the test
looks at is changed by two operations that may fail, and shows a set of elements.

If the test is monotone, in that showing fewer elements never fails a test that was
passed, then the elements taken away in the end are needed: the test is passed without
them, and giving back any single one of them makes it fail (`reprieve_spec`).
-/

namespace GodelScheduler.Library

section

variable {α W : Type} (add remove : W → α → Option W) (ok : W → Bool)

/-- Take elements away, one after the other. -/
def takeAway : List α → W → Option W
  | [], w => some w
  | a :: rest, w => do
    let w ← remove w a
    takeAway rest w

/-- Give elements back where the test allows it. The others are returned, with the last state. -/
def reprieve : List α → W → Option (List α × W)
  | [], w => some ([], w)
  | a :: rest, w => do
    let w ← add w a
    if ok w then reprieve rest w
    else
      let w ← remove w a
      let (taken, w) ← reprieve rest w
      some (a :: taken, w)

end

section

variable {α W : Type}

/-- What the operations do to the set of elements that a reachable state shows. -/
structure Shows (add remove : W → α → Option W) (base : Set α) (R : W → Prop)
    (shown : W → Set α) : Prop where
  add : ∀ {w w' a}, R w → a ∈ base → a ∉ shown w → add w a = some w' →
    R w' ∧ shown w' = insert a (shown w)
  remove : ∀ {w w' a}, R w → a ∈ shown w → remove w a = some w' →
    R w' ∧ shown w' = shown w \ {a}

variable {add remove : W → α → Option W} {base : Set α} {R : W → Prop} {shown : W → Set α}
  {ok : W → Bool}

variable {w w' : W}

theorem Shows.takeAway (h : Shows add remove base R shown) {l : List α} (hl : l.Nodup) (hw : R w)
    (hmem : ∀ a ∈ l, a ∈ shown w) (hw' : takeAway remove l w = some w') :
    R w' ∧ shown w' = shown w \ {a | a ∈ l} := by
  induction l generalizing w with
  | nil =>
    cases hw'
    simp [hw]
  | cons a rest ih =>
    rw [List.nodup_cons] at hl
    obtain ⟨w₁, hw₁, hrest⟩ := Option.bind_eq_some_iff.mp hw'
    obtain ⟨hR, hshown⟩ := h.remove hw (hmem a List.mem_cons_self) hw₁
    obtain ⟨hR', hshown'⟩ := ih hl.2 hR (fun b hb => by
      rw [hshown]
      refine ⟨hmem b (List.mem_cons_of_mem _ hb), ?_⟩
      rintro rfl
      exact hl.1 hb) hrest
    refine ⟨hR', ?_⟩
    rw [hshown', hshown, Set.sdiff_sdiff]
    congr 1
    ext b
    simp

theorem reprieve_cons {a : α} {rest taken : List α}
    (h : reprieve add remove ok (a :: rest) w = some (taken, w')) :
    ∃ w₁, add w a = some w₁ ∧
      (ok w₁ = true ∧ reprieve add remove ok rest w₁ = some (taken, w') ∨
        ok w₁ = false ∧ ∃ w₂ taken', remove w₁ a = some w₂ ∧ taken = a :: taken' ∧
          reprieve add remove ok rest w₂ = some (taken', w')) := by
  obtain ⟨w₁, hw₁, hrest⟩ := Option.bind_eq_some_iff.mp h
  refine ⟨w₁, hw₁, ?_⟩
  split_ifs at hrest with hok
  · exact .inl ⟨hok, hrest⟩
  · obtain ⟨w₂, hw₂, hrest⟩ := Option.bind_eq_some_iff.mp hrest
    obtain ⟨⟨taken', w''⟩, htaken, hresult⟩ := Option.bind_eq_some_iff.mp hrest
    obtain ⟨rfl, rfl⟩ := Prod.mk.inj (Option.some_inj.mp hresult)
    exact .inr ⟨Bool.eq_false_iff.mpr hok, w₂, taken', hw₂, rfl, htaken⟩

theorem reprieve_sublist {l taken : List α} (h : reprieve add remove ok l w = some (taken, w')) :
    taken.Sublist l := by
  induction l generalizing w taken with
  | nil =>
    cases h
    exact List.Sublist.slnil
  | cons a rest ih =>
    obtain ⟨w₁, -, ⟨-, hrest⟩ | ⟨-, w₂, taken', -, rfl, hrest⟩⟩ := reprieve_cons h
    · exact (ih hrest).cons a
    · exact (ih hrest).cons_cons a

/-- The elements taken away: the test is passed without them, it fails wherever one of them is
shown besides all that is shown in the end, and the rest of the list is shown again. -/
theorem reprieve_spec (h : Shows add remove base R shown)
    (hmono : ∀ w w', R w → R w' → shown w' ⊆ shown w → ok w = true → ok w' = true)
    {l taken : List α} (hw : R w) (hok : ok w = true) (hl : l.Nodup)
    (hmem : ∀ a ∈ l, a ∈ base ∧ a ∉ shown w)
    (hresult : reprieve add remove ok l w = some (taken, w')) :
    R w' ∧ ok w' = true ∧ shown w' = shown w ∪ {a | a ∈ l ∧ a ∉ taken} ∧
      ∀ a ∈ taken, ∀ u, R u → insert a (shown w') ⊆ shown u → ok u = false := by
  induction l generalizing w taken with
  | nil =>
    cases hresult
    simp [hw, hok]
  | cons a rest ih =>
    rw [List.nodup_cons] at hl
    obtain ⟨ha, hnot⟩ := hmem a List.mem_cons_self
    have hrestMem : ∀ b ∈ rest, b ∈ base ∧ b ∉ shown w ∧ b ≠ a := by
      intro b hb
      obtain ⟨hbase, hb'⟩ := hmem b (List.mem_cons_of_mem _ hb)
      refine ⟨hbase, hb', ?_⟩
      rintro rfl
      exact hl.1 hb
    obtain ⟨w₁, hw₁, hcases⟩ := reprieve_cons hresult
    obtain ⟨hR, hshown⟩ := h.add hw ha hnot hw₁
    rcases hcases with ⟨hok₁, hrest⟩ | ⟨hok₁, w₂, taken', hw₂, rfl, hrest⟩
    · obtain ⟨hR', hok', hshown', hneeded⟩ := ih hR hok₁ hl.2 (fun b hb => by
        obtain ⟨hbase, hb', hne⟩ := hrestMem b hb
        exact ⟨hbase, by simp [hshown, hne, hb']⟩) hrest
      have htaken : a ∉ taken := fun hmem => hl.1 ((reprieve_sublist hrest).subset hmem)
      refine ⟨hR', hok', ?_, hneeded⟩
      rw [hshown', hshown]
      ext b
      simp only [Set.mem_union, Set.mem_insert_iff, Set.mem_ofPred_eq, List.mem_cons]
      constructor
      · rintro ((rfl | hb) | ⟨hb, hb'⟩)
        · exact .inr ⟨.inl rfl, htaken⟩
        · exact .inl hb
        · exact .inr ⟨.inr hb, hb'⟩
      · rintro (hb | ⟨rfl | hb, hb'⟩)
        · exact .inl (.inr hb)
        · exact .inl (.inl rfl)
        · exact .inr ⟨hb, hb'⟩
    · obtain ⟨hR₂, hshown₂⟩ := h.remove hR (by simp [hshown]) hw₂
      have hback : shown w₂ = shown w := by
        rw [hshown₂, hshown, Set.insert_sdiff_self_of_notMem hnot]
      have hok₂ : ok w₂ = true := hmono w w₂ hw hR₂ hback.subset hok
      obtain ⟨hR', hok', hshown', hneeded⟩ := ih hR₂ hok₂ hl.2 (fun b hb => by
        obtain ⟨hbase, hb', -⟩ := hrestMem b hb
        exact ⟨hbase, by rwa [hback]⟩) hrest
      refine ⟨hR', hok', ?_, ?_⟩
      · rw [hshown', hback]
        ext b
        simp only [Set.mem_union, Set.mem_ofPred_eq, List.mem_cons, not_or]
        refine or_congr_right ?_
        constructor
        · rintro ⟨hb, hb'⟩
          exact ⟨.inr hb, (hrestMem b hb).2.2, hb'⟩
        · rintro ⟨rfl | hb, hne, hb'⟩
          · exact absurd rfl hne
          · exact ⟨hb, hb'⟩
      · -- the element failed the test against a part of what is shown in the end
        intro b hb u hu hsub
        rcases List.mem_cons.mp hb with rfl | hb
        · rw [← Bool.not_eq_true]
          intro hoku
          have hsub₁ : shown w₁ ⊆ shown u := by
            rw [hshown]
            refine subset_trans (Set.insert_subset_insert ?_) hsub
            rw [hshown', hback]
            exact Set.subset_union_left
          rw [hmono u w₁ hu hR hsub₁ hoku] at hok₁
          cases hok₁
        · exact hneeded b hb u hu hsub

end

end GodelScheduler.Library
