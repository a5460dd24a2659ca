import Mathlib.Logic.Function.Basic
import Mathlib.Data.List.Count
import Mathlib.Data.Set.Basic
import Mathlib.Tactic

/-!
# Things with one place

Places hold things. `PlacedOnce held owed` says that every owed thing is held
by exactly one place. A step that rewrites a single place keeps this exactly if
the things it puts there are held nowhere else and it drops no owed thing.

The second part counts: in a list of keyed boxes with different keys, a thing
occurs once exactly if exactly one key has it.
-/

namespace GodelScheduler.Library

open List

section

variable {K U : Type*}

def PlacedOnce (held : K → U → Prop) (owed : Set U) : Prop := ∀ u ∈ owed, ∃! k, held k u

/-- Rewriting the place `k` to hold `now`, which includes the things `put` there and apart from
them only things held before. -/
theorem placedOnce_update_iff [DecidableEq K] (put : Set U) {held : K → U → Prop}
    {owed owed' : Set U} {k : K} {now : U → Prop} (h : PlacedOnce held owed)
    (hput : ∀ u ∈ put, u ∈ owed' ∧ now u) (howed : ∀ u ∈ owed', u ∉ put → u ∈ owed)
    (hnow : ∀ u, now u → u ∈ put ∨ held k u) :
    PlacedOnce (Function.update held k now) owed' ↔
      (∀ u ∈ put, ∀ k', k' ≠ k → ¬ held k' u) ∧
        (∀ u ∈ owed', u ∉ put → held k u → now u) := by
  have hat : ∀ u, Function.update held k now k u ↔ now u := by simp
  have hoff : ∀ {k'}, k' ≠ k → ∀ u, Function.update held k now k' u ↔ held k' u := by
    intro k' hk u
    rw [Function.update_of_ne hk]
  constructor
  · intro hafter
    constructor
    · intro u hu k' hk hheld
      obtain ⟨k₀, -, huniq⟩ := hafter u (hput u hu).1
      have hk₀ := huniq k ((hat u).mpr (hput u hu).2)
      have hk'₀ := huniq k' ((hoff hk u).mpr hheld)
      exact hk (hk'₀.trans hk₀.symm)
    · intro u hu hnot hheld
      obtain ⟨k₀, hk₀, -⟩ := hafter u hu
      by_cases heq : k₀ = k
      · subst heq
        exact (hat u).mp hk₀
      · exact absurd ((h u (howed u hu hnot)).unique ((hoff heq u).mp hk₀) hheld) heq
  · rintro ⟨halone, hkeep⟩ u hu
    by_cases hin : u ∈ put
    · refine ⟨k, (hat u).mpr (hput u hin).2, ?_⟩
      intro k' hk'
      by_contra hne
      exact halone u hin k' hne ((hoff hne u).mp hk')
    · obtain ⟨k₀, hk₀, huniq⟩ := h u (howed u hu hin)
      have hheld_of : ∀ k', Function.update held k now k' u → held k' u := by
        intro k' hk'
        by_cases hne : k' = k
        · subst hne
          exact (hnow u ((hat u).mp hk')).resolve_left hin
        · exact (hoff hne u).mp hk'
      refine ⟨k₀, ?_, fun k' hk' => huniq k' (hheld_of k' hk')⟩
      by_cases heq : k₀ = k
      · subst heq
        exact (hat u).mpr (hkeep u hu hin hk₀)
      · exact (hoff heq u).mpr hk₀

end

section

variable {B K U : Type*} [DecidableEq U] {key : B → K} {f : B → List U}

theorem count_flatMap_eq_one_iff {l : List B} (hkey : (l.map key).Nodup)
    (hf : ∀ b ∈ l, (f b).Nodup) (u : U) :
    (l.flatMap f).count u = 1 ↔ ∃! k, ∃ b ∈ l, key b = k ∧ u ∈ f b := by
  induction l with
  | nil => simp [ExistsUnique]
  | cons b l ih =>
    rw [map_cons, nodup_cons] at hkey
    rw [forall_mem_cons] at hf
    have hrest := ih hkey.2 hf.2
    rw [flatMap_cons, count_append]
    by_cases hub : u ∈ f b
    · rw [count_eq_one_of_mem hf.1 hub]
      constructor
      · intro hcount
        have hnone : u ∉ l.flatMap f := count_eq_zero.mp (by omega)
        refine ⟨key b, ⟨b, mem_cons_self .., rfl, hub⟩, ?_⟩
        rintro k ⟨b', hb', rfl, hub'⟩
        rcases mem_cons.mp hb' with rfl | hb'
        · rfl
        · exact absurd (mem_flatMap.mpr ⟨b', hb', hub'⟩) hnone
      · intro huniq
        have hnone : u ∉ l.flatMap f := by
          intro hmem
          obtain ⟨b', hb', hub'⟩ := mem_flatMap.mp hmem
          have heq := huniq.unique ⟨b, mem_cons_self .., rfl, hub⟩
            ⟨b', mem_cons_of_mem _ hb', rfl, hub'⟩
          exact hkey.1 (heq ▸ mem_map_of_mem hb')
        rw [count_eq_zero.mpr hnone]
    · rw [count_eq_zero.mpr hub, Nat.zero_add, hrest]
      have hcons : ∀ k, (∃ b' ∈ b :: l, key b' = k ∧ u ∈ f b') ↔
          ∃ b' ∈ l, key b' = k ∧ u ∈ f b' := by
        intro k
        simp [hub]
      simp only [hcons]

end

end GodelScheduler.Library
