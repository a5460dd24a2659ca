import Mathlib.Data.List.Count
import Mathlib.Logic.Function.Basic
import Mathlib.Tactic

/-!
# An index and the shelves it describes

An index gives at most one thing for each key, and a thing says on which shelf
it belongs. `Catalogued` says that the shelves hold exactly the things of the
index, each once and on its own shelf. Putting a thing of a new key on its shelf
and into the index keeps this, and so does taking an indexed thing from both.
-/

namespace GodelScheduler.Library

open Function

section

variable {K P T : Type*} [DecidableEq P] [DecidableEq T]
  {index : K → Option T} {key : T → K} {place : T → Option P} {shelf shelf' : P → List T}
  {t : T} {p : P}

structure Catalogued (index : K → Option T) (key : T → K) (place : T → Option P)
    (shelf : P → List T) : Prop where
  key_eq : ∀ k t, index k = some t → key t = k
  placed : ∀ k t, index k = some t → (place t).isSome
  count : ∀ p t, (shelf p).count t =
    if index (key t) = some t ∧ place t = some p then 1 else 0

theorem catalogued_empty : Catalogued (fun _ : K => none) key place fun _ => [] := by
  refine ⟨?_, ?_, ?_⟩
  · intro k t h
    cases h
  · intro k t h
    cases h
  · intro p t
    simp

theorem count_more (hhere : (shelf' p).Perm (t :: shelf p))
    (hothers : ∀ q, q ≠ p → shelf' q = shelf q) (q : P) (u : T) :
    (shelf' q).count u = (shelf q).count u + if q = p ∧ u = t then 1 else 0 := by
  by_cases hq : q = p
  · subst hq
    rw [hhere.count_eq, List.count_cons]
    simp [@eq_comm _ t u]
  · rw [hothers q hq]
    simp [hq]

namespace Catalogued

section

variable (h : Catalogued index key place shelf)

include h

theorem mem_iff : t ∈ shelf p ↔ index (key t) = some t ∧ place t = some p := by
  rw [← List.one_le_count_iff, h.count]
  split_ifs with hin
  · exact iff_of_true le_rfl hin
  · exact iff_of_false (by omega) hin

/-- No thing on a shelf has a key the index does not know. -/
theorem key_ne {k : K} (hnone : index k = none) : ∀ t ∈ shelf p, key t ≠ k := by
  rintro t ht rfl
  rw [(h.mem_iff.mp ht).1] at hnone
  cases hnone

/-- The only thing with its key on a shelf is the one of the index. -/
theorem eq_of_mem {k : K} (hindex : index k = some t)
    {t' : T} (ht' : t' ∈ shelf p) (hkey : key t' = k) : t' = t := by
  have hin := (h.mem_iff.mp ht').1
  rw [hkey, hindex] at hin
  exact (Option.some.inj hin).symm

end

variable [DecidableEq K] (h : Catalogued index key place shelf)

include h

theorem filter_key {k : K} (hindex : index k = some t) :
    (shelf p).filter (fun t' => key t' = k) = if place t = some p then [t] else [] := by
  have hkey := h.key_eq k t hindex
  have hall : ∀ t' ∈ (shelf p).filter (fun t' => key t' = k), t' = t := by
    intro t' ht'
    rw [List.mem_filter, decide_eq_true_iff] at ht'
    exact h.eq_of_mem hindex ht'.1 ht'.2
  have hlen : ((shelf p).filter fun t' => key t' = k).count t =
      if place t = some p then 1 else 0 := by
    rw [List.count_filter (by simpa using hkey), h.count, hkey]
    simp [hindex]
  rw [List.eq_replicate_of_mem hall]
  rw [List.eq_replicate_of_mem hall, List.count_replicate_self] at hlen
  rw [hlen]
  split_ifs <;> rfl

theorem add (hnew : index (key t) = none)
    (hp : place t = some p) (hhere : (shelf' p).Perm (t :: shelf p))
    (hothers : ∀ q, q ≠ p → shelf' q = shelf q) :
    Catalogued (Function.update index (key t) (some t)) key place shelf' := by
  have hindex : ∀ k u, Function.update index (key t) (some t) k = some u →
      k = key t ∧ u = t ∨ index k = some u := by
    intro k u hu
    by_cases hk : k = key t
    · subst hk
      rw [update_self] at hu
      exact Or.inl ⟨rfl, (Option.some.inj hu).symm⟩
    · rw [update_of_ne hk] at hu
      exact Or.inr hu
  refine ⟨?_, ?_, ?_⟩
  · intro k u hu
    obtain ⟨rfl, rfl⟩ | hu := hindex k u hu
    · rfl
    · exact h.key_eq k u hu
  · intro k u hu
    obtain ⟨-, rfl⟩ | hu := hindex k u hu
    · rw [hp]
      rfl
    · exact h.placed k u hu
  · intro q u
    rw [count_more hhere hothers, h.count]
    by_cases hu : key u = key t
    · rw [hu, update_self, hnew]
      by_cases hut : u = t
      · subst hut
        simp [hp, @eq_comm _ p q]
      · simp [hut, Ne.symm hut]
    · have hut : u ≠ t := fun heq => hu (congrArg key heq)
      rw [update_of_ne hu]
      simp [hut]

theorem remove (hold : index (key t) = some t)
    (hp : place t = some p) (hhere : (shelf p).Perm (t :: shelf' p))
    (hothers : ∀ q, q ≠ p → shelf' q = shelf q) :
    Catalogued (Function.update index (key t) none) key place shelf' := by
  have hindex : ∀ k u, Function.update index (key t) none k = some u → index k = some u := by
    intro k u hu
    by_cases hk : k = key t
    · subst hk
      rw [update_self] at hu
      cases hu
    · rwa [update_of_ne hk] at hu
  refine ⟨fun k u hu => h.key_eq k u (hindex k u hu),
    fun k u hu => h.placed k u (hindex k u hu), ?_⟩
  intro q u
  have hafter := count_more hhere (fun q hq => (hothers q hq).symm) q u
  rw [h.count] at hafter
  by_cases hu : key u = key t
  · rw [hu, update_self]
    rw [hu, hold] at hafter
    by_cases hut : u = t
    · subst hut
      simp only [hp, true_and, and_true, Option.some.injEq, @eq_comm _ p q] at hafter ⊢
      simp
      omega
    · simp only [hut, Option.some.injEq, Ne.symm hut, false_and, and_false, if_false] at hafter ⊢
      simp
      omega
  · have hut : u ≠ t := fun heq => hu (congrArg key heq)
    rw [update_of_ne hu]
    simp only [hut, and_false, if_false] at hafter
    omega

end Catalogued

end

end GodelScheduler.Library
