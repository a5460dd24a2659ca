import Mathlib.Data.Finset.Basic
import Mathlib.Data.List.TakeWhile
import Mathlib.Tactic

/-!
# Queues that leave removed indexes behind

A queue of indexes next to a set of held keys. Removing a key from the set leaves
its indexes in the queue, where they are skipped when their turn comes. `turns` is
the order in which the held keys leave the queue, one after another. A key that is
held again while an old index of it is left gets the place of that index.
-/

namespace GodelScheduler.Library

open List

variable {K : Type*} [DecidableEq K]

/-- The held keys in the order of their first indexes. -/
def turns : List K → Finset K → List K
  | [], _ => []
  | k :: queue, held => if k ∈ held then k :: turns queue (held.erase k) else turns queue held

variable {queue queue' : List K} {held held' : Finset K} {k : K}

theorem mem_turns : k ∈ turns queue held ↔ k ∈ queue ∧ k ∈ held := by
  induction queue generalizing held with
  | nil => simp [turns]
  | cons a queue ih =>
    rw [turns]
    split_ifs with ha
    · rw [mem_cons, ih, mem_cons, Finset.mem_erase]
      by_cases hka : k = a
      · simp [hka, ha]
      · simp [hka]
    · rw [ih, mem_cons]
      refine ⟨fun h => ⟨.inr h.1, h.2⟩, fun h => ⟨h.1.resolve_left ?_, h.2⟩⟩
      rintro rfl
      exact ha h.2

theorem nodup_turns : (turns queue held).Nodup := by
  induction queue generalizing held with
  | nil => exact nodup_nil
  | cons a queue ih =>
    rw [turns]
    split_ifs with ha
    · refine nodup_cons.mpr ⟨fun hmem => ?_, ih⟩
      exact Finset.notMem_erase a held (mem_turns.mp hmem).2
    · exact ih

theorem turns_eq_nil : turns queue held = [] ↔ ∀ k ∈ held, k ∉ queue := by
  rw [eq_nil_iff_forall_not_mem]
  exact forall_congr' fun k => by rw [mem_turns, not_and']

theorem turns_congr (h : ∀ k ∈ queue, k ∈ held ↔ k ∈ held') :
    turns queue held = turns queue held' := by
  induction queue generalizing held held' with
  | nil => rfl
  | cons a queue ih =>
    have ha := h a mem_cons_self
    have hrest : ∀ k ∈ queue, k ∈ held ↔ k ∈ held' := fun k hk =>
      h k (mem_cons_of_mem _ hk)
    rw [turns, turns, ih hrest]
    simp only [ha]
    have herase : turns queue (held.erase a) = turns queue (held'.erase a) :=
      ih fun k hk => by rw [Finset.mem_erase, Finset.mem_erase, hrest k hk]
    rw [herase]

theorem turns_append :
    turns (queue ++ queue') held = turns queue held ++ turns queue' (held \ queue.toFinset) := by
  induction queue generalizing held with
  | nil => simp [turns]
  | cons a queue ih =>
    rw [cons_append, turns, turns, toFinset_cons]
    split_ifs with ha
    · rw [ih, cons_append, Finset.sdiff_insert, Finset.erase_sdiff_comm]
    · rw [ih, Finset.sdiff_insert_of_notMem ha]

theorem turns_erase : turns queue (held.erase k) = (turns queue held).filter (· ≠ k) := by
  induction queue generalizing held with
  | nil => rfl
  | cons a queue ih =>
    rw [turns, turns]
    by_cases hak : a = k
    · subst hak
      rw [if_neg (Finset.notMem_erase a held)]
      split_ifs with ha
      · rw [filter_cons_of_neg (by simp), ← ih, Finset.erase_idem]
      · exact ih
    · simp only [Finset.mem_erase, ne_eq, hak, not_false_eq_true, true_and]
      split_ifs with ha
      · rw [filter_cons_of_pos (by simpa using hak), Finset.erase_right_comm, ih]
      · exact ih

theorem turns_filter {p : K → Bool} (h : ∀ k ∈ held, p k) :
    turns (queue.filter p) held = turns queue held := by
  induction queue generalizing held with
  | nil => rfl
  | cons a queue ih =>
    by_cases hp : p a
    · rw [filter_cons_of_pos hp, turns, turns, ih h,
        ih fun k hk => h k (Finset.mem_of_mem_erase hk)]
    · rw [filter_cons_of_neg hp, turns, if_neg fun ha => hp (h a ha), ih h]

/-- A key held anew goes behind the others just when no held key is reached only after an old
index of it. -/
theorem turns_concat_iff (hk : k ∉ held) :
    turns (queue ++ [k]) (insert k held) = turns queue held ++ [k] ↔
      ∀ k' ∈ held, k' ∈ queue → k' ∈ queue.takeWhile (· ≠ k) := by
  have hpart : ∀ l : List K, k ∉ l → turns l (insert k held) = turns l held := fun l hl =>
    turns_congr fun a ha => by
      rw [Finset.mem_insert, or_iff_right]
      rintro rfl
      exact hl ha
  by_cases hin : k ∈ queue
  · -- the queue is cut at the first old index of the key
    obtain ⟨front, back, rfl, hfront⟩ := eq_append_cons_of_mem hin
    have hwhile : (front ++ k :: back).takeWhile (· ≠ k) = front := by
      rw [takeWhile_append_of_pos fun a ha => by simpa using ne_of_mem_of_not_mem ha hfront]
      simp
    have hold : turns (front ++ k :: back) held =
        turns front held ++ turns back (held \ front.toFinset) := by
      rw [turns_append, turns, if_neg fun hmem => hk (Finset.mem_sdiff.mp hmem).1]
    have hnew : turns (front ++ k :: back ++ [k]) (insert k held) =
        turns front held ++ k :: turns back (held \ front.toFinset) := by
      rw [append_assoc, turns_append, hpart front hfront, cons_append, turns,
        if_pos (by simp [hfront]), turns_append]
      have hlast : turns [k] (((insert k held \ front.toFinset).erase k) \ back.toFinset) = [] :=
        turns_eq_nil.mpr fun a ha => by
          simp only [Finset.mem_sdiff, Finset.mem_erase] at ha
          simpa using ha.1.1
      rw [hlast, append_nil]
      congr 2
      refine turns_congr fun a _ => ?_
      simp only [Finset.mem_erase, Finset.mem_sdiff, Finset.mem_insert]
      refine ⟨fun h => ⟨h.2.1.resolve_left h.1, h.2.2⟩, fun h => ⟨?_, .inr h.1, h.2⟩⟩
      rintro rfl
      exact hk h.1
    have hlast : k :: turns back (held \ front.toFinset) =
        turns back (held \ front.toFinset) ++ [k] ↔ turns back (held \ front.toFinset) = [] := by
      refine ⟨fun h => ?_, fun h => by rw [h]; rfl⟩
      cases hback : turns back (held \ front.toFinset) with
      | nil => rfl
      | cons a rest =>
        have hmem : a ∈ turns back (held \ front.toFinset) := by simp [hback]
        rw [hback] at h
        obtain rfl := (List.cons.inj h).1
        exact absurd (Finset.mem_sdiff.mp (mem_turns.mp hmem).2).1 hk
    rw [hold, hnew, hwhile, append_assoc, append_cancel_left_eq, hlast, turns_eq_nil]
    simp only [Finset.mem_sdiff, mem_toFinset, mem_append, mem_cons]
    refine ⟨fun h a ha hqueue => ?_, fun h a ha hback => ha.2 (h a ha.1 (.inr (.inr hback)))⟩
    by_contra hnot
    rcases hqueue with hf | rfl | hb
    · exact hnot hf
    · exact hk ha
    · exact h a ⟨ha, hnot⟩ hb
  · have hwhile : queue.takeWhile (· ≠ k) = queue := by
      rw [takeWhile_eq_self_iff]
      intro a ha
      simpa using ne_of_mem_of_not_mem ha hin
    rw [turns_append, hpart queue hin, hwhile, turns, if_pos (by simp [hin])]
    simp [turns]

end GodelScheduler.Library
