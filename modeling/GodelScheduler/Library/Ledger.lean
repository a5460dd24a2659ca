import Mathlib.Algebra.BigOperators.Ring.Finset
import Mathlib.Tactic

/-!
# Ledgers of shared cells

Each cell has a capacity of which its users have booked amounts. A ledger keeps the
users of every cell and what is still available, and is written one booking at a
time. It is balanced if what is available is the capacity without the bookings of
the users; `inUse` is the weight of the cells that have a user at all.
-/

namespace GodelScheduler.Library

open Finset

structure Ledger (C U : Type*) where
  users : C → Finset U
  available : C → ℤ

namespace Ledger

variable {C U : Type*} [DecidableEq C] [DecidableEq U]

def take (l : Ledger C U) (u : U) (c : C) (amount : ℤ) : Ledger C U where
  users := Function.update l.users c (insert u (l.users c))
  available := Function.update l.available c (l.available c - amount)

def release (l : Ledger C U) (u : U) (c : C) (amount : ℤ) : Ledger C U where
  users := Function.update l.users c ((l.users c).erase u)
  available := Function.update l.available c (l.available c + amount)

variable {l : Ledger C U} {u v : U} {c d : C} {amount : ℤ}

theorem mem_users_take : v ∈ (l.take u c amount).users d ↔ v ∈ l.users d ∨ v = u ∧ d = c := by
  by_cases h : d = c
  · subst h
    simp [take, or_comm]
  · simp [take, h]

theorem mem_users_release :
    v ∈ (l.release u c amount).users d ↔ v ∈ l.users d ∧ ¬(v = u ∧ d = c) := by
  by_cases h : d = c
  · subst h
    simp [release, and_comm]
  · simp [release, h]

section

variable {capacity : C → ℤ} {booked booked' : U → C → ℤ}

def Balanced (capacity : C → ℤ) (booked : U → C → ℤ) (l : Ledger C U) : Prop :=
  ∀ c, l.available c = capacity c - ∑ u ∈ l.users c, booked u c

theorem Balanced.take (h : Balanced capacity booked l) (hu : u ∉ l.users c) :
    Balanced capacity booked (l.take u c (booked u c)) := by
  intro d
  by_cases hd : d = c
  · subst hd
    have hd := h d
    simp only [Ledger.take, Function.update_self, sum_insert hu]
    linarith
  · simpa [Ledger.take, hd] using h d

theorem Balanced.release (h : Balanced capacity booked l) (hu : u ∈ l.users c) :
    Balanced capacity booked (l.release u c (booked u c)) := by
  intro d
  by_cases hd : d = c
  · subst hd
    have hd := h d
    have hsum := add_sum_erase (l.users d) (fun v => booked v d) hu
    simp only [Ledger.release, Function.update_self]
    linarith
  · simpa [Ledger.release, hd] using h d

omit [DecidableEq C] [DecidableEq U] in
theorem Balanced.congr (h : Balanced capacity booked l)
    (heq : ∀ u c, u ∈ l.users c → booked' u c = booked u c) : Balanced capacity booked' l := by
  intro c
  rw [h c, sum_congr rfl fun u hu => heq u c hu]

end

section

variable {weight : C → ℤ} {cells : Finset C}

def inUse (weight : C → ℤ) (cells : Finset C) (l : Ledger C U) : ℤ :=
  ∑ c ∈ cells, if l.users c = ∅ then 0 else weight c

omit [DecidableEq C] in
theorem inUse_congr {l' : Ledger C U} (h : ∀ c ∈ cells, l'.users c = l.users c) :
    l'.inUse weight cells = l.inUse weight cells :=
  sum_congr rfl fun c hc => by rw [h c hc]

theorem inUse_eq_add {l' : Ledger C U} (hc : c ∈ cells)
    (h : ∀ d ∈ cells, d ≠ c → l'.users d = l.users d) :
    l'.inUse weight cells = l.inUse weight cells +
      ((if l'.users c = ∅ then 0 else weight c) - if l.users c = ∅ then 0 else weight c) := by
  have hrest : ∑ d ∈ cells.erase c, (if l'.users d = ∅ then 0 else weight d) =
      ∑ d ∈ cells.erase c, if l.users d = ∅ then 0 else weight d :=
    sum_congr rfl fun d hd => by
      rw [h d (mem_of_mem_erase hd) (ne_of_mem_erase hd)]
  have hnew := add_sum_erase cells (fun d => if l'.users d = ∅ then 0 else weight d) hc
  have hold := add_sum_erase cells (fun d => if l.users d = ∅ then 0 else weight d) hc
  unfold inUse
  linarith

theorem inUse_take (hc : c ∈ cells) :
    (l.take u c amount).inUse weight cells =
      l.inUse weight cells + if l.users c = ∅ then weight c else 0 := by
  rw [inUse_eq_add hc fun d _ hd => Function.update_of_ne hd _ _]
  have hne : (l.take u c amount).users c ≠ ∅ :=
    ne_empty_of_mem (mem_users_take.mpr (.inr ⟨rfl, rfl⟩))
  rw [if_neg hne]
  split_ifs <;> ring

theorem inUse_release (hc : c ∈ cells) (hu : u ∈ l.users c) :
    (l.release u c amount).inUse weight cells =
      l.inUse weight cells - if (l.users c).erase u = ∅ then weight c else 0 := by
  have hself : (l.release u c amount).users c = (l.users c).erase u := Function.update_self ..
  rw [inUse_eq_add hc fun d _ hd => Function.update_of_ne hd _ _, hself,
    if_neg (ne_empty_of_mem hu)]
  split_ifs <;> ring

end

end Ledger

end GodelScheduler.Library
