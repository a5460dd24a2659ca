import Mathlib.Data.List.Count
import Mathlib.Data.List.Perm.Subperm
import Mathlib.Tactic

/-!
# Allowances

Users draw on limited allowances, each user one unit of every allowance it draws on.
A list of users is affordable if it takes no more of an allowance than there is of
it, or nothing if there is less than nothing. Affordable lists grow one user at a
time, and one after another on what the earlier ones leave.
-/

namespace GodelScheduler.Library

variable {U I : Type*} {draws : U → I → Bool} {limit : I → ℤ} {us us' : List U}

/-- How much of an allowance is drawn. -/
def spent (draws : U → I → Bool) (us : List U) (i : I) : ℕ := us.countP fun u => draws u i

theorem spent_append (us us' : List U) (i : I) :
    spent draws (us ++ us') i = spent draws us i + spent draws us' i :=
  List.countP_append ..

theorem spent_concat (us : List U) (u : U) (i : I) :
    spent draws (us ++ [u]) i = spent draws us i + if draws u i then 1 else 0 := by
  rw [spent_append]
  simp [spent, List.countP_cons]

def Affordable (draws : U → I → Bool) (limit : I → ℤ) (us : List U) : Prop :=
  ∀ i, (spent draws us i : ℤ) ≤ max 0 (limit i)

namespace Affordable

theorem nil : Affordable draws limit [] := fun i => by simp [spent]

variable (h : Affordable draws limit us)

include h

theorem concat {u : U} (hu : ∀ i, draws u i = true → (spent draws us i : ℤ) + 1 ≤ limit i) :
    Affordable draws limit (us ++ [u]) := by
  intro i
  rw [spent_concat]
  split_ifs with hdraws
  · have hle := hu i hdraws
    push_cast
    exact le_max_of_le_right hle
  · simpa using h i

/-- The second list is affordable on what the first one leaves. -/
theorem append (h' : Affordable draws (fun i => limit i - spent draws us i) us') :
    Affordable draws limit (us ++ us') := by
  intro i
  have hfirst := h i
  have hsecond := h' i
  simp only at hsecond
  rw [spent_append]
  push_cast
  omega

theorem of_subperm (hsub : us'.Subperm us) : Affordable draws limit us' := by
  intro i
  have hle : spent draws us' i ≤ spent draws us i := hsub.countP_le _
  exact le_trans (Int.ofNat_le.mpr hle) (h i)

end Affordable

end GodelScheduler.Library
