import GodelScheduler.Library.MapRange

/-!
# Remembered answers

A map that keeps the first value stored under a key. After a series of questions it
answers each key with the value of the first question that had it, so that an answer
is only right for a later question if the key decides it.
-/

namespace GodelScheduler.Library

namespace GoMap

variable {K V X : Type*} [DecidableEq K]

/-- Store a value under a key that has none. -/
def remember (m : GoMap K V) (k : K) (v : V) : GoMap K V :=
  match m.lookup k with
  | some _ => m
  | none => m.insert k v

theorem lookup_remember (m : GoMap K V) (k a : K) (v : V) :
    (m.remember k v).lookup a = (m.lookup a).or (if k = a then some v else none) := by
  unfold remember
  cases hk : m.lookup k with
  | some w =>
    split_ifs with ha
    · rw [← ha, hk]
      rfl
    · rw [Option.or_none]
  | none =>
    rw [lookup_insert']
    by_cases ha : a = k
    · subst ha
      rw [if_pos rfl, if_pos rfl, hk]
      rfl
    · rw [if_neg ha, if_neg (Ne.symm ha), Option.or_none]

theorem lookup_foldl_remember (key : X → K) (value : X → V) (xs : List X) (m : GoMap K V) (k : K) :
    (xs.foldl (fun m x => m.remember (key x) (value x)) m).lookup k =
      (m.lookup k).or ((xs.find? fun x => key x = k).map value) := by
  induction xs generalizing m with
  | nil => simp
  | cons x xs ih =>
    rw [List.foldl_cons, ih, lookup_remember, List.find?_cons, Option.or_assoc]
    by_cases hk : key x = k
    · simp [hk]
    · simp [hk]

end GoMap

end GodelScheduler.Library
