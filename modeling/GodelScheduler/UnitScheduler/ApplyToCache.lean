import GodelScheduler.Framework.Pod
import Mathlib.Data.Finset.Basic

/-!
# Applying a scheduling result to the scheduler cache

The pods of a result are assumed one after the other until the cache rejects
one. The rejected pod is forgotten; then either the result is cut there, or, if
too few pods are left, the pods assumed so far should be forgotten too. The
loop that does this forgets the rejected pod again instead of the pod of its
index. `gangAtomic_applyToCache_iff` says for which patterns of rejections the
unit is applied as a whole or not at all.
-/

namespace GodelScheduler.UnitScheduler

open List

structure SchedulingUnitInfo where
  everScheduled : Bool
  minMember : ℤ
  /-- The cloned pod of a dispatched pod, by the pod key. -/
  dispatchedPods : String → Pod
  /-- The pods of the queued unit. -/
  queuedPods : List Pod := []
  dispatchToAnotherScheduler : Bool := false

def SchedulingUnitInfo.uid (u : SchedulingUnitInfo) (podKey : String) : String :=
  (u.dispatchedPods podKey).uid

structure UnitResult where
  successfully : Bool := false
  successfulPods : List String
  failedPods : List String
  deriving DecidableEq

/-- The assumed pods by UID, with the UIDs of all calls of `AssumePod` that succeeded. -/
structure SchedulerCache where
  assumed : Finset String
  assumeLog : List String := []
  deriving DecidableEq

variable (cache : SchedulerCache)

namespace SchedulerCache

/-- A rejected pod leaves the cache as it is. -/
def assumePod (uid : String) (accepted : Bool) : Except String SchedulerCache :=
  if accepted then .ok ⟨insert uid cache.assumed, cache.assumeLog ++ [uid]⟩
  else .error s!"pod {uid} was already in scheduler cache"

/-- Forgetting a pod that is not assumed does nothing. -/
def forgetPod (uid : String) : SchedulerCache :=
  { cache with assumed := cache.assumed.erase uid }

end SchedulerCache

structure Applied where
  ok : Bool
  result : UnitResult
  cache : SchedulerCache

section

variable (u : SchedulingUnitInfo) (accepts : ℕ → Bool) (result : UnitResult)

/-- The part of `applyToCache` after the cache rejected the pod at index `i`. -/
def rejected (i : ℕ) (podKey : String) (cache : SchedulerCache) : Applied :=
  let cache := cache.forgetPod (u.uid podKey)
  if !u.everScheduled && decide ((i : ℤ) < u.minMember) then
    -- The loop over the earlier indices uses the pod info of the rejected pod.
    let cache := (List.range i).foldl (fun cache _ => cache.forgetPod (u.uid podKey)) cache
    ⟨false, { result with
      failedPods := result.failedPods ++ result.successfulPods
      successfulPods := [] }, cache⟩
  else
    ⟨true, { result with
      failedPods := result.failedPods ++ result.successfulPods.drop i
      successfulPods := result.successfulPods.take i }, cache⟩

def applyFrom : ℕ → List String → SchedulerCache → Applied
  | _, [], cache => ⟨true, result, cache⟩
  | i, podKey :: rest, cache =>
    match cache.assumePod (u.uid podKey) (accepts i) with
    | .ok cache => applyFrom (i + 1) rest cache
    | .error _ => rejected u result i podKey cache

/-- `accepts i` is the outcome of `AssumePod` for the pod at index `i`. -/
def applyToCache (cache : SchedulerCache) : Applied :=
  applyFrom u accepts result 0 result.successfulPods cache

end

/-- The index and the key of the first pod the cache rejects. -/
def firstRejected (accepts : ℕ → Bool) : ℕ → List String → Option (ℕ × String)
  | _, [] => none
  | i, podKey :: rest =>
    if accepts i then firstRejected accepts (i + 1) rest else some (i, podKey)

/-- A unit that is not applied leaves none of its pods assumed; a unit that is applied has exactly
the pods left in the result assumed, and enough of them. -/
def GangAtomic (u : SchedulingUnitInfo) (applied : Applied) : Prop :=
  (applied.ok = false → ∀ uid ∈ applied.cache.assumeLog, uid ∉ applied.cache.assumed) ∧
  (applied.ok = true → (∀ uid, (uid ∈ applied.cache.assumeLog ∧ uid ∈ applied.cache.assumed) ↔
      uid ∈ applied.result.successfulPods.map u.uid) ∧
    (u.everScheduled ∨ u.minMember ≤ applied.result.successfulPods.length))

/-- With no pod rejected, the result has to have enough pods. With a pod rejected before there are
enough, no other pod may have been assumed; later, the rejected pod must not be one of those. -/
def AppliedAsGang (u : SchedulingUnitInfo) (accepts : ℕ → Bool) (pods : List String) : Prop :=
  match firstRejected accepts 0 pods with
  | none => u.everScheduled ∨ u.minMember ≤ pods.length
  | some (i, podKey) =>
    if !u.everScheduled && decide ((i : ℤ) < u.minMember) then
      ∀ key ∈ pods.take i, u.uid key = u.uid podKey
    else ∀ key ∈ pods.take i, u.uid key ≠ u.uid podKey

namespace SchedulerCache

def assumeAll (uids : List String) : SchedulerCache :=
  ⟨cache.assumed ∪ uids.toFinset, cache.assumeLog ++ uids⟩

theorem assumeAll_cons (uid : String) (uids : List String) : cache.assumeAll (uid :: uids) =
      SchedulerCache.assumeAll ⟨insert uid cache.assumed, cache.assumeLog ++ [uid]⟩ uids := by
  simp [assumeAll]

theorem foldl_forgetPod (uid : String) (n : ℕ) :
    (List.range n).foldl (fun cache _ => cache.forgetPod uid) (cache.forgetPod uid) =
      cache.forgetPod uid := by
  induction n with
  | zero => rfl
  | succ n ih =>
    rw [range_succ, foldl_append, ih]
    simp [forgetPod]

end SchedulerCache

section

variable (u : SchedulingUnitInfo) (accepts : ℕ → Bool) (result : UnitResult)

variable {podKey : String}

theorem firstRejected_index {accepts : ℕ → Bool} {i j : ℕ} {pods : List String}
    (h : firstRejected accepts i pods = some (j, podKey)) : i ≤ j := by
  induction pods generalizing i with
  | nil => cases h
  | cons key rest ih =>
    unfold firstRejected at h
    split_ifs at h
    · exact (Nat.le_succ i).trans (ih h)
    · cases h
      exact le_rfl

/-- The loop assumes the pods before the first rejected one. -/
theorem applyFrom_eq (i : ℕ) (pods : List String) (cache : SchedulerCache) :
    applyFrom u accepts result i pods cache =
      match firstRejected accepts i pods with
      | none => ⟨true, result, cache.assumeAll (pods.map u.uid)⟩
      | some (j, podKey) =>
        rejected u result j podKey (cache.assumeAll ((pods.take (j - i)).map u.uid)) := by
  induction pods generalizing i cache with
  | nil => simp [applyFrom, firstRejected, SchedulerCache.assumeAll]
  | cons key rest ih =>
    by_cases hacc : accepts i
    · simp only [applyFrom, firstRejected, SchedulerCache.assumePod, hacc, if_true, ih]
      cases hrej : firstRejected accepts (i + 1) rest with
      | none => simp [SchedulerCache.assumeAll_cons]
      | some r =>
        obtain ⟨j, podKey⟩ := r
        have hij := firstRejected_index hrej
        obtain ⟨n, rfl⟩ : ∃ n, j = i + 1 + n := ⟨j - (i + 1), by omega⟩
        have hpred : i + 1 + n - (i + 1) = n := by omega
        have hsucc : i + 1 + n - i = n + 1 := by omega
        simp only [hpred, hsucc, take_succ_cons, map_cons, SchedulerCache.assumeAll_cons]
    · simp [applyFrom, firstRejected, SchedulerCache.assumePod, hacc, SchedulerCache.assumeAll]

theorem firstRejected_lt {accepts : ℕ → Bool} {i j : ℕ} {pods : List String}
    (h : firstRejected accepts i pods = some (j, podKey)) : j < i + pods.length := by
  induction pods generalizing i with
  | nil => cases h
  | cons key rest ih =>
    unfold firstRejected at h
    split_ifs at h
    · have hj := ih h
      rw [length_cons]
      omega
    · cases h
      rw [length_cons]
      omega

theorem gangAtomic_of_none (assumed : Finset String) :
    GangAtomic u ⟨true, result,
        SchedulerCache.assumeAll ⟨assumed, []⟩ (result.successfulPods.map u.uid)⟩ ↔
      (u.everScheduled ∨ u.minMember ≤ result.successfulPods.length) := by
  constructor
  · intro h
    exact (h.2 rfl).2
  · intro h
    refine ⟨fun hok => (by cases hok), fun _ => ⟨fun uid => ?_, h⟩⟩
    simp only [SchedulerCache.assumeAll, nil_append, Finset.mem_union, mem_toFinset]
    exact ⟨And.left, fun hmem => ⟨hmem, .inr hmem⟩⟩

theorem mem_assumed_rejected {assumed : Finset String} {uids : List String} {uid uid' : String} :
    uid' ∈ ((SchedulerCache.assumeAll ⟨assumed, []⟩ uids).forgetPod uid).assumed ↔
      uid' ≠ uid ∧ (uid' ∈ assumed ∨ uid' ∈ uids) := by
  simp [SchedulerCache.assumeAll, SchedulerCache.forgetPod]

theorem gangAtomic_rejected {i : ℕ} (hi : i < result.successfulPods.length)
    (assumed : Finset String) :
    GangAtomic u (rejected u result i podKey
        (SchedulerCache.assumeAll ⟨assumed, []⟩ ((result.successfulPods.take i).map u.uid))) ↔
      if !u.everScheduled && decide ((i : ℤ) < u.minMember) then
        ∀ key ∈ result.successfulPods.take i, u.uid key = u.uid podKey
      else ∀ key ∈ result.successfulPods.take i, u.uid key ≠ u.uid podKey := by
  have hlog : ∀ uid, uid ∈ ((SchedulerCache.assumeAll ⟨assumed, []⟩
      ((result.successfulPods.take i).map u.uid)).forgetPod (u.uid podKey)).assumeLog ↔
        ∃ key ∈ result.successfulPods.take i, u.uid key = uid := by
    intro uid
    simp only [SchedulerCache.assumeAll, SchedulerCache.forgetPod, nil_append, mem_map]
  unfold rejected
  simp only [SchedulerCache.foldl_forgetPod]
  split_ifs with hmin
  · constructor
    · intro h key hkey
      have hforgotten := h.1 rfl (u.uid key) ((hlog _).mpr ⟨key, hkey, rfl⟩)
      rw [mem_assumed_rejected] at hforgotten
      by_contra hne
      exact hforgotten ⟨hne, .inr (mem_map_of_mem hkey)⟩
    · intro h
      refine ⟨fun _ uid huid => ?_, fun hok => by cases hok⟩
      obtain ⟨key, hkey, rfl⟩ := (hlog uid).mp huid
      rw [mem_assumed_rejected]
      exact fun hmem => hmem.1 (h key hkey)
  · constructor
    · intro h key hkey heq
      have hleft := ((h.2 rfl).1 (u.uid key)).mpr (mem_map_of_mem hkey)
      rw [mem_assumed_rejected] at hleft
      exact hleft.2.1 heq
    · intro h
      refine ⟨fun hok => (by cases hok), fun _ => ⟨fun uid => ?_, ?_⟩⟩
      · rw [hlog, mem_assumed_rejected, mem_map]
        constructor
        · exact And.left
        · rintro ⟨key, hkey, rfl⟩
          exact ⟨⟨key, hkey, rfl⟩, h key hkey, .inr ⟨key, hkey, rfl⟩⟩
      · rw [length_take, min_eq_left hi.le]
        cases hever : u.everScheduled with
        | true => exact .inl rfl
        | false =>
          right
          simpa [hever] using hmin

theorem gangAtomic_applyToCache_iff (assumed : Finset String) :
    GangAtomic u (applyToCache u accepts result ⟨assumed, []⟩) ↔
      AppliedAsGang u accepts result.successfulPods := by
  unfold applyToCache AppliedAsGang
  rw [applyFrom_eq]
  cases hrej : firstRejected accepts 0 result.successfulPods with
  | none => exact gangAtomic_of_none u result assumed
  | some r =>
    obtain ⟨i, podKey⟩ := r
    have hi := firstRejected_lt hrej
    rw [Nat.zero_add] at hi
    exact gangAtomic_rejected u result hi assumed

end

def pairUnit : SchedulingUnitInfo where
  everScheduled := false
  minMember := 2
  dispatchedPods key := { uid := key, ns := "default", name := key }

/-- The second pod is rejected: the result is refused but the first pod stays assumed. -/
theorem applyToCache_keeps_first_pod :
    let applied := applyToCache pairUnit (fun i => i = 0) ⟨false, ["a", "b"], []⟩ ⟨∅, []⟩
    applied.ok = false ∧ applied.cache.assumeLog = ["a"] ∧ applied.cache.assumed = {"a"} := by
  decide

end GodelScheduler.UnitScheduler
