import GodelScheduler.Framework.Pod
import GodelScheduler.Library.Int64
import GodelScheduler.Splay.OrderedTree
import Mathlib.Data.Prod.Lex
import Mathlib.Order.WithBot

/-!
# Pods in the splay tree

A pod with what is computed once for it. Pods are ordered by priority, then by start
time, the earlier one being greater, then by key. Over a subtree of pods the CPU and
memory requests are summed up, as 64-bit integers, and a partition at a priority asks
for the sum over the pods below it.
-/

namespace GodelScheduler

open Library Splay

structure PodInfo where
  pod : Pod
  res : Resource := {}
  podKey : String := pod.uid
  podPriority : ℤ := 0
  isSharedCores : Bool := false
  /-- The start time in `PodPreemptionInfo`. -/
  startTime : Option ℤ := none

structure PodMaintainableInfo where
  podInfo : PodInfo
  milliCPU : ℤ
  memory : ℤ

namespace PodMaintainableInfo

/-- The CPU and memory of a child; a lookup value has none. -/
def childRequests : MaintainInfo PodMaintainableInfo → Option (ℤ × ℤ)
  | .nil => some (0, 0)
  | .forLookup => none
  | .own o => some (o.milliCPU, o.memory)

def maintain (o : PodMaintainableInfo) (l r : MaintainInfo PodMaintainableInfo) :
    Option PodMaintainableInfo := do
  let (lCPU, lMemory) ← childRequests l
  let (rCPU, rMemory) ← childRequests r
  pure { o with
    milliCPU := int64 (int64 (o.podInfo.res.milliCPU + lCPU) + rCPU)
    memory := int64 (int64 (o.podInfo.res.memory + lMemory) + rMemory) }

end PodMaintainableInfo

namespace PodInfo

def makeMaintainInfo (pi : PodInfo) : PodMaintainableInfo :=
  ⟨pi, int64 pi.res.milliCPU, int64 pi.res.memory⟩

/-- Whether the first start time makes a pod greater, `none` if they do not decide. -/
def compareStartTime : Option ℤ → Option ℤ → Option Bool
  | none, none => none
  | some t, some t' => if t ≠ t' then some (decide (t < t')) else none
  | some _, none => some true
  | none, some _ => some false

def compare (pi pi2 : PodInfo) : Bool :=
  if pi.podPriority ≠ pi2.podPriority then decide (pi2.podPriority < pi.podPriority)
  else (compareStartTime pi.startTime pi2.startTime).getD (decide (pi2.podKey < pi.podKey))

instance : StoredObj PodInfo PodMaintainableInfo where
  key pi := pi.podKey
  compare := compare
  makeMaintainInfo := makeMaintainInfo
  maintain := PodMaintainableInfo.maintain

section

variable {a b c : PodInfo}

/-- A pod that has not started comes first, then the pods from the latest to the earliest. -/
def startRank : Option ℤ → WithBot ℤᵒᵈ
  | none => ⊥
  | some t => WithBot.some (OrderDual.toDual t)

theorem compareStartTime_getD (t t' : Option ℤ) (d : Bool) :
    (compareStartTime t t').getD d = true ↔
      startRank t' < startRank t ∨ startRank t' = startRank t ∧ d = true := by
  match t, t' with
  | none, none => simp [compareStartTime]
  | none, some t' => simp [compareStartTime, startRank]
  | some t, none => simp [compareStartTime, startRank, WithBot.bot_lt_coe]
  | some t, some t' =>
    have hlt : startRank (some t') < startRank (some t) ↔ t < t' := WithBot.coe_lt_coe
    have heq : startRank (some t') = startRank (some t) ↔ t' = t := by
      simp [startRank]
    rw [hlt, heq, compareStartTime]
    split_ifs with h
    · simp [Ne.symm h]
    · simp [not_not.mp h]

def rank (pi : PodInfo) : ℤ ×ₗ (WithBot ℤᵒᵈ ×ₗ String) :=
  toLex (pi.podPriority, toLex (startRank pi.startTime, pi.podKey))

theorem compare_iff : compare a b ↔ rank b < rank a := by
  rw [rank, rank, Prod.Lex.toLex_lt_toLex, Prod.Lex.toLex_lt_toLex, compare]
  split_ifs with hp
  · simp only [decide_eq_true_eq, Ne.symm hp, false_and, or_false]
  · rw [compareStartTime_getD, decide_eq_true_eq]
    simp only [not_not.mp hp, lt_irrefl, true_and, false_or]

theorem ordered : StoredObj.Ordered PodInfo where
  irrefl a h := lt_irrefl _ (compare_iff.mp h)
  trans a b c hab hbc := compare_iff.mpr ((compare_iff.mp hbc).trans (compare_iff.mp hab))
  total a b hne := by
    rcases lt_trichotomy (rank a) (rank b) with h | h | h
    · exact Or.inr (compare_iff.mpr h)
    · exact absurd (congrArg (fun r => (ofLex (ofLex r).2).2) h) hne
    · exact Or.inl (compare_iff.mpr h)

theorem priority_le_of_compare (h : compare a b) : b.podPriority ≤ a.podPriority := by
  rw [compare_iff, rank, rank, Prod.Lex.toLex_lt_toLex] at h
  rcases h with h | ⟨h, -⟩
  · exact h.le
  · exact h.le

end

section

def sumMilliCPU (pods : List PodInfo) : ℤ := int64 (pods.map fun pi => pi.res.milliCPU).sum

def sumMemory (pods : List PodInfo) : ℤ := int64 (pods.map fun pi => pi.res.memory).sum

theorem sums_perm {pods pods' : List PodInfo} (hperm : pods.Perm pods') :
    sumMilliCPU pods = sumMilliCPU pods' ∧ sumMemory pods = sumMemory pods' :=
  ⟨congrArg int64 (hperm.map _).sum_eq, congrArg int64 (hperm.map _).sum_eq⟩

/-- The value holds the CPU and memory requests of the pods. -/
def SumsRequests (pods : List PodInfo) (o : PodMaintainableInfo) : Prop :=
  o.milliCPU = sumMilliCPU pods ∧ o.memory = sumMemory pods

theorem childRequests_eq {m : MaintainInfo PodMaintainableInfo} (hm : m ≠ .forLookup) :
    ∃ cpu memory, PodMaintainableInfo.childRequests m = some (cpu, memory) ∧
      ∀ pods, SumsTo SumsRequests pods m → cpu = sumMilliCPU pods ∧ memory = sumMemory pods := by
  cases m with
  | nil => exact ⟨0, 0, rfl, fun pods hpods => by rw [hpods]; exact ⟨rfl, rfl⟩⟩
  | forLookup => exact absurd rfl hm
  | own o => exact ⟨_, _, rfl, fun pods hpods => hpods.2⟩

/-- The CPU and memory requests, summed up over the pods of a subtree. -/
def requests : Aggregate PodInfo PodMaintainableInfo where
  own pi o := o.podInfo = pi
  sums := SumsRequests
  own_make _ := rfl
  sums_make pi := by
    simp [SumsRequests, sumMilliCPU, sumMemory, StoredObj.makeMaintainInfo, makeMaintainInfo]
  maintain := by
    rintro pi o l r rfl hl hr
    obtain ⟨lCPU, lMemory, hql, hl'⟩ := childRequests_eq hl
    obtain ⟨rCPU, rMemory, hqr, hr'⟩ := childRequests_eq hr
    refine ⟨⟨o.podInfo, int64 (o.podInfo.res.milliCPU + lCPU + rCPU),
      int64 (o.podInfo.res.memory + lMemory + rMemory)⟩, ?_, rfl, ?_⟩
    · simp [StoredObj.maintain, PodMaintainableInfo.maintain, hql, hqr]
    · intro ls rs hls hrs
      rw [(hl' ls hls).1, (hl' ls hls).2, (hr' rs hrs).1, (hr' rs hrs).2]
      simp only [SumsRequests, sumMilliCPU, sumMemory, List.map_append, List.map_cons,
        List.sum_append, List.sum_cons, int64_add_int64, int64_add_int64_add]
      constructor <;> rw [add_assoc, add_left_comm]

theorem isSome_maintain (o : PodMaintainableInfo) (l r : MaintainInfo PodMaintainableInfo)
    (hl : l ≠ .forLookup) (hr : r ≠ .forLookup) : (StoredObj.maintain PodInfo o l r).isSome := by
  obtain ⟨j, hj, -⟩ := requests.maintain rfl hl hr
  rw [hj]
  rfl

end

end PodInfo

/-- A priority at which the pods are partitioned. -/
structure PodPartitionInfo where
  priorityUpper : ℤ

namespace PodPartitionInfo

def compare (p : PodPartitionInfo) (o : PodInfo) : Bool := decide (o.podPriority < p.priorityUpper)

theorem compare_of_compare {p : PodPartitionInfo} {a b : PodInfo} (hba : PodInfo.compare b a)
    (hb : p.compare b) : p.compare a := by
  have hle := PodInfo.priority_le_of_compare hba
  simp only [compare, decide_eq_true_eq] at hb ⊢
  omega

end PodPartitionInfo

end GodelScheduler
