import GodelScheduler.Queue.Pending

/-!
# Deliveries: no pod lost, no pod stale

A history is a queue with what the calls so far have promised: the UIDs owed,
that is given by `Add`, by `Update` or in a unit handed back and since then
neither deleted nor served, and the pod most recently delivered for each UID.

In runs that hand no unit back while pods of its key wait for a unit,
`pendingOnce_iff_keepsPending` says when every owed pod is pending exactly once,
and `fresh_iff_keepsFresh` when every pending pod is the one delivered last.
-/

namespace GodelScheduler.Queue

open Library Function Finset

def unitUids (u : QueuedUnitInfo) : Finset String :=
  (u.scheduleUnit.getPods.map QueuedPodInfo.uid).toFinset

structure History where
  queue : PriorityQueue
  owed : Finset String
  latest : String → Option Pod

variable (s : History)

namespace History

def start : History := ⟨.new, ∅, fun _ => none⟩

/-- An update supersedes the old pod. -/
def owedAfter : PriorityQueue.Op → Finset String
  | .add _ pod => insert pod.uid s.owed
  | .update _ oldPod newPod => insert newPod.uid (s.owed.erase oldPod.uid)
  | .delete _ pod => s.owed.erase pod.uid
  | .pop k =>
    match s.queue.pop k with
    | some (u, _) => s.owed \ unitUids u
    | none => s.owed
  | .addUnschedulableIfNotPresent _ u _ => s.owed ∪ unitUids u
  | _ => s.owed

def latestAfter : PriorityQueue.Op → String → Option Pod
  | .add _ pod => Function.update s.latest pod.uid (some pod)
  | .update _ _ newPod => Function.update s.latest newPod.uid (some newPod)
  | _ => s.latest

def step (b : BackoffHandler) (s : History) (op : PriorityQueue.Op) : History where
  queue := s.queue.step b op
  owed := s.owedAfter op
  latest := s.latestAfter op

def HandBackClear (s : History) (op : PriorityQueue.Op) : Prop := s.queue.HandBackClear op

/-- Every owed pod is pending exactly once. -/
def PendingOnce : Prop :=
  ∀ uid ∈ s.owed, (s.queue.pendingPods.map Pod.uid).count uid = 1

/-- Every pending pod is the one delivered last. -/
def Fresh : Prop := ∀ pod ∈ s.queue.pendingPods, s.latest pod.uid = some pod

/-- The UIDs put under the key are pending under no other key, and a single pod unit under the key
holds no other UID that is still owed. -/
def Places (op : PriorityQueue.Op) (k : UnitKey) (put : Finset String) : Prop :=
  (∀ uid ∈ put, ∀ k', k' ≠ k → ∀ pod ∈ s.queue.podsUnder k', pod.uid ≠ uid) ∧
    (k.type = .singlePodUnitType →
      ∀ pod ∈ s.queue.podsUnder k, pod.uid ∈ s.owedAfter op → pod.uid ∈ put)

def KeepsPending : PriorityQueue.Op → Prop
  | .add env pod => s.Places (.add env pod) (getUnitIdentifier pod) {pod.uid}
  | .update env oldPod newPod =>
    s.Places (.update env oldPod newPod) (getUnitIdentifier newPod) {newPod.uid}
  | .delete env pod => s.Places (.delete env pod) (getUnitIdentifier pod) ∅
  | .addUnschedulableIfNotPresent env u cycle =>
    u.scheduleUnit.numPods = 0 ∨
      s.Places (.addUnschedulableIfNotPresent env u cycle) u.unitKey (unitUids u)
  | _ => True

/-- A pod under another key, or a waiting pod that the delivery picks up, is the delivered one. -/
def Supersedes (env : Env) (pod : Pod) : Prop :=
  ∀ k, (k ≠ getUnitIdentifier pod ∨ s.queue.picksUp env pod) →
    ∀ old ∈ s.queue.podsUnder k, old.uid = pod.uid → old = pod

def KeepsFresh : PriorityQueue.Op → Prop
  | .add env pod => s.Supersedes env pod
  | .update env _ newPod => s.Supersedes env newPod
  | .addUnschedulableIfNotPresent _ u _ =>
    ∀ info ∈ u.scheduleUnit.getPods, s.latest info.uid = some info.pod
  | _ => True

end History

variable {uid : String}

section

open PriorityQueue

variable {v : UnitKey → PodView} {k : UnitKey} {w : PodView}

def held (v : UnitKey → PodView) (k : UnitKey) (uid : String) : Prop := (v k uid).isSome

theorem held_update (v : UnitKey → PodView) (k : UnitKey) (w : PodView) :
    held (Function.update v k w) = Function.update (held v) k fun uid => (w uid).isSome := by
  funext k'
  by_cases hk : k' = k
  · subst hk
    funext uid
    simp [held]
  · funext uid
    simp [held, hk]

namespace PodView

variable (v : PodView)

theorem isSome_set (pod : Pod) (uid : String) :
    (v.set pod uid).isSome ↔ uid = pod.uid ∨ (v uid).isSome := by
  by_cases h : uid = pod.uid <;> simp [set, h]

theorem isSome_absorb (pod : Pod) (uid : String) :
    (v.absorb pod uid).isSome ↔ uid = pod.uid ∨ (v uid).isSome := by
  unfold absorb
  split_ifs with h
  · constructor
    · exact .inr
    · rintro (rfl | hv)
      · exact h
      · exact hv
  · exact isSome_set v pod uid

theorem isSome_erase (uid uid' : String) :
    (v.erase uid uid').isSome ↔ uid' ≠ uid ∧ (v uid').isSome := by
  by_cases h : uid' = uid <;> simp [erase, h]

theorem isSome_deliver (k : UnitKey) (pod : Pod) (uid : String) :
    (v.deliver k pod uid).isSome ↔
      uid = pod.uid ∨ (k.type = .podGroupUnitType ∧ (v uid).isSome) := by
  unfold deliver
  split_ifs with h <;> rw [isSome_set] <;> simp [h, none]

theorem isSome_retract (k : UnitKey) (uid uid' : String) :
    (v.retract k uid uid').isSome ↔ k.type = .podGroupUnitType ∧ uid' ≠ uid ∧ (v uid').isSome := by
  unfold retract
  split_ifs with h
  · rw [isSome_erase]
    simp [h]
  · simp [h, none]

theorem isSome_handBack (k : UnitKey) (unit : PodView) (uid : String) :
    (v.handBack k unit uid).isSome ↔
      (unit uid).isSome ∨ (k.type = .podGroupUnitType ∧ (v uid).isSome) := by
  unfold handBack
  split_ifs with h <;> simp [h]

end PodView

theorem mem_unitUids {u : QueuedUnitInfo} : uid ∈ unitUids u ↔ (unitView u uid).isSome := by
  rw [Option.isSome_iff_exists]
  simp only [unitView_eq_some_iff, unitUids, List.mem_toFinset, List.mem_map]
  constructor
  · rintro ⟨info, hinfo, rfl⟩
    exact ⟨info.pod, ⟨info, hinfo, rfl⟩, rfl⟩
  · rintro ⟨-, ⟨info, hinfo, rfl⟩, rfl⟩
    exact ⟨info, hinfo, rfl⟩

theorem unitUids_of_numPods_eq_zero {u : QueuedUnitInfo} (h : u.scheduleUnit.numPods = 0) :
    unitUids u = ∅ := by
  apply eq_empty_of_forall_notMem
  intro uid huid
  rw [mem_unitUids, unitView_of_numPods_eq_zero u h] at huid
  cases huid

theorem Represents.type_of_picksUp {p : PriorityQueue} {env : Env} {pod : Pod}
    (hp : p.Represents v) (h : p.picksUp env pod) :
    (getUnitIdentifier pod).type = .podGroupUnitType := by
  unfold picksUp at h
  rw [Bool.and_eq_true] at h
  obtain ⟨w, hw⟩ := Option.isSome_iff_exists.mp h.2
  exact ((hp _).slot_of_waiting hw).2.1

end

namespace History

open PriorityQueue

variable {s : History} {v : UnitKey → PodView} {k : UnitKey} {w : PodView}

theorem pendingOnce_iff (hp : s.queue.Represents v) :
    s.PendingOnce ↔ PlacedOnce (held v) (s.owed : Set String) := by
  unfold PendingOnce PlacedOnce held
  simp only [hp.count_pendingPods_eq_one_iff, mem_coe]

/-- A call that puts `put` under the key and leaves there, of what is still owed, all the pods of
a group and none of the pods of a single pod unit. -/
theorem placedOnce_iff_places (hp : s.queue.Represents v)
    (h : PlacedOnce (held v) (s.owed : Set String)) {op : Op} {put : Finset String}
    (hput : ∀ uid ∈ put, uid ∈ s.owedAfter op ∧ (w uid).isSome)
    (howed : ∀ uid ∈ s.owedAfter op, uid ∉ put → uid ∈ s.owed)
    (hnow : ∀ uid, (w uid).isSome → uid ∈ put ∨ (v k uid).isSome)
    (hkeep : ∀ uid ∈ s.owedAfter op, uid ∉ put → (v k uid).isSome →
      ((w uid).isSome ↔ k.type = .podGroupUnitType)) :
    PlacedOnce (held (Function.update v k w)) (s.owedAfter op : Set String) ↔
      s.Places op k put := by
  rw [held_update, placedOnce_update_iff (put : Set String) h hput howed hnow]
  have hother : ∀ k' uid, ¬ held v k' uid ↔ ∀ pod ∈ s.queue.podsUnder k', pod.uid ≠ uid := by
    intro k' uid
    rw [← hp.view_eq_none_iff, held, Option.not_isSome_iff_eq_none]
  unfold Places
  simp only [hother, mem_coe]
  apply and_congr_right
  intro _
  constructor
  · intro hall hsingle pod hpod howed'
    by_contra hnot
    have hheld : (v k pod.uid).isSome := by
      rw [(hp.mem_podsUnder_iff pod).mp hpod]
      rfl
    have hgroup := (hkeep _ howed' hnot hheld).mp (hall _ howed' hnot hheld)
    rw [hsingle] at hgroup
    cases hgroup
  · intro hsingle uid howed' hnot hheld
    rw [hkeep uid howed' hnot hheld]
    obtain ⟨pod, hpod⟩ := Option.isSome_iff_exists.mp hheld
    obtain ⟨c, -, e, he, rfl⟩ := hp.exists_stored hpod
    obtain ⟨-, rfl⟩ := (hp.mem_stored_iff he _ _).mp hpod
    cases htype : e.1.type with
    | podGroupUnitType => rfl
    | singlePodUnitType =>
      exact absurd (hsingle htype pod ((hp.mem_podsUnder_iff pod).mpr hpod) howed') hnot

variable {erased : PodView}

theorem isSome_delivered (hp : s.queue.Represents v) (env : Env) (pod : Pod)
    (herased : ∀ uid, (erased uid).isSome → (v (getUnitIdentifier pod) uid).isSome) (uid : String) :
    ((if s.queue.picksUp env pod then (v (getUnitIdentifier pod)).absorb pod
        else erased.deliver (getUnitIdentifier pod) pod) uid).isSome →
      uid = pod.uid ∨ ((getUnitIdentifier pod).type = .podGroupUnitType ∧
        (v (getUnitIdentifier pod) uid).isSome) := by
  split_ifs with hpick
  · rw [PodView.isSome_absorb]
    exact Or.imp_right fun hv => ⟨Represents.type_of_picksUp hp hpick, hv⟩
  · rw [PodView.isSome_deliver]
    exact Or.imp_right fun hv => ⟨hv.1, herased uid hv.2⟩

theorem isSome_delivered_of (env : Env) (pod : Pod)
    (h : uid = pod.uid ∨ ((getUnitIdentifier pod).type = .podGroupUnitType ∧
      (v (getUnitIdentifier pod) uid).isSome ∧ (erased uid).isSome)) :
    ((if s.queue.picksUp env pod then (v (getUnitIdentifier pod)).absorb pod
        else erased.deliver (getUnitIdentifier pod) pod) uid).isSome := by
  split_ifs
  · exact (PodView.isSome_absorb _ _ _).mpr (h.imp_right fun hv => hv.2.1)
  · exact (PodView.isSome_deliver _ _ _ _).mpr (h.imp_right fun hv => ⟨hv.1, hv.2.2⟩)

variable (hp : s.queue.Represents v)
include hp

section

variable (h : PlacedOnce (held v) (s.owed : Set String))

include h

/-- A delivery that may first erase an old pod, which is owed no more. -/
theorem placedOnce_deliver_iff (env : Env)
    (pod : Pod) {op : Op} {kept : Finset String} (howed : s.owedAfter op = insert pod.uid kept)
    (hkept : kept ⊆ s.owed)
    (herased : ∀ uid, (erased uid).isSome → (v (getUnitIdentifier pod) uid).isSome)
    (hleft : ∀ uid ∈ kept, (v (getUnitIdentifier pod) uid).isSome → (erased uid).isSome) :
    PlacedOnce (held (Function.update v (getUnitIdentifier pod)
        (if s.queue.picksUp env pod then (v (getUnitIdentifier pod)).absorb pod
          else erased.deliver (getUnitIdentifier pod) pod))) (s.owedAfter op : Set String) ↔
      s.Places op (getUnitIdentifier pod) {pod.uid} := by
  apply placedOnce_iff_places hp h
  · intro uid huid
    rw [mem_singleton] at huid
    exact ⟨by simp [howed, huid], isSome_delivered_of env pod (.inl huid)⟩
  · intro uid huid hnot
    rw [howed, mem_insert] at huid
    rw [mem_singleton] at hnot
    exact hkept (huid.resolve_left hnot)
  · intro uid huid
    rw [mem_singleton]
    exact (isSome_delivered hp env pod herased uid huid).imp_right And.right
  · intro uid huid hnot hv
    rw [howed, mem_insert] at huid
    rw [mem_singleton] at hnot
    constructor
    · intro hw
      exact ((isSome_delivered hp env pod herased uid hw).resolve_left hnot).1
    · intro hgroup
      exact isSome_delivered_of env pod
        (.inr ⟨hgroup, hv, hleft uid (huid.resolve_left hnot) hv⟩)

theorem placedOnce_delete_iff (env : Env) (pod : Pod) :
    PlacedOnce (held (s.queue.podsStep v (.delete env pod)))
        (s.owedAfter (.delete env pod) : Set String) ↔ s.KeepsPending (.delete env pod) := by
  apply placedOnce_iff_places hp h
  · intro uid huid
    cases notMem_empty uid huid
  · intro uid huid _
    exact mem_of_mem_erase huid
  · intro uid huid
    exact .inr ((PodView.isSome_retract _ _ _ _).mp huid).2.2
  · intro uid huid _ hv
    rw [PodView.isSome_retract]
    exact ⟨And.left, fun hgroup => ⟨hgroup, ne_of_mem_erase huid, hv⟩⟩

theorem placedOnce_handBack_iff (env : Env) (u : QueuedUnitInfo) (cycle : ℤ) :
    PlacedOnce (held (s.queue.podsStep v (.addUnschedulableIfNotPresent env u cycle)))
        (s.owedAfter (.addUnschedulableIfNotPresent env u cycle) : Set String) ↔
      s.KeepsPending (.addUnschedulableIfNotPresent env u cycle) := by
  simp only [podsStep, KeepsPending]
  split_ifs with hnum
  · simp only [owedAfter, unitUids_of_numPods_eq_zero hnum, union_empty]
    exact iff_of_true h (.inl hnum)
  · rw [or_iff_right hnum]
    apply placedOnce_iff_places hp h
    · intro uid huid
      exact ⟨mem_union_right _ huid,
        (PodView.isSome_handBack _ _ _ _).mpr (.inl (mem_unitUids.mp huid))⟩
    · intro uid huid hnot
      exact (mem_union.mp huid).resolve_right hnot
    · intro uid huid
      rw [mem_unitUids]
      exact ((PodView.isSome_handBack _ _ _ _).mp huid).imp_right And.right
    · intro uid _ hnot hv
      rw [mem_unitUids] at hnot
      rw [PodView.isSome_handBack, or_iff_right hnot]
      exact ⟨And.left, fun hgroup => ⟨hgroup, hv⟩⟩

theorem placedOnce_pop (key : UnitKey) : PlacedOnce (held (s.queue.podsStep v (.pop key)))
      (s.owedAfter (.pop key) : Set String) := by
  simp only [podsStep, owedAfter]
  cases hpop : s.queue.pop key with
  | none => exact h
  | some r =>
    obtain ⟨-, hview, -⟩ := settles_pop (hp key) hpop
    have hserved : ∀ uid ∈ s.owed \ unitUids r.1, ¬ (v key uid).isSome := by
      intro uid huid
      rw [← hview, ← mem_unitUids]
      exact (mem_sdiff.mp huid).2
    rw [if_pos (by rfl), held_update, placedOnce_update_iff ∅ h]
    · exact ⟨fun uid huid => absurd huid (Set.notMem_empty uid),
        fun uid huid _ hheld => absurd hheld (hserved uid huid)⟩
    · exact fun uid huid => absurd huid (Set.notMem_empty uid)
    · exact fun uid huid _ => (mem_sdiff.mp huid).1
    · intro uid huid
      cases huid

theorem placedOnce_step_iff (op : Op) :
    PlacedOnce (held (s.queue.podsStep v op)) (s.owedAfter op : Set String) ↔
      s.KeepsPending op := by
  cases op with
  | add env pod =>
    exact placedOnce_deliver_iff hp h env pod rfl subset_rfl (fun _ => id) fun _ _ => id
  | update env oldPod newPod =>
    apply placedOnce_deliver_iff hp h env newPod rfl (erase_subset ..)
    · intro uid huid
      exact ((PodView.isSome_erase _ _ _).mp huid).2
    · intro uid huid hv
      exact (PodView.isSome_erase _ _ _).mpr ⟨ne_of_mem_erase huid, hv⟩
  | delete env pod => exact placedOnce_delete_iff hp h env pod
  | pop key => exact iff_of_true (placedOnce_pop hp h key) trivial
  | addUnschedulableIfNotPresent env u cycle => exact placedOnce_handBack_iff hp h env u cycle
  | activePodGroupUnit | moveAllToActiveOrBackoffQueue | assignedPod | flushBackoffQCompleted
  | flushUnschedulableQLeftover | flushScheduledUnitsInWaitingQ | flushWaitingPodsList =>
    exact iff_of_true h trivial

end

omit hp

/-- What holds of the queue is said of the pods it represents, where one call at a time decides
it. -/
theorem always_iff_of_views (b : BackoffHandler) {G : History → Prop} {C : History → Op → Prop}
    {J : History → (UnitKey → PodView) → Prop}
    (hG : ∀ s v, s.queue.Represents v → (G s ↔ J s v))
    (hstep : ∀ s v op, s.queue.Represents v → J s v →
      (J (step b s op) (s.queue.podsStep v op) ↔ C s op))
    (hstart : J start fun _ => .none) {ops : List Op}
    (hclear : Along (step b) HandBackClear start ops) :
    Always (step b) G start ops ↔ Along (step b) C start ops := by
  apply always_iff_along (I := fun s => ∃ v, s.queue.Represents v ∧ J s v) _ _ _ _ hclear
  · rintro s ⟨v, hp, h⟩
    exact (hG s v hp).mpr h
  · rintro s op ⟨v, hp, h⟩ hD hC
    exact ⟨_, represents_step b hp op hD, (hstep s v op hp h).mpr hC⟩
  · rintro s op ⟨v, hp, h⟩ hD hnext
    have hrep : (step b s op).queue.Represents _ := represents_step b hp op hD
    exact (hstep s v op hp h).mp ((hG _ _ hrep).mp hnext)
  · exact ⟨_, represents_new, hstart⟩

theorem pendingOnce_iff_keepsPending (b : BackoffHandler) {ops : List Op}
    (hclear : Along (step b) HandBackClear start ops) :
    Always (step b) PendingOnce start ops ↔ Along (step b) KeepsPending start ops :=
  always_iff_of_views b
    (fun _ _ => pendingOnce_iff) (fun _ _ op hp h => placedOnce_step_iff hp h op)
    (fun uid huid => absurd huid (notMem_empty uid)) hclear

/-- The steps of the witness: a unit is served and handed back. -/
theorem pendingOnce_iff_of_handBack :
    ∃ u, ((run (step tenSeconds) start [.add (envAt 0 [group]) (groupPod "a")]).queue.pop
        groupKey).map Prod.fst = some u ∧
      (Always (step tenSeconds) PendingOnce start
          [.add (envAt 0 [group]) (groupPod "a"), .pop groupKey,
            .addUnschedulableIfNotPresent (envAt 1 [group]) u 1] ↔
        Along (step tenSeconds) KeepsPending start
          [.add (envAt 0 [group]) (groupPod "a"), .pop groupKey,
            .addUnschedulableIfNotPresent (envAt 1 [group]) u 1]) :=
  ⟨_, rfl, pendingOnce_iff_keepsPending tenSeconds ⟨trivial, trivial, .inr (by decide), trivial⟩⟩

/-- The pod group of a served unit is deleted and created again. A pod of the group that arrived
in between gets a unit of its own, and the unit handed back overwrites it. -/
theorem moved_unit_drops_pending_pod :
    ∃ u, ((run (step tenSeconds) start [.add (envAt 0 [group]) (groupPod "a")]).queue.pop
        groupKey).map Prod.fst = some u ∧
      let s := run (step tenSeconds) start
        [.add (envAt 0 [group]) (groupPod "a"), .pop groupKey, .add (envAt 1 []) (groupPod "b"),
          .addUnschedulableIfNotPresent (envAt 2 []) u 1,
          .activePodGroupUnit (envAt 3 [group]) groupKey,
          .moveAllToActiveOrBackoffQueue (envAt (60 * 1000000000) [group])]
      "b" ∈ s.owed ∧ (s.queue.pendingPods.map Pod.uid).count "b" = 0 :=
  ⟨_, rfl, by decide⟩

/-- Every pod under a key is the one delivered last. -/
def FreshView (v : UnitKey → PodView) (latest : String → Option Pod) : Prop :=
  ∀ k uid pod, v k uid = some pod → latest uid = some pod

theorem uid_of_view (hp : s.queue.Represents v) {pod : Pod} (h : v k uid = some pod) :
    pod.uid = uid := by
  obtain ⟨c, -, e, he, rfl⟩ := hp.exists_stored h
  exact ((hp.mem_stored_iff he _ _).mp h).2

theorem fresh_iff (hp : s.queue.Represents v) : s.Fresh ↔ FreshView v s.latest := by
  constructor
  · intro h k uid pod hpod
    have huid := uid_of_view hp hpod
    subst huid
    exact h pod ((hp.mem_pendingPods_iff pod).mpr ⟨k, hpod⟩)
  · intro h pod hpod
    obtain ⟨k, hk⟩ := (hp.mem_pendingPods_iff pod).mp hpod
    exact h k pod.uid pod hk

/-- A delivery leaves under its key the delivered pod, or a waiting one it picks up, and apart
from it only pods that were there. -/
theorem delivered_eq_some {env : Env} {pod q : Pod}
    (herased : ∀ uid q, erased uid = some q → v (getUnitIdentifier pod) uid = some q)
    (h : (if s.queue.picksUp env pod then (v (getUnitIdentifier pod)).absorb pod
      else erased.deliver (getUnitIdentifier pod) pod) uid = some q) :
    (uid = pod.uid ∧ q = pod) ∨
      (v (getUnitIdentifier pod) uid = some q ∧ (uid = pod.uid → s.queue.picksUp env pod)) := by
  have hset : ∀ v' : PodView, v'.set pod uid = some q →
      (uid = pod.uid ∧ q = pod) ∨ (uid ≠ pod.uid ∧ v' uid = some q) := by
    intro v' hv'
    by_cases huid : uid = pod.uid
    · subst huid
      simp only [PodView.set, update_self, Option.some.injEq] at hv'
      exact .inl ⟨rfl, hv'.symm⟩
    · rw [PodView.set, update_of_ne huid] at hv'
      exact .inr ⟨huid, hv'⟩
  split_ifs at h with hpick
  · unfold PodView.absorb at h
    split_ifs at h
    · exact .inr ⟨h, fun _ => hpick⟩
    · exact (hset _ h).imp_right fun hv => ⟨hv.2, fun _ => hpick⟩
  · unfold PodView.deliver at h
    split_ifs at h
    · exact (hset _ h).imp_right fun hv => ⟨herased uid q hv.2, fun huid => absurd huid hv.1⟩
    · exact (hset _ h).imp_right fun hv => absurd hv.2 (by simp [PodView.none])

theorem freshView_deliver_iff (hp : s.queue.Represents v) (h : FreshView v s.latest) (env : Env)
    (pod : Pod) (herased : ∀ uid q, erased uid = some q → v (getUnitIdentifier pod) uid = some q) :
    FreshView (Function.update v (getUnitIdentifier pod)
        (if s.queue.picksUp env pod then (v (getUnitIdentifier pod)).absorb pod
          else erased.deliver (getUnitIdentifier pod) pod))
        (Function.update s.latest pod.uid (some pod)) ↔ s.Supersedes env pod := by
  constructor
  · intro hfresh k hk old hold huid
    rw [hp.mem_podsUnder_iff] at hold
    have hlatest := hfresh k pod.uid old
    rw [update_self] at hlatest
    suffices hstill : Function.update v (getUnitIdentifier pod) _ k pod.uid = some old from
      (Option.some.inj (hlatest hstill)).symm
    rw [huid] at hold
    by_cases hkey : k = getUnitIdentifier pod
    · subst hkey
      have hpick := hk.resolve_left (fun hne => hne rfl)
      rw [update_self, if_pos hpick, PodView.absorb, hold]
      simpa using hold
    · rw [update_of_ne hkey]
      exact hold
  · intro hsup k uid q hq
    have hunder : ∀ k', v k' uid = some q → q ∈ s.queue.podsUnder k' := by
      intro k' hv
      rw [hp.mem_podsUnder_iff, uid_of_view hp hv]
      exact hv
    have hcases : (uid = pod.uid ∧ q = pod) ∨ (v k uid = some q ∧
        (uid = pod.uid → k ≠ getUnitIdentifier pod ∨ s.queue.picksUp env pod)) := by
      by_cases hkey : k = getUnitIdentifier pod
      · subst hkey
        rw [update_self] at hq
        exact (delivered_eq_some herased hq).imp_right fun hv => ⟨hv.1, fun hu => .inr (hv.2 hu)⟩
      · rw [update_of_ne hkey] at hq
        exact .inr ⟨hq, fun _ => .inl hkey⟩
    rcases hcases with ⟨rfl, rfl⟩ | ⟨hv, hwhere⟩
    · exact update_self _ _ _
    · by_cases huid : uid = pod.uid
      · have hq' := hsup k (hwhere huid) q (hunder k hv) ((uid_of_view hp hv).trans huid)
        rw [huid, hq', update_self]
      · rw [update_of_ne huid]
        exact h k uid q hv

theorem FreshView.update (h : FreshView v s.latest)
    (hw : ∀ uid pod, w uid = some pod → v k uid = some pod) :
    FreshView (Function.update v k w) s.latest := by
  intro k' uid pod hpod
  by_cases hk : k' = k
  · subst hk
    rw [update_self] at hpod
    exact h k' uid pod (hw uid pod hpod)
  · rw [update_of_ne hk] at hpod
    exact h k' uid pod hpod

theorem erase_eq_some {uid uid' : String} {pod : Pod} (h : w.erase uid uid' = some pod) :
    w uid' = some pod := by
  by_cases huid : uid' = uid
  · subst huid
    simp [PodView.erase] at h
  · rwa [PodView.erase, update_of_ne huid] at h

/-- The pods of a unit handed back win, and those it is merged with are fresh already. -/
theorem freshView_handBack_iff (h : FreshView v s.latest) (env : Env) (u : QueuedUnitInfo)
    (cycle : ℤ) :
    FreshView (s.queue.podsStep v (.addUnschedulableIfNotPresent env u cycle)) s.latest ↔
      s.KeepsFresh (.addUnschedulableIfNotPresent env u cycle) := by
  have hinfo : (∀ uid pod, unitView u uid = some pod → s.latest uid = some pod) ↔
      s.KeepsFresh (.addUnschedulableIfNotPresent env u cycle) := by
    simp only [unitView_eq_some_iff, KeepsFresh]
    constructor
    · intro hall info hmem
      exact hall info.uid info.pod ⟨List.mem_map_of_mem hmem, rfl⟩
    · rintro hall uid pod ⟨hmem, rfl⟩
      obtain ⟨info, hinfo, rfl⟩ := List.mem_map.mp hmem
      exact hall info hinfo
  rw [← hinfo]
  simp only [podsStep]
  split_ifs with hnum
  · rw [unitView_of_numPods_eq_zero u hnum]
    exact iff_of_true h fun uid pod hpod => by cases hpod
  · constructor
    · intro hfresh uid pod hpod
      apply hfresh u.unitKey uid pod
      rw [update_self, PodView.handBack]
      split_ifs <;> simp [hpod]
    · intro hall k' uid pod hpod
      by_cases hk : k' = u.unitKey
      · subst hk
        rw [update_self, PodView.handBack] at hpod
        split_ifs at hpod
        · rcases Option.or_eq_some_iff.mp hpod with hu | ⟨-, hv⟩
          · exact hall uid pod hu
          · exact h _ uid pod hv
        · exact hall uid pod hpod
      · rw [update_of_ne hk] at hpod
        exact h k' uid pod hpod

theorem freshView_step_iff (hp : s.queue.Represents v) (h : FreshView v s.latest) (op : Op) :
    FreshView (s.queue.podsStep v op) (s.latestAfter op) ↔ s.KeepsFresh op := by
  cases op with
  | add env pod => exact freshView_deliver_iff hp h env pod fun _ _ => id
  | update env oldPod newPod =>
    exact freshView_deliver_iff hp h env newPod fun _ _ => erase_eq_some
  | delete env pod =>
    refine iff_of_true (h.update fun uid q hq => ?_) trivial
    unfold PodView.retract at hq
    split_ifs at hq
    · exact erase_eq_some hq
    · cases hq
  | pop key =>
    refine iff_of_true ?_ trivial
    simp only [podsStep]
    split_ifs
    · exact h.update fun uid q hq => by cases hq
    · exact h
  | addUnschedulableIfNotPresent env u cycle => exact freshView_handBack_iff h env u cycle
  | activePodGroupUnit | moveAllToActiveOrBackoffQueue | assignedPod | flushBackoffQCompleted
  | flushUnschedulableQLeftover | flushScheduledUnitsInWaitingQ | flushWaitingPodsList =>
    exact iff_of_true h trivial

theorem fresh_iff_keepsFresh (b : BackoffHandler) {ops : List Op}
    (hclear : Along (step b) HandBackClear start ops) :
    Always (step b) Fresh start ops ↔ Along (step b) KeepsFresh start ops :=
  always_iff_of_views b (fun _ _ => fresh_iff)
    (fun _ _ op hp h => freshView_step_iff hp h op) (fun k uid pod hpod => by cases hpod) hclear

/-- The queue serves no stale pod in a run whose calls keep it fresh and that hands no unit back
while pods of its key wait. -/
theorem fresh_of_keepsFresh (b : BackoffHandler) (ops : List Op)
    (h : Along (step b) (fun s op => s.HandBackClear op ∧ s.KeepsFresh op) start ops) :
    Always (step b) Fresh start ops :=
  (fresh_iff_keepsFresh b (h.mono fun _ _ => And.left)).mpr (h.mono fun _ _ => And.right)

/-- A unit is served, another pod of its group is added, and the unit is handed back. -/
theorem fresh_of_addedWhileServed :
    ∃ u, ((run (step tenSeconds) start [.add (envAt 0 [group]) (groupPod "a")]).queue.pop
        groupKey).map Prod.fst = some u ∧
      let ops : List Op := [.add (envAt 0 [group]) (groupPod "a"), .pop groupKey,
        .add (envAt 1 [group]) (groupPod "b"), .addUnschedulableIfNotPresent (envAt 2 [group]) u 1]
      (run (step tenSeconds) start ops).queue.pendingPods.length = 2 ∧
        Always (step tenSeconds) Fresh start ops := by
  refine ⟨_, rfl, by decide, fresh_of_keepsFresh tenSeconds _ ?_⟩
  -- both deliveries find the queue empty
  have hempty : ∀ k : UnitKey, ∀ old ∈ start.queue.podsUnder k, False :=
    fun k old hold => absurd hold List.not_mem_nil
  refine ⟨⟨trivial, fun k _ old hold _ => (hempty k old hold).elim⟩, ⟨trivial, trivial⟩,
    ⟨trivial, fun k _ old hold _ => (hempty k old hold).elim⟩, ⟨.inr (by decide), ?_⟩, trivial⟩
  change ∀ info ∈ _, _
  decide

/-- A unit is served, its pod is updated, and the unit is handed back. -/
def updatedWhileServed (u : QueuedUnitInfo) : List Op :=
  [.add (envAt 0 [group]) (groupPod "a"), .pop groupKey,
    .update (envAt 1 [group]) (groupPod "a") { groupPod "a" with resourceVersion := 1 },
    .addUnschedulableIfNotPresent (envAt 2 [group]) u 1]

/-- The unit handed back brings back the pod as it was before the update. -/
theorem handBack_serves_stale_pod :
    ∃ u, ((run (step tenSeconds) start [.add (envAt 0 [group]) (groupPod "a")]).queue.pop
        groupKey).map Prod.fst = some u ∧
      (run (step tenSeconds) start (updatedWhileServed u)).queue.pendingPods = [groupPod "a"] ∧
      (run (step tenSeconds) start (updatedWhileServed u)).latest "a" =
        some { groupPod "a" with resourceVersion := 1 } :=
  ⟨_, rfl, by decide⟩

end History

end GodelScheduler.Queue
