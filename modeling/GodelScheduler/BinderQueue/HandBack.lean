import GodelScheduler.BinderQueue.PriorityQueue

/-!
# A unit that is handed back

`AddUnitPreemptor` stores the unit it is given, with the pods that only the unit
in the queue has. So an update of a pod that came while its unit was served is
dropped, and a single pod unit keeps one of two pods.
-/

namespace GodelScheduler.BinderQueue

open Library Queue UnitPods

variable {infos infos' : Infos} {uid : String} {ref : InfoRef}

namespace PriorityQueue

/-- The pod of the last add or update with the UID. -/
def latest (ops : List Op) (uid : String) : Option Pod :=
  ops.foldl (fun last op =>
    match op with
    | .add _ pod => if pod.uid = uid then some pod else last
    | .update _ _ pod _ => if pod.uid = uid then some pod else last
    | _ => last) none

theorem latest_append (before after : List Op) :
    latest (before ++ after) uid = (latest after uid).or (latest before uid) := by
  induction after using List.reverseRecOn with
  | nil => simp [latest]
  | append_singleton after op ih =>
    simp only [latest, List.foldl_append, List.foldl_cons, List.foldl_nil] at ih ⊢
    rw [ih]
    cases op <;> dsimp only <;> split_ifs <;> rfl

def podInBackoff (q : PriorityQueue) (key : UnitKey) (uid : String) : Option Pod :=
  ((q.queues .unitBackoffQ).getByKey key).bind fun unit =>
    (unit.pods.getPod q.infos uid).map fun ref => (q.infos ref).pod

variable (q : PriorityQueue) (env : Env) (unit : UnitInfo)

/-- The pods of the unit that the queue has under the same key. -/
def preUnitPods : List InfoRef :=
  match q.getUnit unit.unitKey with
  | some (_, preUnit) => preUnit.pods.getPods env.order
  | none => []

/-- The pod as the unit handed back has it, or else as the unit in the queue has it. -/
def handedBack (uid : String) : Option InfoRef :=
  (unit.pods.getPod q.infos uid).or
    ((q.preUnitPods env unit).find? fun ref => (q.infos ref).uid = uid)

variable {q env unit}

/-- A single pod unit that is handed back has no other pod to take up. -/
def OnlyPod (q : PriorityQueue) (env : Env) (unit : UnitInfo) : Prop :=
  ∀ ref, unit.pods = .singlePod ref →
    ∀ ref' ∈ q.preUnitPods env unit, (q.infos ref').uid = (q.infos ref).uid

/-- No add or update since has another object of a pod of the unit, and a pod without one since is
as it was added or updated last before. -/
def NotDelivered (q : PriorityQueue) (before since : List Op) (unit : UnitInfo) : Prop :=
  ∀ uid, ∀ ref ∈ unit.pods.getPod q.infos uid, (∀ pod ∈ latest since uid, pod = (q.infos ref).pod) ∧
    (latest since uid = none → latest before uid = some (q.infos ref).pod)

/-- The pods that only the unit in the queue has are as they were added or updated last. -/
def OthersLatest (q : PriorityQueue) (ops : List Op) (env : Env) (unit : UnitInfo) : Prop :=
  ∀ uid, unit.pods.getPod q.infos uid = none →
    ∀ ref ∈ (q.preUnitPods env unit).find? fun ref => (q.infos ref).uid = uid,
      latest ops uid = some (q.infos ref).pod

theorem isSome_handedBack_of_mem (href : ref ∈ q.preUnitPods env unit) :
    (q.handedBack env unit (q.infos ref).uid).isSome := by
  have hfind : ((q.preUnitPods env unit).find? fun r =>
      decide ((q.infos r).uid = (q.infos ref).uid)).isSome :=
    List.find?_isSome.mpr ⟨ref, href, by simp⟩
  simp [handedBack, hfind]

theorem latest_handedBack_iff (before since : List Op) :
    (∀ uid, ∀ ref ∈ q.handedBack env unit uid,
      latest (before ++ since) uid = some (q.infos ref).pod) ↔
      q.NotDelivered before since unit ∧ q.OthersLatest (before ++ since) env unit := by
  have hown : ∀ uid ref, latest (before ++ since) uid = some (q.infos ref).pod ↔
      (∀ pod ∈ latest since uid, pod = (q.infos ref).pod) ∧
        (latest since uid = none → latest before uid = some (q.infos ref).pod) := by
    intro uid ref
    rw [latest_append]
    cases latest since uid <;> simp
  constructor
  · refine fun h => ⟨fun uid ref href => (hown uid ref).mp (h uid ref ?_), fun uid hnone ref href =>
      h uid ref ?_⟩
    · rw [handedBack, Option.mem_def.mp href]
      rfl
    · rwa [handedBack, hnone]
  · rintro ⟨hunit, hothers⟩ uid ref href
    cases hpod : unit.pods.getPod q.infos uid with
    | none =>
      rw [handedBack, hpod] at href
      exact hothers uid hpod ref href
    | some ref' =>
      rw [handedBack, hpod] at href
      cases href
      exact (hown uid ref).mpr (hunit uid ref hpod)

theorem getPod_congr (hpod : ∀ ref, (infos' ref).pod = (infos ref).pod) (pods : UnitPods) :
    pods.getPod infos' uid = pods.getPod infos uid := by
  cases pods with
  | podGroup minMember pods => rfl
  | singlePod ref => simp only [getPod, QueuedPodInfo.uid, hpod]

theorem getPod_mergePods {u : UnitInfo} {minMember : ℤ} {pods : GoMap String InfoRef}
    (hpods : u.pods = .podGroup minMember pods) (refs : List InfoRef) :
    (refs.foldl (mergePod infos) u).pods.getPod infos uid =
      (u.pods.getPod infos uid).or (refs.find? fun ref => (infos ref).uid = uid) := by
  obtain ⟨unitKey, _, timestamp, attempts⟩ := u
  subst hpods
  set unitOf := fun pods => UnitInfo.mk unitKey (.podGroup minMember pods) timestamp attempts
  have hstep : ∀ pods ref,
      mergePod infos (unitOf pods) ref = unitOf (pods.remember (infos ref).uid ref) := by
    intro pods ref
    unfold mergePod GoMap.remember
    cases hlookup : pods.lookup (infos ref).uid <;>
      simp [unitOf, getPod, UnitInfo.addPod, addPod, hlookup]
  rw [List.foldl_hom unitOf hstep]
  exact (GoMap.lookup_foldl_remember _ id ..).trans (by rw [Option.map_id]; rfl)

theorem mergePods_singlePod {u : UnitInfo} {r : InfoRef} (hpods : u.pods = .singlePod r)
    (refs : List InfoRef) :
    (∃ ref', (refs.foldl (mergePod infos) u).pods = .singlePod ref') ∧
      ((∀ ref' ∈ refs, (infos ref').uid = (infos r).uid) → refs.foldl (mergePod infos) u = u) := by
  induction refs generalizing u r with
  | nil => exact ⟨⟨r, hpods⟩, fun _ => rfl⟩
  | cons ref' refs ih =>
    rw [List.foldl_cons, mergePod]
    split_ifs with hnone
    · refine ⟨(ih (by rw [UnitInfo.addPod, hpods]; rfl)).1, fun h => ?_⟩
      rw [hpods, getPod, if_pos (h ref' (List.mem_cons_self ..)).symm] at hnone
      cases hnone
    · exact ⟨(ih hpods).1, fun h => (ih hpods).2 (List.forall_mem_cons.mp h).2⟩

def merged (q : PriorityQueue) (env : Env) (unit : UnitInfo) : UnitInfo :=
  (q.preUnitPods env unit).foldl (mergePod q.infos) { unit with timestamp := env.now }

theorem podInBackoff_addUnitPreemptor :
    (q.addUnitPreemptor env unit).podInBackoff unit.unitKey uid =
      ((q.merged env unit).pods.getPod q.infos uid).map fun ref => (q.infos ref).pod := by
  have hput : ∀ (q' : PriorityQueue) (unit' : UnitInfo),
      (∀ ref, (q'.infos ref).pod = (q.infos ref).pod) → unit'.unitKey = unit.unitKey →
      (q'.put .unitBackoffQ unit').podInBackoff unit.unitKey uid =
        (unit'.pods.getPod q.infos uid).map fun ref => (q.infos ref).pod := by
    intro q' unit' hpod hkey
    rw [podInBackoff, getByKey_put, if_pos ⟨rfl, hkey.symm⟩, Option.bind_some]
    simp only [put, getPod_congr hpod, hpod]
  unfold addUnitPreemptor
  extract_lets refs q' unit'
  have hpod : ∀ ref, (q'.infos ref).pod = (q.infos ref).pod := by
    intro ref
    change (if ref ∈ refs then _ else q.infos ref).pod = _
    split_ifs <;> rfl
  have hmerge : mergePod q'.infos = mergePod q.infos := by
    funext unit ref
    unfold mergePod UnitInfo.addPod addPod
    simp only [getPod_congr hpod, QueuedPodInfo.uid, hpod]
  have hget : q'.getUnit unit'.unitKey = q.getUnit unit.unitKey := rfl
  rw [hget, hmerge]
  unfold merged preUnitPods
  cases q.getUnit unit.unitKey with
  | none => exact hput q' unit' hpod rfl
  | some found => exact hput (q'.remove _ _) _ hpod (unitKey_mergePods ..)

theorem getPod_merged (honly : q.OnlyPod env unit) :
    (q.merged env unit).pods.getPod q.infos uid = q.handedBack env unit uid := by
  rcases hpods : unit.pods with ⟨minMember, pods⟩ | ref
  · exact getPod_mergePods (u := { unit with timestamp := env.now }) hpods _
  · have hsame : ∀ ref' ∈ q.preUnitPods env unit, (q.infos ref').uid = (q.infos ref).uid :=
      honly ref hpods
    have hmerged := (mergePods_singlePod (u := { unit with timestamp := env.now }) hpods _).2 hsame
    rw [merged, hmerged, handedBack]
    by_cases huid : (q.infos ref).uid = uid
    · simp [hpods, getPod, huid]
    · have hnone : ((q.preUnitPods env unit).find? fun r => (q.infos r).uid = uid) = none :=
        List.find?_eq_none.mpr fun r hr => by simp [hsame r hr, huid]
      simp [hnone]

/-- Handed back after a Pop, every pod is stored as it was added or updated last exactly if no add
or update since the Pop had another object of a pod of the unit, the pods that only the unit in the
queue has are up to date, and a single pod unit meets no other pod. -/
theorem latest_addUnitPreemptor_iff (cfg : BackoffConfig) (status : UnitKey → SchedulingStatus)
    (before since : List Op) (key : UnitKey) (env : Env) (unit : UnitInfo) :
    let ops := before ++ .pop key :: since
    let q := run (step cfg) (new status) ops
    (∀ uid, (q.handedBack env unit uid).isSome → ∃ pod, latest ops uid = some pod ∧
      (q.addUnitPreemptor env unit).podInBackoff unit.unitKey uid = some pod) ↔
      q.NotDelivered before since unit ∧ q.OthersLatest ops env unit ∧ q.OnlyPod env unit := by
  intro ops q
  rw [← and_assoc]
  refine Iff.trans ?_ (and_congr_left' (latest_handedBack_iff before (.pop key :: since)))
  simp only [podInBackoff_addUnitPreemptor]
  constructor
  · intro h
    have honly : q.OnlyPod env unit := by
      intro ref hpods ref₁ href₁
      obtain ⟨ref', hmerged⟩ : ∃ ref', (q.merged env unit).pods = .singlePod ref' :=
        (mergePods_singlePod (u := { unit with timestamp := env.now }) hpods _).1
      have hstored : ∀ uid, (q.handedBack env unit uid).isSome → (q.infos ref').uid = uid := by
        intro uid huid
        obtain ⟨pod, -, hpod⟩ := h uid huid
        rw [hmerged, getPod] at hpod
        split_ifs at hpod with heq
        · exact heq
        · cases hpod
      have hown : (q.handedBack env unit (q.infos ref).uid).isSome := by
        simp [handedBack, hpods, getPod]
      exact (hstored _ (isSome_handedBack_of_mem href₁)).symm.trans (hstored _ hown)
    refine ⟨fun uid ref href => ?_, honly⟩
    obtain ⟨pod, hlatest, hpod⟩ := h uid (Option.isSome_of_mem href)
    rw [getPod_merged honly, Option.mem_def.mp href] at hpod
    exact hlatest.trans hpod.symm
  · rintro ⟨hlatest, honly⟩ uid huid
    obtain ⟨ref, href⟩ := Option.isSome_iff_exists.mp huid
    refine ⟨_, hlatest uid ref href, ?_⟩
    rw [getPod_merged honly, href, Option.map_some]

def podVersion (resourceVersion : ℕ) : Pod where
  uid := "uid"
  ns := "default"
  name := "pod"
  resourceVersion := resourceVersion

/-- The update that came while the pod was served is dropped. -/
theorem hand_back_drops_update :
    let env : Env := ⟨0, .ofPodGroups [], .forward⟩
    let key : UnitKey := .singlePodUnit "default" "pod"
    let ops : List Op := [.add env (podVersion 1), .pop key,
      .update env (some (podVersion 1)) (podVersion 2) (by simp [podVersion])]
    let unit : UnitInfo := ⟨key, .singlePod 0, 0, 1⟩
    let q := run (step ⟨1, 10⟩) (new fun _ => .pendingStatus) ops
    ((run (step ⟨1, 10⟩) (new fun _ => .pendingStatus) (ops.take 1)).pop key).map Prod.fst =
        some unit ∧
      latest ops "uid" = some (podVersion 2) ∧
        (q.addUnitPreemptor env unit).podInBackoff key "uid" = some (podVersion 1) := by
  decide

end PriorityQueue

end GodelScheduler.BinderQueue
