import GodelScheduler.Binder.EmbeddedBinder

/-!
# Persisting a scheduling result through the embedded binder

Reserving a pod writes its node into the annotations of the cloned pod: a
suggested host, or a nominated node without victims, as the assumed node, and a
nominated node with victims as the nominated node. The cache finds the node of
an assumed pod under either annotation. The bind request is built from the
assumed node only, so the node of a preemptor is lost on the way to the binder.
`boundWhereAssumed_iff` says for which units every `Bind` call names the node
of the cache.
-/

namespace GodelScheduler.UnitScheduler

open Library Binder Binder.Embedded List

structure Nomination where
  nodeName : Option NodeName
  victimPods : VictimPods
  deriving DecidableEq

structure PodScheduleResult where
  suggestedHost : Option NodeName
  nominatedNode : Option Nomination
  deriving DecidableEq

/-- What `ReservePod` does to the cloned pod; whether the snapshot then takes the pod does not
matter for it. -/
def reservePod (clonedPod : Pod) (result : PodScheduleResult) : Pod :=
  let clonedPod := { clonedPod with podState := .assumed }
  match result.suggestedHost with
  | some host => { clonedPod with assumedNode := some host }
  | none =>
    match result.nominatedNode with
    | some nominated =>
      if nominated.victimPods = [] then { clonedPod with assumedNode := nominated.nodeName }
      else { clonedPod with nominatedNode := some (.parsed nominated.nodeName) }
    | none => clonedPod

/-- A dispatched pod with the schedule results it was reserved with since it was cloned, in order.
A pod the snapshot rejected is reserved again when it preempts. -/
structure RunningPod where
  queuedPod : Pod
  reservations : List PodScheduleResult

namespace RunningPod

variable (p : RunningPod)

/-- The clone starts as a deep copy of the queued pod. -/
def clonedPod : Pod := p.reservations.foldl reservePod p.queuedPod

/-- The node the cache assumes the cloned pod on. -/
def cacheNode : Option NodeName := p.clonedPod.getNodeNameFromPod

/-- The node name `persistViaEmbeddedBinder` takes from the cloned pod. -/
def requestedNode : Option NodeName :=
  match p.clonedPod.assumedNode with
  | some node => some node
  | none => p.clonedPod.nodeName

end RunningPod

/-- The pods of a successful unit result. The pods of a unit are kept by UID. -/
structure SuccessfulUnit where
  pods : List RunningPod
  nodup_uid : (pods.map fun p => p.queuedPod.uid).Nodup

section

variable (eb : EmbeddedBinder) (w : World) (o : RangeOrder String) (u : SuccessfulUnit)

def bindRequest : BindRequest where
  pods := u.pods.map RunningPod.queuedPod
  nodeNames := u.pods.foldl (fun nodeNames p =>
    nodeNames.insert p.queuedPod.uid p.requestedNode) ∅

/-- The calls of `Bind` and the cloned pods given to the reconciler. -/
def persistViaEmbeddedBinder : List BindCall × List Pod :=
  match bindUnit eb w o (bindRequest u) with
  | (calls, .error _) => (calls, u.pods.map RunningPod.clonedPod)
  | (calls, .ok result) =>
    (calls, (u.pods.filter fun p => (result.failedPods.lookup p.queuedPod.uid).isSome).map
      RunningPod.clonedPod)

/-- Every call for a pod names a node, the one the cache assumed the pod on. -/
def BoundWhereAssumed (calls : List BindCall) : Prop :=
  ∀ p ∈ u.pods, ∀ call ∈ calls, call.uid = p.queuedPod.uid →
    ∃ node, call.targetNode = some node ∧ p.cacheNode = some node

end

/-- The node a reservation writes as the assumed node, `none` if it leaves the annotation. -/
def PodScheduleResult.assumes (result : PodScheduleResult) : Option (Option NodeName) :=
  match result.suggestedHost, result.nominatedNode with
  | some host, _ => some (some host)
  | none, some nominated => if nominated.victimPods = [] then some nominated.nodeName else none
  | none, none => none

namespace RunningPod

variable (p : RunningPod)

/-- The node of the last reservation that was not a nomination with victims, or else the assumed
node the pod was queued with. -/
def lastAssumed : Option NodeName :=
  p.reservations.foldl (fun node result => result.assumes.getD node) p.queuedPod.assumedNode

/-- The node the pod was placed on without victims, or else the one it was bound to before. -/
def placedNode : Option NodeName := p.lastAssumed.or p.queuedPod.nodeName

/-- The pod was placed without victims, or bound before; if both, on one node. -/
def PlacedOnOneNode : Prop :=
  p.placedNode.isSome ∧
    ∀ node ∈ p.lastAssumed, ∀ node' ∈ p.queuedPod.nodeName, node' = node

theorem assumedNode_reservePod (pod : Pod) (result : PodScheduleResult) :
    (reservePod pod result).assumedNode = result.assumes.getD pod.assumedNode := by
  unfold reservePod PodScheduleResult.assumes
  cases result.suggestedHost with
  | some host => rfl
  | none =>
    cases result.nominatedNode with
    | none => rfl
    | some nominated =>
      dsimp only
      split_ifs <;> rfl

theorem nodeName_reservePod (pod : Pod) (result : PodScheduleResult) :
    (reservePod pod result).nodeName = pod.nodeName := by
  unfold reservePod
  cases result.suggestedHost with
  | some host => rfl
  | none =>
    cases result.nominatedNode with
    | none => rfl
    | some nominated =>
      dsimp only
      split_ifs <;> rfl

theorem assumedNode_clonedPod : p.clonedPod.assumedNode = p.lastAssumed := by
  unfold clonedPod lastAssumed
  exact (foldl_hom Pod.assumedNode fun pod result => (assumedNode_reservePod ..).symm).symm

theorem nodeName_clonedPod : p.clonedPod.nodeName = p.queuedPod.nodeName := by
  refine List.foldlRecOn (motive := fun pod : Pod => pod.nodeName = p.queuedPod.nodeName) _ _ rfl ?_
  intro pod hpod result _
  rw [nodeName_reservePod, hpod]

theorem requestedNode_eq : p.requestedNode = p.placedNode := by
  unfold requestedNode placedNode
  rw [assumedNode_clonedPod, nodeName_clonedPod]
  cases p.lastAssumed <;> rfl

/-- The request names the node of the cache exactly for a pod placed on one node: the cache looks
at the binding first and knows the nominated node too. -/
theorem placedOnOneNode_iff :
    p.PlacedOnOneNode ↔ ∃ node, p.requestedNode = some node ∧ p.cacheNode = some node := by
  rw [requestedNode_eq]
  unfold PlacedOnOneNode placedNode cacheNode Pod.getNodeNameFromPod
  rw [assumedNode_clonedPod, nodeName_clonedPod]
  cases p.lastAssumed <;> cases p.queuedPod.nodeName <;> simp

end RunningPod

section

variable {eb : EmbeddedBinder} {w : World} {o : RangeOrder String} {u : SuccessfulUnit}

variable {p : RunningPod}

theorem lookup_nodeNames (hp : p ∈ u.pods) :
    (bindRequest u).nodeNames.lookup p.queuedPod.uid = some p.requestedNode := by
  apply GoMap.lookup_foldl_insert hp
  intro p' hp' huid
  rw [inj_on_of_nodup_map u.nodup_uid hp' hp huid]

theorem exists_of_lookup_nodeNames {uid : String} {node : Option NodeName}
    (h : (bindRequest u).nodeNames.lookup uid = some node) :
    ∃ p ∈ u.pods, p.requestedNode = node := by
  rcases GoMap.exists_of_lookup_foldl_insert h with ⟨p, hp, -, hnode⟩ | hnone
  · exact ⟨p, hp, hnode⟩
  · cases hnone

theorem len_nodeNames_pos (hp : p ∈ u.pods) : 0 < (bindRequest u).nodeNames.len := by
  have hmem : p.queuedPod.uid ∈ (bindRequest u).nodeNames :=
    GoMap.mem_iff_lookup.mpr ⟨_, lookup_nodeNames hp⟩
  exact length_pos_of_mem (AList.mem_keys.mpr hmem)

theorem nodeNameFor_bindRequest (hp : p ∈ u.pods) :
    (bindRequest u).nodeNameFor p.queuedPod.uid = p.requestedNode := by
  rw [BindRequest.nodeNameFor, if_pos (len_nodeNames_pos hp), lookup_nodeNames hp]

theorem validate_bindRequest (hp : p ∈ u.pods) : (bindRequest u).validate = .ok () := by
  have hlen := len_nodeNames_pos hp
  have hpods : (bindRequest u).pods ≠ [] := ne_nil_of_mem (mem_map_of_mem hp)
  have hfind : ((bindRequest u).pods.find? fun pod =>
      ((bindRequest u).nodeNames.lookup pod.uid).isNone) = none := by
    rw [List.find?_eq_none]
    rintro pod hpod
    obtain ⟨p', hp', rfl⟩ := mem_map.mp hpod
    simp [lookup_nodeNames hp']
  rw [BindRequest.validate, if_neg hpods, if_neg (by simp [hlen.ne']), if_pos hlen, hfind]

theorem mem_uniqueNodeNames_bindRequest {node : Option NodeName} :
    node ∈ (bindRequest u).uniqueNodeNames o ↔ ∃ p ∈ u.pods, p.requestedNode = node := by
  constructor
  · intro h
    unfold BindRequest.uniqueNodeNames at h
    split_ifs at h with hlen hnode
    · rw [mem_eraseDups, mem_filterMap] at h
      obtain ⟨uid, -, hlookup⟩ := h
      exact exists_of_lookup_nodeNames hlookup
    · simp [bindRequest] at hnode
    · simp at h
  · rintro ⟨p, hp, rfl⟩
    rw [BindRequest.uniqueNodeNames, if_pos (len_nodeNames_pos hp), mem_eraseDups,
      mem_filterMap]
    have hlookup := lookup_nodeNames hp
    refine ⟨p.queuedPod.uid, ?_, hlookup⟩
    rw [RangeOrder.mem_list]
    exact AList.mem_keys.mpr (GoMap.mem_iff_lookup.mpr ⟨_, hlookup⟩)

/-- The validator, if there is one, accepts the node of each pod. -/
def Accepts (eb : EmbeddedBinder) (u : SuccessfulUnit) : Prop :=
  ∀ v, eb.nodeValidator = some v → ∀ p ∈ u.pods, v.validate p.placedNode = .ok ()

theorem refusedNode_bindRequest : refusedNode eb o (bindRequest u) = none ↔ Accepts eb u := by
  rw [refusedNode_eq_none_iff]
  refine forall₂_congr fun v _ => ⟨fun h p hp => ?_, fun h node hnode => ?_⟩
  · rw [← p.requestedNode_eq]
    exact h _ (mem_uniqueNodeNames_bindRequest.mpr ⟨p, hp, rfl⟩)
  · obtain ⟨p, hp, rfl⟩ := mem_uniqueNodeNames_bindRequest.mp hnode
    rw [p.requestedNode_eq]
    exact h p hp

theorem calls_persist :
    (persistViaEmbeddedBinder eb w o u).1 = (bindUnit eb w o (bindRequest u)).1 := by
  unfold persistViaEmbeddedBinder
  split <;> simp_all

/-- The calls of a unit: with the binder running and no node refused, each pod whose turn comes in
time is bound to the node it was placed on. -/
theorem mem_calls_persist {call : BindCall} :
    call ∈ (persistViaEmbeddedBinder eb w o u).1 ↔
      eb.running = true ∧ Accepts eb u ∧
        ∃ i p, u.pods[i]? = some p ∧ w.done i = false ∧
          call = binding p.queuedPod p.requestedNode := by
  rw [calls_persist, mem_calls_bindUnit, refusedNode_bindRequest]
  constructor
  · rintro ⟨hrunning, -, haccepts, i, pod, hget, hdone, rfl⟩
    obtain ⟨p, hp, rfl⟩ := List.getElem?_map ▸ hget |> Option.map_eq_some_iff.mp
    rw [nodeNameFor_bindRequest (mem_of_getElem? hp)]
    exact ⟨hrunning, haccepts, i, p, hp, hdone, rfl⟩
  · rintro ⟨hrunning, haccepts, i, p, hget, hdone, rfl⟩
    have hp := mem_of_getElem? hget
    refine ⟨hrunning, validate_bindRequest hp, haccepts, i, p.queuedPod, ?_, hdone, ?_⟩
    · rw [bindRequest, List.getElem?_map, hget]
      rfl
    · rw [nodeNameFor_bindRequest hp]

/-- Every `Bind` call of a unit names the node its pod was assumed on, unless a pod whose turn
comes was placed only by preemption, or on another node than it is bound to, and the request gets
as far as that. -/
theorem boundWhereAssumed_iff (eb : EmbeddedBinder) (w : World) (o : RangeOrder String)
    (u : SuccessfulUnit) :
    BoundWhereAssumed u (persistViaEmbeddedBinder eb w o u).1 ↔
      (eb.running = true → Accepts eb u →
        ∀ i p, u.pods[i]? = some p → w.done i = false → p.PlacedOnOneNode) := by
  constructor
  · intro h hrunning haccepts i p hget hdone
    have hcall : binding p.queuedPod p.requestedNode ∈ (persistViaEmbeddedBinder eb w o u).1 :=
      mem_calls_persist.mpr ⟨hrunning, haccepts, i, p, hget, hdone, rfl⟩
    rw [RunningPod.placedOnOneNode_iff]
    exact h p (mem_of_getElem? hget) _ hcall rfl
  · intro h p hp call hcall huid
    obtain ⟨hrunning, haccepts, i, p', hget, hdone, rfl⟩ := mem_calls_persist.mp hcall
    obtain rfl : p' = p :=
      inj_on_of_nodup_map u.nodup_uid (mem_of_getElem? hget) hp huid
    exact p'.placedOnOneNode_iff.mp (h hrunning haccepts i p' hget hdone)

end

def preemptor : RunningPod where
  queuedPod.uid := "preemptor-uid"
  queuedPod.ns := "default"
  queuedPod.name := "preemptor"
  reservations :=
    [⟨none, some ⟨some (nodeNamed ""), [⟨"default", "victim", "victim-uid"⟩]⟩⟩]

/-- The only call for the preemptor names no node, while the cache has it on its node. -/
theorem preemptor_bound_nowhere :
    let eb : EmbeddedBinder := ⟨true, none, 3⟩
    let w : World := ⟨fun _ => false, fun _ _ => .bound, fun _ _ => false, ""⟩
    let u : SuccessfulUnit := ⟨[preemptor], by decide⟩
    (persistViaEmbeddedBinder eb w .forward u).1 =
        [⟨"default", "preemptor", "preemptor-uid", none⟩] ∧
      preemptor.cacheNode = some (nodeNamed "") ∧
      ¬ BoundWhereAssumed u (persistViaEmbeddedBinder eb w .forward u).1 := by
  refine ⟨by decide, by decide, fun h => ?_⟩
  obtain ⟨node, hnode, -⟩ := h preemptor mem_cons_self
    ⟨"default", "preemptor", "preemptor-uid", none⟩ (by decide) rfl
  cases hnode

end GodelScheduler.UnitScheduler
