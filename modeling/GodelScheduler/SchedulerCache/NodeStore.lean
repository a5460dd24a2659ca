import GodelScheduler.Framework.NodeInfo

/-!
# The node store of the scheduler cache

Node, NMNode, CNR and pod events on the cache's node store. A node info whose
Node and NMNode are both missing is residual: it is kept while it has pods or a
CNR. Metrics hooks are left out, so `add` and `delete` are the plain writes.

`Writes` says once what an event can do to the underlying store: a sequence of
sets of node infos under their own name, and of deletes. Every event is such a
sequence (`CacheOp.apply_writes`), and later invariants are derived from that.
-/

namespace GodelScheduler.SchedulerCache

open Library GenerationStore NodeInfo

/-- The settings a store reads from its cache handler. -/
structure Handler where
  componentName : String := ""
  schedulerType : String := ""
  subCluster : String := ""

structure ImageState where
  size : ℤ
  nodes : GoSet NodeName

structure CachePodInfo where
  pod : Pod
  victims : List Pod := []

structure NodeStore where
  store : ListStore NodeName NodeInfo
  /-- Nodes that are deleted but still have residual pods, or whose pods came first. -/
  deleted : GoSet NodeName
  imageStates : GoMap String ImageState

variable (s : NodeStore) (handler : Handler) (nodeName : NodeName) (node : Node)

namespace NodeStore

abbrev Result := NodeStore × Except String Unit

def new : NodeStore := ⟨.new, ∅, ∅⟩

def get (s : NodeStore) (nodeName : NodeName) : Option NodeInfo := s.store.get nodeName

def set (s : NodeStore) (nodeName : NodeName) (nodeInfo : NodeInfo) : NodeStore :=
  { s with store := s.store.set nodeName nodeInfo }

def add (nodeInfo : NodeInfo) : NodeStore :=
  { s with store := s.store.set nodeName nodeInfo }

def delete (s : NodeStore) (nodeName : NodeName) : NodeStore :=
  { s with store := s.store.delete nodeName }

def notFound : String := "node " ++ nodeName.val ++ " is not found"

def addNodeImage (acc : GoMap String ImageState × GoMap String ImageStateSummary)
    (image : String × ℤ) : GoMap String ImageState × GoMap String ImageStateSummary :=
  let state : ImageState :=
    match acc.1.lookup image.1 with
    | none => ⟨image.2, (∅ : GoSet NodeName).insert node.name ()⟩
    | some state => { state with nodes := state.nodes.insert node.name () }
  let newSum := if image.1 ∈ acc.2 then acc.2
    else acc.2.insert image.1 ⟨state.size, state.nodes.len⟩
  (acc.1.insert image.1 state, newSum)

def imageNames : List (String × ℤ) :=
  node.images.flatMap fun image => image.names.map fun name => (name, image.sizeBytes)

def addNodeImageStates (nodeInfo : NodeInfo) : NodeStore × NodeInfo :=
  let (imageStates, newSum) := (imageNames node).foldl (addNodeImage node) (s.imageStates, ∅)
  ({ s with imageStates }, { nodeInfo with imageStates := newSum })

def removeNodeImage (states : GoMap String ImageState) (image : String × ℤ) :
    GoMap String ImageState :=
  match states.lookup image.1 with
  | none => states
  | some state =>
    let nodes := state.nodes.erase node.name
    if GoMap.len nodes = 0 then states.erase image.1 else states.insert image.1 { state with nodes }

def removeNodeImageStates (node : Option Node) : NodeStore :=
  match node with
  | none => s
  | some node =>
    { s with imageStates := (imageNames node).foldl (removeNodeImage node) s.imageStates }

/-- The body that `AddNode` and `UpdateNode` share. -/
def putNode : Result :=
  let (s, nodeInfo) : NodeStore × NodeInfo :=
    match s.get node.name with
    | some nodeInfo =>
      let s := s.removeNodeImageStates nodeInfo.node
      let s := { s with deleted := s.deleted.erase node.name }
      (s.delete node.name, nodeInfo)
    | none => (s, NodeInfo.new)
  let (s, nodeInfo) := s.addNodeImageStates node nodeInfo
  let nodeInfo := nodeInfo.setNodeInSchedulerPartition
    (nodeOfThisScheduler node.scheduler handler.componentName)
  (s.add node.name (nodeInfo.setNode node), .ok ())

def addNode : Result := s.putNode handler node

def updateNode (_oldNode newNode : Node) : Result :=
  s.putNode handler newNode

/-- The body that `AddNMNode` and `UpdateNMNode` share. -/
def putNMNode (nmNode : NMNode) : Result :=
  let (s, nodeInfo) : NodeStore × NodeInfo :=
    match s.get nmNode.name with
    | some nodeInfo =>
      let s := { s with deleted := s.deleted.erase nmNode.name }
      (s.delete nmNode.name, nodeInfo)
    | none => (s, NodeInfo.new)
  let nodeInfo := nodeInfo.setNMNodeInSchedulerPartition
    (nodeOfThisScheduler nmNode.scheduler handler.componentName)
  (s.add nmNode.name (nodeInfo.setNMNode nmNode), .ok ())

def addNMNode (nmNode : NMNode) : Result :=
  s.putNMNode handler nmNode

def updateNMNode (_oldNMNode newNMNode : NMNode) : Result :=
  s.putNMNode handler newNMNode

/-- The body that `AddCNR` and `UpdateCNR` share. -/
def putCNR (cnr : CustomNodeResource) : Result :=
  let nodeInfo := (s.get cnr.name).getD NodeInfo.new
  (s.set cnr.name (nodeInfo.setCNR cnr), .ok ())

def addCNR (cnr : CustomNodeResource) : Result := s.putCNR cnr

def updateCNR (_oldCNR newCNR : CustomNodeResource) : Result := s.putCNR newCNR

def deleteNode : Result :=
  match s.get node.name with
  | none => (s, .error (notFound node.name))
  | some nodeInfo =>
    let s := s.delete node.name
    let nodeInfo := nodeInfo.removeNode
    let s := s.removeNodeImageStates (some node)
    if nodeInfo.nmNode.isSome then (s.add node.name nodeInfo, .ok ())
    else if nodeInfo.numPods ≠ 0 ∨ nodeInfo.cnr.isSome then
      ({ s with deleted := s.deleted.insert node.name () }.set node.name nodeInfo, .ok ())
    else (s, .ok ())

def deleteNMNode (nmNode : NMNode) : Result :=
  match s.get nmNode.name with
  | none => (s, .error (notFound nmNode.name))
  | some nodeInfo =>
    let s := s.delete nmNode.name
    let nodeInfo := nodeInfo.removeNMNode
    if nodeInfo.node.isSome then (s.add nmNode.name nodeInfo, .ok ())
    else if nodeInfo.numPods ≠ 0 ∨ nodeInfo.cnr.isSome then
      ({ s with deleted := s.deleted.insert nmNode.name () }.set nmNode.name nodeInfo, .ok ())
    else (s, .ok ())

/-- Drop a residual node info without pods, store any other one. -/
def dropOrSet (nodeInfo : NodeInfo) : NodeStore :=
  if nodeInfo.numPods = 0 ∧ nodeInfo.objectIsNil then
    { s with deleted := s.deleted.erase nodeName, store := s.store.delete nodeName }
  else s.set nodeName nodeInfo

def deleteCNR (cnr : CustomNodeResource) : Result :=
  match s.get cnr.name with
  | none => (s, .error (notFound cnr.name))
  | some nodeInfo => (s.dropOrSet cnr.name nodeInfo.removeCNR, .ok ())

/-- `getOrCreateNode` followed by the caller's update of the node info it returns. -/
def getOrCreateNode (update : NodeInfo → NodeInfo) : NodeStore :=
  match s.store.get nodeName with
  | some nodeInfo => { s with store := s.store.set nodeName (update nodeInfo) }
  | none =>
    { s with
      deleted := s.deleted.insert nodeName ()
      store := s.store.set nodeName (update NodeInfo.new) }

def addPod (s : NodeStore) (handler : Handler) (pod : Pod) : Result :=
  if !pod.boundPod && !pod.assumedPodOfGodel handler.schedulerType then (s, .ok ())
  else
    match pod.getNodeNameFromPod with
    | none => (s, .ok ())
    | some nodeName => (s.getOrCreateNode nodeName fun n => n.addPod pod, .ok ())

def deletePod (pod : Pod) : Result :=
  if !pod.boundPod && !pod.assumedPodOfGodel handler.schedulerType then (s, .ok ())
  else
    match pod.getNodeNameFromPod with
    | none => (s, .ok ())
    | some nodeName =>
      match s.get nodeName with
      | none => (s, .ok ())
      | some nodeInfo =>
        match nodeInfo.removePod pod with
        | .error e => (s, .error e)
        | .ok nodeInfo => (s.dropOrSet nodeName nodeInfo, .ok ())

/-- `cached` is the pod the cache's pod store holds for the UID of the old pod. -/
def updatePod (cached : Option Pod) (oldPod newPod : Pod) : Result :=
  match oldPod.getPodKey with
  | .error e => (s, .error e)
  | .ok _ =>
    match cached with
    | none => s.addPod handler newPod
    | some pod =>
      match s.deletePod handler pod with
      | (s, .error e) => (s, .error e)
      | (s, .ok _) => s.addPod handler newPod

def assumePod (podInfo : CachePodInfo) : Result :=
  match podInfo.pod.getNodeNameFromPod with
  | none => (s, .ok ())
  | some nodeName => (s.getOrCreateNode nodeName fun n => n.addPod podInfo.pod, .ok ())

def forgetPod (podInfo : CachePodInfo) : Result :=
  match podInfo.pod.getNodeNameFromPod with
  | none => (s, .ok ())
  | some nodeName =>
    match s.get nodeName with
    | none => (s, .ok ())
    | some nodeInfo =>
      match nodeInfo.removePod podInfo.pod with
      | .error e => (s, .error e)
      | .ok nodeInfo => (s.dropOrSet nodeName nodeInfo, .ok ())

/-- The body that `SetNodeInPartition` and `SetNodeOutOfPartition` share. -/
def setPartition (flag : Bool) : Result :=
  match s.get nodeName with
  | none => (s, .error (notFound nodeName))
  | some nodeInfo =>
    ((s.delete nodeName).add nodeName (nodeInfo.setNodePartition flag), .ok ())

def setNodeInPartition : Result := s.setPartition nodeName true

def setNodeOutOfPartition : Result :=
  s.setPartition nodeName false

end NodeStore

/-- Sets of node infos under their own name, and deletes. -/
inductive Writes (s : ListStore NodeName NodeInfo) : ListStore NodeName NodeInfo → Prop
  | refl : Writes s s
  | set {s' : ListStore NodeName NodeInfo} {k : NodeName} {n : NodeInfo} :
    Writes s s' → n.Named k → Writes s (s'.set k n)
  | delete {s' : ListStore NodeName NodeInfo} {k : NodeName} :
    Writes s s' → Writes s (s'.delete k)

/-- Every stored node info carries the name it is stored under. -/
def AllNamed (s : ListStore NodeName NodeInfo) : Prop :=
  ∀ k n, s.get k = some n → n.Named k

theorem allNamed_new : AllNamed ListStore.new := by
  intro k n hn
  simp at hn

theorem Writes.allNamed {s s' : ListStore NodeName NodeInfo} (h : Writes s s') (hs : AllNamed s) :
    AllNamed s' := by
  induction h with
  | refl => exact hs
  | @set s' k n _ hn ih =>
    intro a m hm
    rw [ListStore.get_set] at hm
    split_ifs at hm with ha
    · subst ha
      rw [← Option.some.inj hm]
      exact ⟨hn.node, hn.nmNode⟩
    · exact ih a m hm
  | @delete s' k _ ih =>
    intro a m hm
    rw [ListStore.get_delete] at hm
    split_ifs at hm with ha
    exact ih a m hm

theorem Writes.trans {s s' s'' : ListStore NodeName NodeInfo} (h : Writes s s')
    (h' : Writes s' s'') : Writes s s'' := by
  induction h' with
  | refl => exact h
  | set _ hn ih => exact ih.set hn
  | delete _ ih => exact ih.delete

namespace NodeStore

variable {s : NodeStore}

theorem store_removeNodeImageStates (s : NodeStore) (node : Option Node) :
    (s.removeNodeImageStates node).store = s.store := by
  cases node <;> rfl

section

/-- The node info of a name, a new one if there is none. -/
def current (s : NodeStore) (k : NodeName) : NodeInfo := (s.get k).getD .new

/-- A node info is stored under a name, after it was perhaps deleted there. One without pods and
objects may be left out. -/
inductive Stores (s : NodeStore) (k : NodeName) (n : NodeInfo) : ListStore NodeName NodeInfo → Prop
  | set : Stores s k n (s.store.set k n)
  | replace : Stores s k n ((s.store.delete k).set k n)
  | drop : n.numPods = 0 → n.objects = .empty → Stores s k n (s.store.delete k)
  | absent : s.get k = none → n.numPods = 0 → n.objects = .empty → Stores s k n s.store

/-- What a Node, NMNode or CNR event does: the pods of a node info stay and its objects change by
`f`, which brings in objects of the name only. -/
structure NodeEvent (s : NodeStore) (k : NodeName) (f : NodeObjects → NodeObjects)
    (s' : NodeStore) : Prop where
  stores : ∃ n, Stores s k n s'.store ∧
    n.podInfoMaintainer = (s.current k).podInfoMaintainer ∧ n.objects = f (s.current k).objects
  node : ∀ o x, (f o).node = some x → x.name = k ∨ o.node = some x
  nmNode : ∀ o x, (f o).nmNode = some x → x.name = k ∨ o.nmNode = some x

variable (s)

theorem nodeEvent_putNode (handler : Handler) (node : Node) :
    NodeEvent s node.name (fun o => o.withNode (some node)) (s.putNode handler node).1 := by
  refine ⟨?_, by simp +contextual [NodeObjects.withNode], fun _ _ => .inr⟩
  unfold putNode current
  cases s.get node.name with
  | none => exact ⟨_, .set, rfl, rfl⟩
  | some n =>
    simp only [addNodeImageStates, add, delete, store_removeNodeImageStates]
    exact ⟨_, .replace, rfl, rfl⟩

theorem nodeEvent_putNMNode (handler : Handler) (nmNode : NMNode) :
    NodeEvent s nmNode.name (fun o => o.withNMNode (some nmNode))
      (s.putNMNode handler nmNode).1 := by
  refine ⟨?_, fun _ _ => .inr, by simp +contextual [NodeObjects.withNMNode]⟩
  unfold putNMNode current
  cases s.get nmNode.name with
  | none => exact ⟨_, .set, rfl, rfl⟩
  | some n => exact ⟨_, .replace, rfl, rfl⟩

theorem nodeEvent_putCNR (cnr : CustomNodeResource) :
    NodeEvent s cnr.name (fun o => o.withCNR (some cnr)) (s.putCNR cnr).1 :=
  ⟨⟨_, .set, rfl, rfl⟩, fun _ _ => .inr, fun _ _ => .inr⟩

theorem nodeEvent_deleteNode (node : Node) :
    NodeEvent s node.name (fun o => o.withNode none) (s.deleteNode node).1 := by
  refine ⟨?_, by simp [NodeObjects.withNode], fun _ _ => .inr⟩
  unfold deleteNode current
  cases hget : s.get node.name with
  | none => exact ⟨.new, .absent hget rfl rfl, rfl, rfl⟩
  | some n =>
    dsimp only
    split_ifs with hnm hrest
    · exact ⟨n.removeNode, .replace, rfl, rfl⟩
    · exact ⟨n.removeNode, .replace, rfl, rfl⟩
    · -- nothing is left, so the node info stays deleted
      rw [not_or, not_not] at hrest
      refine ⟨n.removeNode, .drop hrest.1 ?_, rfl, rfl⟩
      simp_all [objects, NodeObjects.empty, removeNode]

theorem nodeEvent_deleteNMNode (nmNode : NMNode) :
    NodeEvent s nmNode.name (fun o => o.withNMNode none) (s.deleteNMNode nmNode).1 := by
  refine ⟨?_, fun _ _ => .inr, by simp [NodeObjects.withNMNode]⟩
  unfold deleteNMNode current
  cases hget : s.get nmNode.name with
  | none => exact ⟨.new, .absent hget rfl rfl, rfl, rfl⟩
  | some n =>
    dsimp only
    split_ifs with hnode hrest
    · exact ⟨n.removeNMNode, .replace, rfl, rfl⟩
    · exact ⟨n.removeNMNode, .replace, rfl, rfl⟩
    · rw [not_or, not_not] at hrest
      refine ⟨n.removeNMNode, .drop hrest.1 ?_, rfl, rfl⟩
      simp_all [objects, NodeObjects.empty, removeNMNode]

theorem nodeEvent_deleteCNR (cnr : CustomNodeResource) :
    NodeEvent s cnr.name (fun o => o.withCNR none) (s.deleteCNR cnr).1 := by
  refine ⟨?_, fun _ _ => .inr, fun _ _ => .inr⟩
  unfold deleteCNR current
  cases hget : s.get cnr.name with
  | none => exact ⟨.new, .absent hget rfl rfl, rfl, rfl⟩
  | some n =>
    dsimp only [dropOrSet]
    split_ifs with hdrop
    · refine ⟨n.removeCNR, .drop hdrop.1 ?_, rfl, rfl⟩
      simpa [objectIsNil, objects, NodeObjects.empty, removeCNR, and_comm] using hdrop.2
    · exact ⟨n.removeCNR, .set, rfl, rfl⟩

theorem nodeEvent_setPartition (k : NodeName) (flag : Bool) :
    NodeEvent s k id (s.setPartition k flag).1 := by
  refine ⟨?_, fun _ _ => .inr, fun _ _ => .inr⟩
  unfold setPartition current
  cases hget : s.get k with
  | none => exact ⟨.new, .absent hget rfl rfl, rfl, rfl⟩
  | some n => exact ⟨_, .replace, rfl, rfl⟩

variable {s} {s' : NodeStore} {k : NodeName} {f : NodeObjects → NodeObjects}

theorem NodeEvent.writes (h : NodeEvent s k f s') (hs : AllNamed s.store) :
    Writes s.store s'.store := by
  obtain ⟨n, hstores, -, hobjects⟩ := h.stores
  have hcurrent : (s.current k).Named k := by
    unfold current
    cases hget : s.get k with
    | none => exact named_new k
    | some n => exact hs k n hget
  have hn : n.Named k :=
    ⟨fun x hx => (h.node _ x ((congrArg NodeObjects.node hobjects).symm.trans hx)).elim id
        (hcurrent.node x),
      fun x hx => (h.nmNode _ x ((congrArg NodeObjects.nmNode hobjects).symm.trans hx)).elim id
        (hcurrent.nmNode x)⟩
  generalize s'.store = st at hstores ⊢
  cases hstores with
  | set => exact Writes.refl.set hn
  | replace => exact Writes.refl.delete.set hn
  | drop => exact Writes.refl.delete
  | absent => exact Writes.refl

end

section

/-- The pod is put into the node info of its node. -/
def addTo (s : NodeStore) (nodeName : NodeName) (pod : Pod) : NodeStore :=
  s.getOrCreateNode nodeName fun n => n.addPod pod

/-- The pod of this UID is taken from the node info, if it is there. -/
def removeFrom (s : NodeStore) (nodeName : NodeName) (pod : Pod) : Result :=
  match s.get nodeName with
  | none => (s, .ok ())
  | some nodeInfo =>
    match nodeInfo.removePod pod with
    | .error e => (s, .error e)
    | .ok nodeInfo => (s.dropOrSet nodeName nodeInfo, .ok ())

variable {P : NodeStore → Prop} {handler : Handler} {pod : Pod} {podInfo : CachePodInfo}

/-- A pod event does nothing, or it adds the pod to a node or removes it from one. -/
theorem of_addPod (hs : P s) (hadd : ∀ nodeName, P (s.addTo nodeName pod)) :
    P (s.addPod handler pod).1 := by
  unfold addPod
  split
  · exact hs
  · split
    · exact hs
    · exact hadd _

theorem of_assumePod (hs : P s) (hadd : ∀ nodeName, P (s.addTo nodeName podInfo.pod)) :
    P (s.assumePod podInfo).1 := by
  unfold assumePod
  split
  · exact hs
  · exact hadd _

theorem of_deletePod (hs : P s) (hremove : ∀ nodeName, P (s.removeFrom nodeName pod).1) :
    P (s.deletePod handler pod).1 := by
  unfold deletePod
  split
  · exact hs
  · split
    · exact hs
    · exact hremove _

theorem of_forgetPod (hs : P s) (hremove : ∀ nodeName, P (s.removeFrom nodeName podInfo.pod).1) :
    P (s.forgetPod podInfo).1 := by
  unfold forgetPod
  split
  · exact hs
  · exact hremove _

theorem of_updatePod {cached : Option Pod} {oldPod newPod : Pod} (hs : P s)
    (hdelete : ∀ pod, P (s.deletePod handler pod).1)
    (hadd : ∀ s', P s' → P (s'.addPod handler newPod).1) :
    P (s.updatePod handler cached oldPod newPod).1 := by
  unfold updatePod
  split
  · exact hs
  · split
    · exact hadd s hs
    · next pod =>
      have hdelete := hdelete pod
      split
      · next s' e heq =>
        rw [heq] at hdelete
        exact hdelete
      · next s' _ heq =>
        rw [heq] at hdelete
        exact hadd s' hdelete

variable (h : AllNamed s.store) (k : NodeName) (pod : Pod)
include h

theorem writes_addTo : Writes s.store (s.addTo k pod).store := by
  unfold addTo getOrCreateNode
  split
  · next n hn => exact Writes.refl.set ((n.sameObjects_addPod pod).named (h k n hn))
  · exact Writes.refl.set ((sameObjects_addPod _ pod).named (named_new k))

/-- The node info a pod was removed from goes back under its name or is dropped. -/
theorem writes_removeFrom : Writes s.store (s.removeFrom k pod).1.store := by
  unfold removeFrom
  split
  · exact Writes.refl
  · next n hget =>
    split
    · exact Writes.refl
    · next m hm =>
      unfold dropOrSet
      split
      · exact Writes.refl.delete
      · exact Writes.refl.set ((sameObjects_removePod hm).named (h k n hget))

end

end NodeStore

/-- An event of the cache's node store. -/
inductive CacheOp
  | addNode (node : Node)
  | updateNode (oldNode newNode : Node)
  | deleteNode (node : Node)
  | addNMNode (nmNode : NMNode)
  | updateNMNode (oldNMNode newNMNode : NMNode)
  | deleteNMNode (nmNode : NMNode)
  | addCNR (cnr : CustomNodeResource)
  | updateCNR (oldCNR newCNR : CustomNodeResource)
  | deleteCNR (cnr : CustomNodeResource)
  | addPod (pod : Pod)
  | updatePod (cached : Option Pod) (oldPod newPod : Pod)
  | deletePod (pod : Pod)
  | assumePod (podInfo : CachePodInfo)
  | forgetPod (podInfo : CachePodInfo)
  | setNodeInPartition (nodeName : NodeName)
  | setNodeOutOfPartition (nodeName : NodeName)

def CacheOp.apply (s : NodeStore) : CacheOp → NodeStore.Result
  | addNode node => s.addNode handler node
  | updateNode oldNode newNode => s.updateNode handler oldNode newNode
  | deleteNode node => s.deleteNode node
  | addNMNode nmNode => s.addNMNode handler nmNode
  | updateNMNode oldNMNode newNMNode => s.updateNMNode handler oldNMNode newNMNode
  | deleteNMNode nmNode => s.deleteNMNode nmNode
  | addCNR cnr => s.addCNR cnr
  | updateCNR oldCNR newCNR => s.updateCNR oldCNR newCNR
  | deleteCNR cnr => s.deleteCNR cnr
  | addPod pod => s.addPod handler pod
  | updatePod cached oldPod newPod => s.updatePod handler cached oldPod newPod
  | deletePod pod => s.deletePod handler pod
  | assumePod podInfo => s.assumePod podInfo
  | forgetPod podInfo => s.forgetPod podInfo
  | setNodeInPartition nodeName => s.setNodeInPartition nodeName
  | setNodeOutOfPartition nodeName => s.setNodeOutOfPartition nodeName

def CacheOp.isNodeEvent : CacheOp → Bool
  | addPod _ | updatePod _ _ _ | deletePod _ | assumePod _ | forgetPod _ => false
  | _ => true

/-- Every event of a Node, an NMNode or a CNR is of this form. -/
theorem CacheOp.exists_nodeEvent (s : NodeStore) {op : CacheOp}
    (hop : op.isNodeEvent = true) : ∃ k f, s.NodeEvent k f (op.apply handler s).1 := by
  cases op with
  | addNode node => exact ⟨_, _, s.nodeEvent_putNode handler node⟩
  | updateNode _ newNode => exact ⟨_, _, s.nodeEvent_putNode handler newNode⟩
  | deleteNode node => exact ⟨_, _, s.nodeEvent_deleteNode node⟩
  | addNMNode nmNode => exact ⟨_, _, s.nodeEvent_putNMNode handler nmNode⟩
  | updateNMNode _ newNMNode => exact ⟨_, _, s.nodeEvent_putNMNode handler newNMNode⟩
  | deleteNMNode nmNode => exact ⟨_, _, s.nodeEvent_deleteNMNode nmNode⟩
  | addCNR cnr => exact ⟨_, _, s.nodeEvent_putCNR cnr⟩
  | updateCNR _ newCNR => exact ⟨_, _, s.nodeEvent_putCNR newCNR⟩
  | deleteCNR cnr => exact ⟨_, _, s.nodeEvent_deleteCNR cnr⟩
  | setNodeInPartition k => exact ⟨_, _, s.nodeEvent_setPartition k true⟩
  | setNodeOutOfPartition k => exact ⟨_, _, s.nodeEvent_setPartition k false⟩
  | _ => cases hop

open NodeStore in
/-- Whatever an event does, failed events included, it writes the store this way. -/
theorem CacheOp.apply_writes (handler : Handler) {s : NodeStore} (h : AllNamed s.store)
    (op : CacheOp) : Writes s.store (op.apply handler s).1.store := by
  let P : NodeStore → Prop := fun s' => Writes s.store s'.store
  have hadd : ∀ s' pod, P s' → ∀ nodeName, P (s'.addTo nodeName pod) :=
    fun s' pod hs' k => Writes.trans hs' (writes_addTo (hs'.allNamed h) k pod)
  have hremove : ∀ pod nodeName, P (s.removeFrom nodeName pod).1 :=
    fun pod k => writes_removeFrom h k pod
  have hs : P s := Writes.refl
  cases hop : op.isNodeEvent with
  | true =>
    obtain ⟨k, f, hevent⟩ := exists_nodeEvent handler s hop
    exact hevent.writes h
  | false =>
    cases op with
    | addPod pod => exact of_addPod hs (hadd s pod hs)
    | updatePod cached oldPod newPod =>
      exact of_updatePod hs (fun pod => of_deletePod hs (hremove pod))
        fun s' hs' => of_addPod hs' (hadd s' newPod hs')
    | deletePod pod => exact of_deletePod hs (hremove pod)
    | assumePod podInfo => exact of_assumePod hs (hadd s podInfo.pod hs)
    | forgetPod podInfo => exact of_forgetPod hs (hremove podInfo.pod)
    | _ => cases hop

end GodelScheduler.SchedulerCache
