import GodelScheduler.GenerationStore.Refresh

/-!
# The preemption store

For each node, the preemptors of each victim. The cache keeps a list store of
nodes whose objects hold a list store of victims; the snapshot has raw stores in
both places, and its refresh clones the nodes that are newer than it and within
each of them the victims that are newer than its copy of the node.

`cleanUpResidualPreemptionItems` writes to the sets of preemptors themselves: a
victim or a node that becomes empty is deleted, but what remains is not set
again, so its generation stays.
-/

namespace GodelScheduler.SchedulerCache

open Library GenerationStore

structure GenerationStringSet where
  set : GoSet String
  generation : ℤ

namespace GenerationStringSet

instance : StoredObj GenerationStringSet where
  getGeneration s := s.generation
  setGeneration g s := { s with generation := g }
  getGeneration_setGeneration _ _ := rfl

def new : GenerationStringSet := ⟨∅, 0⟩

def insert (s : GenerationStringSet) (string : String) : GenerationStringSet :=
  { s with set := s.set.insert string () }

def delete (s : GenerationStringSet) (string : String) : GenerationStringSet :=
  { s with set := s.set.erase string }

def len (s : GenerationStringSet) : ℕ := s.set.len

/-- `existing.Reset(store)`: the content and the generation of the argument. -/
def reset (store : GenerationStringSet) : GenerationStringSet := ⟨store.set, store.generation⟩

def strings (s : GenerationStringSet) (o : RangeOrder String) : List String := o.list s.set.keys

end GenerationStringSet

/-- What the pod lister says about a namespace and a name. -/
inductive ListerAnswer
  | found (uid : String)
  | notFound
  | failed
  deriving DecidableEq

/-- A pod lister and the parser of pod keys. -/
structure PodLister where
  parsePodKey : String → Option (String × String × String)
  pods : String → String → ListerAnswer

variable (podLister : PodLister)

/-- Whether the clean-up deletes a preemptor. -/
def PodLister.residual (preemptorKey : String) : Bool :=
  match podLister.parsePodKey preemptorKey with
  | none => false
  | some (ns, name, uid) =>
    match podLister.pods ns name with
    | .found preemptorUID => preemptorUID != uid
    | .notFound => true
    | .failed => false

/-- The orders of the three nested loops of the clean-up. -/
structure CleanUpOrders where
  nodes : RangeOrder String
  victims : String → RangeOrder String
  preemptors : String → String → RangeOrder String

/-- The loop over the preemptors of one victim. -/
def GenerationStringSet.cleanUp (o : RangeOrder String)
    (s : GenerationStringSet) : GenerationStringSet :=
  (s.strings o).foldl
    (fun s preemptorKey => if podLister.residual preemptorKey then s.delete preemptorKey else s) s

theorem GenerationStringSet.generation_cleanUp (o : RangeOrder String)
    (s : GenerationStringSet) : getGeneration (s.cleanUp podLister o) = getGeneration s := by
  unfold cleanUp
  apply List.foldlRecOn (motive := fun s' => getGeneration s' = getGeneration s) _ _ rfl
  intro s' hs' preemptorKey _
  split_ifs
  · exact hs'
  · exact hs'

structure PreemptionDetailForNode where
  victimToPreemptors : ListStore String GenerationStringSet
  generation : ℤ

namespace PreemptionDetailForNode

instance : StoredObj PreemptionDetailForNode where
  getGeneration item := item.generation
  setGeneration g item := { item with generation := g }
  getGeneration_setGeneration _ _ := rfl

def new : PreemptionDetailForNode := ⟨.new, 0⟩

section

variable (item : PreemptionDetailForNode)

def addPreemptItem (victimKey preemptorKey : String) : PreemptionDetailForNode :=
  let s := (item.victimToPreemptors.get victimKey).getD .new
  { item with
    victimToPreemptors := item.victimToPreemptors.set victimKey (s.insert preemptorKey) }

def removePreemptItem (victimKey preemptorKey : String) : PreemptionDetailForNode :=
  match item.victimToPreemptors.get victimKey with
  | none => item
  | some s =>
    let s := s.delete preemptorKey
    if s.len = 0 then
      { item with victimToPreemptors := item.victimToPreemptors.delete victimKey }
    else { item with victimToPreemptors := item.victimToPreemptors.set victimKey s }

def isEmpty : Bool := item.victimToPreemptors.len == 0

end

/-- Each set of preemptors is cleaned in place, and a victim without preemptors is deleted. -/
def cleanUpResidualPreemptionItems (victims : RangeOrder String)
    (preemptors : String → RangeOrder String) (item : PreemptionDetailForNode) :
    PreemptionDetailForNode :=
  { item with
    victimToPreemptors := item.victimToPreemptors.sweep victims
      (fun victimKey s => s.cleanUp podLister (preemptors victimKey))
      (fun victimKey s => s.generation_cleanUp podLister (preemptors victimKey))
      fun s => s.len == 0 }

theorem generation_cleanUp (victims : RangeOrder String)
    (preemptors : String → RangeOrder String) (item : PreemptionDetailForNode) :
    getGeneration (item.cleanUpResidualPreemptionItems podLister victims preemptors) =
      getGeneration item := rfl

end PreemptionDetailForNode

structure SnapshotDetailForNode where
  victimToPreemptors : RawStoreImpl String GenerationStringSet
  generation : ℤ

def SnapshotDetailForNode.new : SnapshotDetailForNode := ⟨.new, 0⟩

/-- `GetPreemptorsByVictim` for either kind of store, given its lookups. -/
def getPreemptorsByVictim {W : Type*} (nodeToVictims : String → Option W)
    (victimToPreemptors : W → String → Option GenerationStringSet) (o : RangeOrder String)
    (node victim : String) : List String :=
  match nodeToVictims node with
  | none => []
  | some detailForNode =>
    match victimToPreemptors detailForNode victim with
    | none => []
    | some s => s.strings o

structure PreemptionDetails where
  nodeToVictims : ListStore String PreemptionDetailForNode

namespace PreemptionDetails

def new : PreemptionDetails := ⟨.new⟩

def addPreemptItem (pDetail : PreemptionDetails) (nodeName victimKey preemptorKey : String) :
    PreemptionDetails :=
  let detailForNode := (pDetail.nodeToVictims.get nodeName).getD .new
  ⟨pDetail.nodeToVictims.set nodeName (detailForNode.addPreemptItem victimKey preemptorKey)⟩

def removePreemptItem (pDetail : PreemptionDetails) (nodeName victimKey preemptorKey : String) :
    PreemptionDetails :=
  match pDetail.nodeToVictims.get nodeName with
  | none => pDetail
  | some detailForNode =>
    let detailForNode := detailForNode.removePreemptItem victimKey preemptorKey
    if detailForNode.isEmpty then ⟨pDetail.nodeToVictims.delete nodeName⟩
    else ⟨pDetail.nodeToVictims.set nodeName detailForNode⟩

/-- Each node is cleaned in place, and a node without victims is deleted. -/
def cleanUpResidualPreemptionItems (podLister : PodLister) (orders : CleanUpOrders)
    (pDetail : PreemptionDetails) : PreemptionDetails :=
  ⟨pDetail.nodeToVictims.sweep orders.nodes
    (fun nodeName detailForNode => detailForNode.cleanUpResidualPreemptionItems podLister
      (orders.victims nodeName) (orders.preemptors nodeName))
    (fun nodeName detailForNode => detailForNode.generation_cleanUp podLister
      (orders.victims nodeName) (orders.preemptors nodeName))
    PreemptionDetailForNode.isEmpty⟩

def getPreemptorsByVictim (pDetail : PreemptionDetails) (o : RangeOrder String)
    (node victim : String) : List String :=
  SchedulerCache.getPreemptorsByVictim pDetail.nodeToVictims.get
    (fun item => item.victimToPreemptors.get) o node victim

end PreemptionDetails

structure SnapshotPreemptionDetails where
  nodeToVictims : RawStoreImpl String SnapshotDetailForNode

namespace SnapshotPreemptionDetails

def new : SnapshotPreemptionDetails := ⟨.new⟩

def getPreemptorsByVictim (pDetail : SnapshotPreemptionDetails) (o : RangeOrder String)
    (node victim : String) : List String :=
  SchedulerCache.getPreemptorsByVictim pDetail.nodeToVictims.get
    (fun item => item.victimToPreemptors.get) o node victim

end SnapshotPreemptionDetails

/-- The orders of the loops of a refresh: over the updated keys and over the snapshot's keys, for
the nodes and within each node. -/
structure RefreshOrders where
  updated : RangeOrder String
  clean : RangeOrder String
  updatedVictims : String → RangeOrder String
  cleanVictims : String → RangeOrder String

/-- Refresh the victims of one node. -/
def updatePreemptionDetailForNodeItems (orders : RefreshOrders) (nodeName : String)
    (cache : ListStore String GenerationStringSet)
    (snapshot : RawStoreImpl String GenerationStringSet) :
    RawStoreImpl String GenerationStringSet :=
  ((⟨cache, snapshot⟩ : Stores String GenerationStringSet GenerationStringSet).refresh
    GenerationStringSet.reset (orders.updatedVictims nodeName)
    (orders.cleanVictims nodeName)).snapshot

/-- The clone function of the refresh of the nodes. -/
def cloneDetailForNode (orders : RefreshOrders)
    (st : RawStoreImpl String SnapshotDetailForNode × Unit) (key : String)
    (detailForNode : PreemptionDetailForNode) : RawStoreImpl String SnapshotDetailForNode × Unit :=
  let existing := (st.1.get key).getD .new
  (st.1.set key ⟨updatePreemptionDetailForNodeItems orders key detailForNode.victimToPreemptors
      existing.victimToPreemptors, detailForNode.generation⟩, st.2)

structure PreemptionStores where
  cache : PreemptionDetails
  snapshot : SnapshotPreemptionDetails

inductive PreemptionOp
  | addPreemptItem (nodeName victimKey preemptorKey : String)
  | removePreemptItem (nodeName victimKey preemptorKey : String)
  | cleanUp (podLister : PodLister) (orders : CleanUpOrders)
  | updateSnapshot (orders : RefreshOrders)

namespace PreemptionStores

def new : PreemptionStores := ⟨.new, .new⟩

def updateSnapshot (s : PreemptionStores) (orders : RefreshOrders) : PreemptionStores :=
  let cleanFunc := fun (st : RawStoreImpl String SnapshotDetailForNode × Unit) =>
    (defaultCleanFunc s.cache.nodeToVictims orders.clean st.1, st.2)
  { s with
    snapshot := ⟨(updateRawStore s.cache.nodeToVictims (cloneDetailForNode orders) cleanFunc
      orders.updated (s.snapshot.nodeToVictims, ())).1⟩ }

def step (s : PreemptionStores) : PreemptionOp → PreemptionStores
  | .addPreemptItem nodeName victimKey preemptorKey =>
    { s with cache := s.cache.addPreemptItem nodeName victimKey preemptorKey }
  | .removePreemptItem nodeName victimKey preemptorKey =>
    { s with cache := s.cache.removePreemptItem nodeName victimKey preemptorKey }
  | .cleanUp podLister orders =>
    { s with cache := s.cache.cleanUpResidualPreemptionItems podLister orders }
  | .updateSnapshot orders => s.updateSnapshot orders

end PreemptionStores

end GodelScheduler.SchedulerCache
