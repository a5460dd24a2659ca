import GodelScheduler.SchedulerCache.NodeStore
import GodelScheduler.GenerationStore.Refresh

/-!
# The scheduler snapshot

A snapshot keeps references to node infos: its raw store maps node names to
references, and four hash slices list references. A node info written through
the store is seen through the slices, so the node infos live in a heap `objs`
of their own. Reference `placeHolder` is the shared node info that stands for
every node outside the snapshot's sub-cluster.

`updateSnapshot` refreshes the snapshot from the cache: each cloned node info
replaces the one stored under its name, with the slices maintained by hooks,
and a clean-up with a computed budget deletes what should not be there.
-/

namespace GodelScheduler.SchedulerCache

open Library GenerationStore

abbrev Ref := ℕ

/-- `GlobalNodeInfoPlaceHolder`. -/
def placeHolder : Ref := 0

structure NodeSlices where
  inPartitionNodeSlice : HashSlice (Option NodeName) Ref
  outOfPartitionNodeSlice : HashSlice (Option NodeName) Ref
  havePodsWithAffinityNodeSlice : HashSlice (Option NodeName) Ref
  havePodsWithRequiredAntiAffinityNodeSlice : HashSlice (Option NodeName) Ref

def newNodeSlices : NodeSlices := ⟨.new, .new, .new, .new⟩

/-- What the snapshot's node store has besides its raw store. -/
structure SnapshotState where
  objs : List NodeInfo
  deleted : GoSet NodeName
  nodeSlices : NodeSlices

abbrev SnapshotStore := RawStoreImpl NodeName Ref × SnapshotState

variable (st : SnapshotState)

namespace SnapshotState

def info (r : Ref) : NodeInfo := st.objs.getD r NodeInfo.new

def nodeName (r : Ref) : Option NodeName := (st.info r).getNodeName

def op (slice : HashSlice (Option NodeName) Ref) (r : Ref) (isAdd : Bool) :
    HashSlice (Option NodeName) Ref :=
  if isAdd then slice.add st.nodeName r else slice.del st.nodeName r

/-- `nodeSlices.update`, the hook of the snapshot's node store. -/
def update (r : Ref) (isAdd : Bool) : SnapshotState :=
  if r = placeHolder then st
  else
    let n := st.info r
    let s := st.nodeSlices
    let s := if n.inPartition then
        { s with inPartitionNodeSlice := st.op s.inPartitionNodeSlice r isAdd }
      else { s with outOfPartitionNodeSlice := st.op s.outOfPartitionNodeSlice r isAdd }
    let s := if n.podInfoMaintainer.podsWithAffinity.items.length > 0 then
        { s with
          havePodsWithAffinityNodeSlice := st.op s.havePodsWithAffinityNodeSlice r isAdd }
      else s
    let s := if n.podInfoMaintainer.podsWithRequiredAntiAffinity.items.length > 0 then
        { s with
          havePodsWithRequiredAntiAffinityNodeSlice :=
            st.op s.havePodsWithRequiredAntiAffinityNodeSlice r isAdd }
      else s
    { st with nodeSlices := s }

def modifyInfo (r : Ref) (f : NodeInfo → NodeInfo) : SnapshotState :=
  { st with objs := st.objs.modify r f }

end SnapshotState

variable (st : SnapshotStore)

namespace SnapshotStore

abbrev Result := SnapshotStore × Except String Unit

def new : SnapshotStore := (.new, ⟨[NodeInfo.new], ∅, newNodeSlices⟩)

def get (st : SnapshotStore) (nodeName : NodeName) : Option Ref := st.1.get nodeName

def set (st : SnapshotStore) (nodeName : NodeName) (r : Ref) : SnapshotStore :=
  (st.1.set nodeName r, st.2)

def add (nodeName : NodeName) (r : Ref) : SnapshotStore :=
  (st.1.set nodeName r, st.2.update r true)

def delete (st : SnapshotStore) (nodeName : NodeName) (r : Ref) : SnapshotStore :=
  (st.1.delete nodeName, st.2.update r false)

def alloc (n : NodeInfo) : SnapshotStore × Ref :=
  ((st.1, { st.2 with objs := st.2.objs ++ [n] }), st.2.objs.length)

def getOrCreateNode (nodeName : NodeName) : SnapshotStore × Ref :=
  match st.get nodeName with
  | some r => (st.set nodeName r, r)
  | none =>
    let (st, r) := st.alloc NodeInfo.new
    let st : SnapshotStore := (st.1, { st.2 with deleted := st.2.deleted.insert nodeName () })
    (st.set nodeName r, r)

/-- Remove a victim; its error is only logged. -/
def removeVictim (n : NodeInfo) (victim : Pod) : NodeInfo :=
  match n.removePod victim with
  | .ok m => m
  | .error _ => n

def assumePod (podInfo : CachePodInfo) : Result :=
  match podInfo.pod.getNodeNameFromPod with
  | none => (st, .ok ())
  | some nodeName =>
    let (st, r) := st.getOrCreateNode nodeName
    ((st.1, st.2.modifyInfo r fun n =>
      podInfo.victims.foldl removeVictim (n.addPod podInfo.pod)), .ok ())

/-- Drop a residual node info without pods, with no hook, store any other one. -/
def dropOrSet (nodeName : NodeName) (r : Ref) : SnapshotStore :=
  let n := st.2.info r
  if n.numPods = 0 ∧ n.objectIsNil then
    (st.1.delete nodeName, { st.2 with deleted := st.2.deleted.erase nodeName })
  else st.set nodeName r

def forgetPod (podInfo : CachePodInfo) : Result :=
  match podInfo.pod.getNodeNameFromPod with
  | none => (st, .ok ())
  | some nodeName =>
    match st.get nodeName with
    | none => (st, .ok ())
    | some r =>
      match (st.2.info r).removePod podInfo.pod with
      | .error e => (st, .error e)
      | .ok n =>
        let n := podInfo.victims.foldl NodeInfo.addPod n
        let st : SnapshotStore := (st.1, st.2.modifyInfo r fun _ => n)
        (st.dropOrSet nodeName r, .ok ())

/-- The node infos of the in-partition list followed by those of the out-of-partition list. -/
def list : List NodeInfo :=
  (st.2.nodeSlices.inPartitionNodeSlice.items ++
    st.2.nodeSlices.outOfPartitionNodeSlice.items).map st.2.info

end SnapshotStore

/-- Settings of the cache, of the snapshot, and the sub-cluster feature gate. -/
structure Settings where
  cacheHandler : Handler := {}
  snapshotHandler : Handler := {}
  subClusterConcurrentSchedulingEnabled : Bool := true

namespace Settings

/-- The node infos a snapshot holds itself, in the default sub-cluster all of them; the others are
held as the placeholder. -/
def holds (cfg : Settings) (n : NodeInfo) : Bool :=
  !cfg.subClusterConcurrentSchedulingEnabled ||
    n.nodeInfoBelongToSubCluster cfg.snapshotHandler.subCluster

/-- Clone function of `UpdateSnapshot`. -/
def cloneFunc (cfg : Settings) (st : SnapshotStore) (nodeName : NodeName) (nodeInfo : NodeInfo) :
    SnapshotStore :=
  let st := match st.get nodeName with
    | some r => st.delete nodeName r
    | none => st
  if !cfg.holds nodeInfo then st.add nodeName placeHolder
  else
    let (st, r) := st.alloc nodeInfo.clone
    st.add nodeName r

end Settings

namespace NodeStore

/-- A snapshot entry the clean-up may delete: gone from the cache, or residual there. -/
def deletable (cache : NodeStore) (key : NodeName) : Bool :=
  match cache.get key with
  | none => true
  | some nodeInfo => nodeInfo.objectIsNil

/-- One deletion of the clean-up, with the slices maintained. -/
def deleteEntry (key : NodeName) : SnapshotStore :=
  match st.get key with
  | some existing => st.delete key existing
  | none => st

/-- How many snapshot entries the clean-up deletes at most. -/
def toDelete (cache : NodeStore) (st : SnapshotStore) : ℤ :=
  st.1.len - (cache.store.len - GoMap.len st.2.deleted)

/-- Clean function of `UpdateSnapshot`; `o` is the order of its `ConditionRange`. -/
def cleanFunc (cache : NodeStore) (o : RangeOrder NodeName) (st : SnapshotStore) : SnapshotStore :=
  if cache.toDelete st > 0 then
    deleteWhile cache.deletable deleteEntry (o.list st.1.keys) (cache.toDelete st) st
  else st

/-- `UpdateSnapshot`; `updated` and `clean` are the orders of its two map loops. -/
def updateSnapshot (cache : NodeStore) (cfg : Settings) (updated clean : RangeOrder NodeName)
    (st : SnapshotStore) : SnapshotStore :=
  updateRawStore cache.store cfg.cloneFunc (cache.cleanFunc clean) updated st

end NodeStore

structure NodeStores where
  cache : NodeStore
  snapshot : SnapshotStore

inductive NodeStores.Op
  | cache (op : CacheOp)
  | snapshotAssumePod (podInfo : CachePodInfo)
  | snapshotForgetPod (podInfo : CachePodInfo)
  | updateSnapshot (updated clean : RangeOrder NodeName)

namespace NodeStores

def new : NodeStores := ⟨.new, .new⟩

def step (cfg : Settings) (s : NodeStores) : Op → NodeStores
  | .cache op => { s with cache := (op.apply cfg.cacheHandler s.cache).1 }
  | .snapshotAssumePod podInfo => { s with snapshot := (s.snapshot.assumePod podInfo).1 }
  | .snapshotForgetPod podInfo => { s with snapshot := (s.snapshot.forgetPod podInfo).1 }
  | .updateSnapshot updated clean =>
    { s with snapshot := s.cache.updateSnapshot cfg updated clean s.snapshot }

end NodeStores

end GodelScheduler.SchedulerCache
