import GodelScheduler.Library.MapRange
import GodelScheduler.Library.Runs

/-!
# The nodes of the schedulers

The maintainer records under each scheduler the names of the nodes annotated with it.
A node has up to two objects, a `Node` and an `NMNode` of the same name, whose events
reach the maintainer through handlers of their own but write one set of names. An object
that loses its scheduler takes the name out of the set whatever the other object is
annotated with, and `nodes_exact_iff` says that the sets go wrong in no other way.
-/

namespace GodelScheduler.Dispatcher

open Library

/-- A `Node` or an `NMNode`, with what the handlers read of it. -/
structure NodeObject where
  name : String
  /-- The scheduler-name annotation, empty if there is none. -/
  schedulerName : String := ""
  deriving DecidableEq

def AnnotatedWith (schedulerName : String) (node : Option NodeObject) : Prop :=
  schedulerName ≠ "" ∧ node.map NodeObject.schedulerName = some schedulerName

structure Scheduler where
  schedulerName : String
  active : Bool := true
  nodes : GoSet String := ∅

def Scheduler.addNode (gs : Scheduler) (nodeName : String) : Scheduler :=
  { gs with nodes := gs.nodes.insert nodeName () }

def Scheduler.removeNode (gs : Scheduler) (nodeName : String) : Scheduler :=
  { gs with nodes := gs.nodes.erase nodeName }

structure SchedulerMaintainer where
  generalSchedulers : GoMap String Scheduler := ∅

namespace SchedulerMaintainer

variable (maintainer : SchedulerMaintainer) (schedulerName nodeName : String)

def addNodeToGodelScheduler : SchedulerMaintainer :=
  let scheduler := (maintainer.generalSchedulers.lookup schedulerName).getD { schedulerName }
  ⟨maintainer.generalSchedulers.insert schedulerName (scheduler.addNode nodeName)⟩

/-- The removal that the handlers make if the scheduler is known. -/
def removeNode : SchedulerMaintainer :=
  match maintainer.generalSchedulers.lookup schedulerName with
  | none => maintainer
  | some scheduler =>
    ⟨maintainer.generalSchedulers.insert schedulerName (scheduler.removeNode nodeName)⟩

def nodeExistsInGodelScheduler (nodeName schedulerName : String) : Bool :=
  match maintainer.generalSchedulers.lookup schedulerName with
  | none => false
  | some scheduler => nodeName ∈ scheduler.nodes

variable (node oldNode newNode : NodeObject)

def addNodeToGodelSchedulerIfNotPresent : SchedulerMaintainer :=
  if node.schedulerName.length = 0 then maintainer
  else maintainer.addNodeToGodelScheduler node.schedulerName node.name

def updateNodeInGodelSchedulerIfNecessary : SchedulerMaintainer :=
  let oldSchedulerName := oldNode.schedulerName
  let newSchedulerName := newNode.schedulerName
  if oldSchedulerName = newSchedulerName ∧ newSchedulerName.length > 0 then
    if maintainer.nodeExistsInGodelScheduler newNode.name newSchedulerName then maintainer
    else maintainer.addNodeToGodelScheduler newSchedulerName newNode.name
  else
    let maintainer :=
      if oldSchedulerName.length > 0 then maintainer.removeNode oldSchedulerName oldNode.name
      else maintainer
    if newSchedulerName.length > 0 then
      maintainer.addNodeToGodelScheduler newSchedulerName newNode.name
    else maintainer

def deleteNodeFromGodelScheduler : SchedulerMaintainer :=
  if node.schedulerName.length = 0 then maintainer
  else maintainer.removeNode node.schedulerName node.name

-- The handlers of the `NMNode`s repeat those of the nodes.
def addNMNodeToGodelSchedulerIfNotPresent : SchedulerMaintainer :=
  maintainer.addNodeToGodelSchedulerIfNotPresent node

def updateNMNodeInGodelSchedulerIfNecessary : SchedulerMaintainer :=
  maintainer.updateNodeInGodelSchedulerIfNecessary oldNode newNode

def deleteNMNodeFromGodelScheduler : SchedulerMaintainer :=
  maintainer.deleteNodeFromGodelScheduler node

variable {m : SchedulerMaintainer} {schedulerName nodeName s n : String}
  {node oldNode newNode : NodeObject}

theorem exists_addNodeToGodelScheduler :
    (m.addNodeToGodelScheduler schedulerName nodeName).nodeExistsInGodelScheduler n s ↔
      (s = schedulerName ∧ n = nodeName) ∨ m.nodeExistsInGodelScheduler n s := by
  unfold nodeExistsInGodelScheduler addNodeToGodelScheduler Scheduler.addNode
  rw [GoMap.lookup_insert']
  split_ifs with hs
  · subst hs
    cases m.generalSchedulers.lookup s <;> simp [-AList.insert_empty]
  · simp [hs]

theorem exists_removeNode :
    (m.removeNode schedulerName nodeName).nodeExistsInGodelScheduler n s ↔
      m.nodeExistsInGodelScheduler n s ∧ ¬ (s = schedulerName ∧ n = nodeName) := by
  unfold nodeExistsInGodelScheduler removeNode Scheduler.removeNode
  by_cases hs : s = schedulerName
  · subst hs
    cases hlookup : m.generalSchedulers.lookup s with
    | none => simp [hlookup]
    | some scheduler => simp [and_comm]
  · cases m.generalSchedulers.lookup schedulerName with
    | none => simp [hs]
    | some scheduler =>
      rw [GoMap.lookup_insert', if_neg hs]
      simp [hs]

theorem exists_add :
    (m.addNodeToGodelSchedulerIfNotPresent node).nodeExistsInGodelScheduler n s ↔
      (n = node.name ∧ AnnotatedWith s (some node)) ∨ m.nodeExistsInGodelScheduler n s := by
  unfold addNodeToGodelSchedulerIfNotPresent AnnotatedWith
  split_ifs with hempty
  · simp_all
  · rw [exists_addNodeToGodelScheduler]
    simp at hempty ⊢
    grind

theorem exists_delete :
    (m.deleteNodeFromGodelScheduler node).nodeExistsInGodelScheduler n s ↔
      m.nodeExistsInGodelScheduler n s ∧ ¬ (n = node.name ∧ AnnotatedWith s (some node)) := by
  unfold deleteNodeFromGodelScheduler AnnotatedWith
  split_ifs with hempty
  · simp_all
  · rw [exists_removeNode]
    simp at hempty ⊢
    grind

/-- An object that keeps its scheduler is recorded anew where its name has been lost. -/
theorem exists_update (hname : newNode.name = oldNode.name) :
    (m.updateNodeInGodelSchedulerIfNecessary oldNode newNode).nodeExistsInGodelScheduler
        n s ↔
      (n = oldNode.name ∧ AnnotatedWith s (some newNode)) ∨
        m.nodeExistsInGodelScheduler n s ∧
          ¬ (n = oldNode.name ∧ AnnotatedWith s (some oldNode)) := by
  by_cases hkept : oldNode.schedulerName = newNode.schedulerName ∧ newNode.schedulerName.length > 0
  · rw [updateNodeInGodelSchedulerIfNecessary, if_pos hkept]
    simp only [AnnotatedWith, Option.map_some, Option.some.injEq, hkept.1, hname]
    split_ifs with hexists
    · grind
    · rw [exists_addNodeToGodelScheduler]
      have hne : newNode.schedulerName ≠ "" := fun h => by simp [h] at hkept
      grind
  · have hmoved : m.updateNodeInGodelSchedulerIfNecessary oldNode newNode =
        (m.deleteNodeFromGodelScheduler oldNode).addNodeToGodelSchedulerIfNotPresent
          newNode := by
      rw [updateNodeInGodelSchedulerIfNecessary, if_neg hkept]
      unfold deleteNodeFromGodelScheduler addNodeToGodelSchedulerIfNotPresent
      simp only [gt_iff_lt, Nat.pos_iff_ne_zero, ite_not]
    rw [hmoved, exists_add, exists_delete, hname]

end SchedulerMaintainer

/-- The event of an object, with the object before and after it. -/
inductive NodeEvent where
  | add (node : NodeObject)
  | update (oldNode newNode : NodeObject)
  | delete (node : NodeObject)

inductive NodeKind where
  | node
  | nmNode
  deriving DecidableEq

namespace NodeEvent

def before : NodeEvent → Option NodeObject
  | add _ => none
  | update oldNode _ => some oldNode
  | delete node => some node

def after : NodeEvent → Option NodeObject
  | add node => some node
  | update _ newNode => some newNode
  | delete _ => none

def name : NodeEvent → String
  | add node => node.name
  | update oldNode _ => oldNode.name
  | delete node => node.name

def handle (maintainer : SchedulerMaintainer) : NodeKind → NodeEvent → SchedulerMaintainer
  | .node, add node => maintainer.addNodeToGodelSchedulerIfNotPresent node
  | .node, update oldNode newNode =>
    maintainer.updateNodeInGodelSchedulerIfNecessary oldNode newNode
  | .node, delete node => maintainer.deleteNodeFromGodelScheduler node
  | .nmNode, add node => maintainer.addNMNodeToGodelSchedulerIfNotPresent node
  | .nmNode, update oldNode newNode =>
    maintainer.updateNMNodeInGodelSchedulerIfNecessary oldNode newNode
  | .nmNode, delete node => maintainer.deleteNMNodeFromGodelScheduler node

end NodeEvent

theorem NodeEvent.exists_handle {kind : NodeKind} {e : NodeEvent} {s n : String}
    {maintainer : SchedulerMaintainer} (hname : ∀ node ∈ e.after, node.name = e.name) :
    (e.handle maintainer kind).nodeExistsInGodelScheduler n s ↔
      (n = e.name ∧ AnnotatedWith s e.after) ∨
        maintainer.nodeExistsInGodelScheduler n s ∧ ¬ (n = e.name ∧ AnnotatedWith s e.before) := by
  have hkind : e.handle maintainer kind = e.handle maintainer .node := by
    cases kind <;> cases e <;> rfl
  rw [hkind]
  cases e with
  | add node =>
    rw [handle, SchedulerMaintainer.exists_add]
    simp [before, AnnotatedWith, after, name]
  | update oldNode newNode => exact SchedulerMaintainer.exists_update (hname newNode rfl)
  | delete node =>
    rw [handle, SchedulerMaintainer.exists_delete]
    simp [after, AnnotatedWith, before, name]

/-- The maintainer and the objects that currently exist, by kind and name. -/
structure Partitions where
  maintainer : SchedulerMaintainer := {}
  current : NodeKind → String → Option NodeObject := fun _ _ => none

namespace Partitions

def step (p : Partitions) (e : NodeKind × NodeEvent) : Partitions where
  maintainer := e.2.handle p.maintainer e.1
  current := Function.update p.current e.1 (Function.update (p.current e.1) e.2.name e.2.after)

/-- The event is about the current object of its kind and name. -/
def InformerOrder (p : Partitions) (e : NodeKind × NodeEvent) : Prop :=
  p.current e.1 e.2.name = e.2.before ∧ ∀ n ∈ e.2.after, n.name = e.2.name

def Exact (p : Partitions) : Prop :=
  ∀ schedulerName nodeName, p.maintainer.nodeExistsInGodelScheduler nodeName schedulerName ↔
    ∃ kind, AnnotatedWith schedulerName (p.current kind nodeName)

/-- A scheduler that the event takes from an object is not the one of the other kind's object. -/
def Unshared (p : Partitions) (e : NodeKind × NodeEvent) : Prop :=
  ∀ schedulerName, AnnotatedWith schedulerName e.2.before →
    (∃ kind ≠ e.1, AnnotatedWith schedulerName (p.current kind e.2.name)) →
      AnnotatedWith schedulerName e.2.after

variable {p : Partitions} {e : NodeKind × NodeEvent}

theorem exact_step_iff (hp : p.Exact) (he : p.InformerOrder e) :
    (p.step e).Exact ↔ p.Unshared e := by
  have hexists : ∀ s n, (p.step e).maintainer.nodeExistsInGodelScheduler n s ↔ _ :=
    fun s n => NodeEvent.exists_handle he.2
  have hcurrent : ∀ kind n, (p.step e).current kind n =
      if kind = e.1 ∧ n = e.2.name then e.2.after else p.current kind n := by
    intro kind n
    simp only [step, Function.update_apply]
    grind
  have horder := he.1
  unfold Exact at hp ⊢
  simp only [hexists, hcurrent, hp]
  constructor
  · intro h s hbefore hother
    specialize h s e.2.name
    grind
  · intro h s n
    by_cases hn : n = e.2.name
    · subst hn
      specialize h s
      grind
    · simp [hn]

/-- In informer order the sets of names are exact all along just when no event takes a scheduler
from one object of a node that its other object has. -/
theorem nodes_exact_iff (hp : p.Exact) {events : List (NodeKind × NodeEvent)}
    (h : Along step InformerOrder p events) :
    Always step Exact p events ↔ Along step Unshared p events :=
  always_iff_along (fun _ h => h) (fun _ _ hp he => (exact_step_iff hp he).mpr)
    (fun _ _ hp he => (exact_step_iff hp he).mp) hp h

theorem exact_empty : Exact {} := by
  simp [Exact, SchedulerMaintainer.nodeExistsInGodelScheduler, AnnotatedWith]

def sharedNode : NodeObject := ⟨"n", "s"⟩

/-- The deleted `NMNode` is annotated with another scheduler than the `Node`. -/
theorem nodes_exact_added :
    let events := [(.node, .add sharedNode), (.nmNode, .add ⟨"n", "t"⟩),
      (.nmNode, .delete ⟨"n", "t"⟩)]
    Along step InformerOrder {} events ∧ Always step Exact {} events := by
  intro events
  have horder : Along step InformerOrder {} events := by
    simp [events, Along, InformerOrder, step, NodeEvent.name, NodeEvent.before, NodeEvent.after]
  refine ⟨horder, (nodes_exact_iff exact_empty horder).mpr ?_⟩
  refine ⟨by simp [Unshared, AnnotatedWith, NodeEvent.before],
    by simp [Unshared, AnnotatedWith, NodeEvent.before], ?_, trivial⟩
  rintro schedulerName hbefore ⟨kind, hkind, hother⟩
  obtain rfl : kind = .node := by
    cases kind with
    | node => rfl
    | nmNode => exact absurd rfl hkind
  have hnames : some "t" = some "s" := hbefore.2.trans hother.2.symm
  exact absurd hnames (by decide)

/-- The deleted `NMNode` takes the name with it, and the node stays annotated. -/
theorem node_lost_with_nmNode :
    let events := [(.node, .add sharedNode), (.nmNode, .add sharedNode),
      (.nmNode, .delete sharedNode)]
    Along step InformerOrder {} events ∧ ¬ Always step Exact {} events := by
  refine ⟨?_, fun h => ?_⟩
  · simp [Along, InformerOrder, step, NodeEvent.name, NodeEvent.before, NodeEvent.after]
  · have hlost := (h.last "s" "n").mpr ⟨.node, by decide, rfl⟩
    exact absurd hlost (by decide)

end Partitions

end GodelScheduler.Dispatcher
