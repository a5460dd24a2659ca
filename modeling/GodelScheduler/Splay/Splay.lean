import GodelScheduler.Library.MapRange
import GodelScheduler.Library.SlotTree

/-!
# The splay tree

An ordered map kept in an array: the nodes are slots of `items`, slot 0 stands for
no node, and slots 1 and 2 are the sentinels below and above every object. `infos`
keeps for each slot what the owner of the objects sums up over the subtree there.
Deleting moves the last slot to the freed one, so the live slots have no gap.

Every function returns `none` where the source does not return: an index out of
range, a method called on a value without one, or a loop that goes on. A loop may
take as many rounds as the array has slots. The two branches of the source for left
and right are one, with the direction as a `Bool`; the index -1 that slot 0 has for
a parent is never read and is 0 here.
-/

namespace GodelScheduler

open Library

/-- What is summed up over a subtree: nothing, the constant of a lookup object, or a value of the
type that belongs to the stored objects. -/
inductive MaintainInfo (I : Type)
  | nil
  | forLookup
  | own (info : I)
  deriving DecidableEq

inductive Obj (α : Type)
  | nil
  | forLookup (key : String)
  | stored (obj : α)
  deriving DecidableEq

/-- What a stored object provides. `compare a b` says that `a` is strictly greater than `b`. -/
class StoredObj (α : Type) (I : outParam Type) where
  key : α → String
  compare : α → α → Bool
  makeMaintainInfo : α → I
  maintain : I → MaintainInfo I → MaintainInfo I → Option I

open StoredObj

namespace Splay

structure Node (α : Type) extends Cell where
  key : String
  obj : Obj α
  deriving DecidableEq

namespace Node

variable {α : Type}

/-- The part of a node that is not links. -/
def payload (n : Node α) : String × Obj α := (n.key, n.obj)

def relink (n : Node α) (f : Cell → Cell) : Node α := { n with toCell := f n.toCell }

def zero : Node α := ⟨⟨0, 0, 0⟩, "", .nil⟩

end Node

end Splay

structure Splay (α I : Type) where
  root : ℕ
  hash : GoMap String ℕ
  items : List (Splay.Node α)
  infos : List (MaintainInfo I)
  count : ℕ
  deriving DecidableEq

namespace Splay

variable {α I : Type}

def minv : ℕ := 1

def maxv : ℕ := 2

def newSplay : Splay α I where
  root := minv
  hash := ∅
  items := [⟨⟨0, 0, 0⟩, "NilObj", .forLookup "NilObj"⟩,
    ⟨⟨0, maxv, 0⟩, "MinObj", .forLookup "MinObj"⟩, ⟨⟨0, 0, minv⟩, "MaxObj", .forLookup "MaxObj"⟩]
  infos := [.forLookup, .forLookup, .forLookup]
  count := 2

def modifyNode (s : Splay α I) (i : ℕ) (f : Node α → Node α) : Option (Splay α I) :=
  if i < s.items.length then some { s with items := s.items.modify i f } else none

def child (s : Splay α I) (d : Bool) (i : ℕ) : Option ℕ := do
  pure ((← s.items[i]?).toCell.child d)

def parent (s : Splay α I) (i : ℕ) : Option ℕ := do
  pure (← s.items[i]?).parent

def setChild (s : Splay α I) (d : Bool) (i v : ℕ) : Option (Splay α I) :=
  s.modifyNode i fun n => n.relink fun c => c.setChild d v

def setParent (s : Splay α I) (i v : ℕ) : Option (Splay α I) :=
  s.modifyNode i fun n => n.relink fun c => c.setParent v

/-- Whether an object that compares by `o` belongs to the right of a node. -/
def chooseChildIndex (s : Splay α I) (o : α → Bool) (n : ℕ) : Option Bool := do
  if n = minv then pure true
  else if n = maxv then pure false
  else
    match (← s.items[n]?).obj with
    | .stored obj => pure (o obj)
    | .forLookup _ => none
    | .nil => none

/-- Whether `x` is the right child of `y`. -/
def getChildIndex (s : Splay α I) (x y : ℕ) : Option Bool := do
  if y ≠ 0 then pure ((← s.child true y) == x) else pure false

/-- Put `v` in the place of the child `x` of `y`, unless `x` has no parent. -/
def replaceChild (s : Splay α I) (x y v : ℕ) : Option (Splay α I) := do
  if y ≠ 0 then s.setChild (← s.getChildIndex x y) y v else pure s

def reparent (s : Splay α I) (x v : ℕ) : Option (Splay α I) :=
  if x ≠ 0 then s.setParent x v else pure s

variable [StoredObj α I] (s : Splay α I)

def childInfo (sentinel c : ℕ) : Option (MaintainInfo I) :=
  if c ≠ 0 ∧ c ≠ sentinel then s.infos[c]? else some .nil

/-- Sum up the subtree at a node from the sums at its children. -/
def maintain (s : Splay α I) (i : ℕ) : Option (Splay α I) := do
  let n ← s.items[i]?
  let leftChildInfo ← s.childInfo minv n.lchild
  let rightChildInfo ← s.childInfo maxv n.rchild
  match ← s.infos[i]? with
  | .nil => none
  | .forLookup => pure s
  | .own info =>
    pure { s with
      infos := s.infos.set i (.own (← StoredObj.maintain α info leftChildInfo rightChildInfo)) }

/-- The links of a rotation of `x` over its parent. -/
def rotateLinks (x : ℕ) : Option (Splay α I) := do
  let y ← s.parent x
  let z ← s.parent y
  let k ← s.getChildIndex x y
  let s ← s.replaceChild y z x
  let s ← s.setParent x z
  let s ← s.setChild k y (← s.child (!k) x)
  let s ← s.reparent (← s.child (!k) x) y
  let s ← s.setChild (!k) x y
  s.setParent y x

def rotate (x : ℕ) : Option (Splay α I) := do
  let y ← s.parent x
  let s ← s.rotateLinks x
  let s ← s.maintain y
  s.maintain x

/-- The first of two rotations, if the parent `y` of `x` is not right below `k`. -/
def splayUpper (x y k : ℕ) : Option (Splay α I) := do
  let z ← s.parent y
  if z ≠ k then
    if (← s.getChildIndex x y) ≠ (← s.getChildIndex y z) then s.rotate x else s.rotate y
  else pure s

/-- Rotate `x` upwards until its parent is `k`. -/
def splayLoop (x k : ℕ) : ℕ → Splay α I → Option (Splay α I)
  | 0, _ => none
  | fuel + 1, s => do
    let y ← s.parent x
    if y = k then pure s
    else
      let s ← s.splayUpper x y k
      let s ← s.rotate x
      splayLoop x k fuel s

def splay (x k : ℕ) : Option (Splay α I) := do
  let s ← splayLoop x k s.items.length s
  pure (if k = 0 then { s with root := x } else s)

/-- The last node of the search for the place of an object. -/
def descend (s : Splay α I) (o : α → Bool) : ℕ → ℕ → ℕ → Option ℕ
  | 0, _, _ => none
  | fuel + 1, p, n => do
    if n = 0 then pure p
    else descend s o fuel n (← s.child (← s.chooseChildIndex o n) n)

def newSlot (v : α) (p : ℕ) : Splay α I :=
  { s with
    items := s.items ++ [⟨⟨0, 0, p⟩, key v, .stored v⟩]
    infos := s.infos ++ [.own (makeMaintainInfo v)]
    count := s.count + 1
    hash := s.hash.insert (key v) (s.count + 1) }

/-- Make `n` the child of `p`, if there is a `p`, on the side where the search left it. -/
def attach (o : α → Bool) (p n : ℕ) : Option (Splay α I) := do
  if p ≠ 0 then s.setChild (← s.chooseChildIndex o p) p n else pure s

def insert (v : α) : Option (Splay α I × Bool) :=
  match s.hash.lookup (key v) with
  | some i => do
    let s ← s.modifyNode i fun n => { n with obj := .stored v }
    pure (s, false)
  | none => do
    let p ← s.descend (compare v) s.items.length 0 s.root
    let s := s.newSlot v p
    let n := s.count
    let s ← s.attach (compare v) p n
    let s ← s.splay n 0
    pure (s, true)

/-- Go in one direction as far as possible. -/
def walkFar (s : Splay α I) (d : Bool) : ℕ → ℕ → Option ℕ
  | 0, _ => none
  | fuel + 1, ret => do
    let next ← s.child d ret
    if next ≠ 0 then walkFar s d fuel next else pure ret

/-- The neighbour of a root in the order: as far as possible to the other side from its child. -/
def find (i : ℕ) (dir : Bool) : Option ℕ := do
  s.walkFar (!dir) s.items.length (← s.child dir i)

/-- Move the last slot to the slot `i`, with the links and the key that point to it. -/
def moveLast (i : ℕ) : Option (Splay α I) := do
  let lastIndex := s.count
  let lastNode ← s.items[lastIndex]?
  let s ← s.replaceChild lastIndex lastNode.parent i
  let s ← s.reparent lastNode.lchild i
  let s ← s.reparent lastNode.rchild i
  let lastNode ← s.items[lastIndex]?
  let info ← s.infos[lastIndex]?
  let s ← s.modifyNode i fun _ => lastNode
  pure { s with
    hash := s.hash.insert lastNode.key i
    infos := s.infos.set i info
    root := if s.root = lastIndex then i else s.root }

def truncate : Splay α I :=
  { s with items := s.items.take s.count, infos := s.infos.take s.count, count := s.count - 1 }

/-- Give up a slot that no link points to. -/
def removeSlot (i : ℕ) : Option (Splay α I) :=
  if i ≠ s.count then do pure (← s.moveLast i).truncate else pure s.truncate

def delete (key : String) : Option (Splay α I × Bool) :=
  match s.hash.lookup key with
  | none => pure (s, false)
  | some i => do
    let s ← s.splay i 0
    let pre ← s.find i false
    let nxt ← s.find i true
    let s ← s.splay pre 0
    let s ← s.splay nxt pre
    let s ← s.setChild false nxt 0
    let s ← s.maintain nxt
    let s ← s.maintain pre
    let s : Splay α I := { s with hash := s.hash.erase key }
    let s ← s.removeSlot i
    pure (s, true)

def get (key : String) : Option (Obj α) :=
  match s.hash.lookup key with
  | none => pure .nil
  | some i => do pure (← s.items[i]?).obj

/-- The last node at which the search went left. -/
def descendNext (s : Splay α I) (o : α → Bool) : ℕ → ℕ → ℕ → Option ℕ
  | 0, _, _ => none
  | fuel + 1, next, p => do
    if p = 0 then pure next
    else if ← s.chooseChildIndex o p then descendNext s o fuel next (← s.child true p)
    else descendNext s o fuel p (← s.child false p)

/-- Bring the objects below `o` together in one subtree and return what is summed up there. -/
def partition (o : α → Bool) : Option (Splay α I × MaintainInfo I) := do
  let s ← s.splay minv 0
  let next ← s.descendNext o s.items.length 0 s.root
  let s ← s.splay next minv
  let p ← s.child false next
  if p = 0 then pure (s, .nil) else pure (s, ← s.infos[p]?)

/-- The objects below a slot, by inorder traversal. -/
def dfs (s : Splay α I) : ℕ → ℕ → Option (List (Obj α))
  | 0, _ => none
  | fuel + 1, i => do
    if i = 0 then pure []
    else
      let n ← s.items[i]?
      let left ← dfs s fuel n.lchild
      let right ← dfs s fuel n.rchild
      pure (left ++ (if i ≠ minv ∧ i ≠ maxv then [n.obj] else []) ++ right)

/-- The objects in the order in which they are visited. -/
def range : Option (List (Obj α)) := s.dfs s.items.length s.root

/-- The traversal of `ConditionRange`. A visit that returns `false` ends the traversal of the
subtree it is made in, not the one of the subtrees around it. -/
def conditionDfs {σ : Type} (s : Splay α I) (f : σ → Obj α → σ × Bool) : ℕ → ℕ → σ → Option σ
  | 0, _, _ => none
  | fuel + 1, i, acc => do
    if i = 0 then pure acc
    else
      let n ← s.items[i]?
      let acc ← conditionDfs s f fuel n.lchild acc
      if i ≠ minv ∧ i ≠ maxv then
        let (acc, goOn) := f acc n.obj
        if goOn then conditionDfs s f fuel n.rchild acc else pure acc
      else conditionDfs s f fuel n.rchild acc

def conditionRange {σ : Type} (s : Splay α I) (f : σ → Obj α → σ × Bool) (acc : σ) : Option σ :=
  s.conditionDfs f s.items.length s.root acc

def len : ℤ := s.count - 2

def clone : Option (Splay α I) := do
  let size := s.hash.len + 3
  let items := s.items.take size ++ List.replicate (size - s.items.length) .zero
  let infos := s.infos.take size ++ List.replicate (size - s.infos.length) .nil
  let hash ← (List.range' 3 (s.items.length - 3)).foldlM
    (fun hash i => do pure (hash.insert (← items[i]?).key i)) (∅ : GoMap String ℕ)
  pure { s with hash, items, infos }

end Splay

end GodelScheduler
