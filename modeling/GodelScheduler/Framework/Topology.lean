import GodelScheduler.Framework.Resource

/-!
# The topology a node reports

The socket and NUMA zones in the status of a CNR, with the resources each NUMA
can allocate and the allocations the node's agent reports. Zones of other kinds
and deeper levels are not read by the scheduler.
-/

namespace GodelScheduler

open Library

/-- The key `namespace/name/uid` of a pod, or a text that is no such key. The parts of a key hold
no slash, so that a text is the key of at most one pod. -/
inductive PodKey
  | key (ns name uid : String)
  | other (text : String)
  deriving DecidableEq

/-- The UID in a pod key, `none` where the source fails to parse the key. -/
def parsePodKey : PodKey → Option String
  | .key _ _ uid => some uid
  | .other _ => none

/-- The value of a nonempty text of digits. -/
def parseDigits (digits : List Char) : Option ℕ :=
  if digits = [] then none
  else digits.foldlM
    (fun n c => if c.isDigit then some (10 * n + (c.toNat - '0'.toNat)) else none) 0

/-- `strconv.Atoi` without its error: 0 for a text that is no number, and the nearest 64-bit
value for a number out of range. -/
def atoi (s : String) : ℤ :=
  match s.toList with
  | '-' :: digits => ((parseDigits digits).map fun n : ℕ => max (-(n : ℤ)) (-2 ^ 63)).getD 0
  | '+' :: digits => ((parseDigits digits).map fun n : ℕ => min (n : ℤ) (2 ^ 63 - 1)).getD 0
  | digits => ((parseDigits digits).map fun n : ℕ => min (n : ℤ) (2 ^ 63 - 1)).getD 0

inductive TopologyType
  | socket
  | numa
  | other
  deriving DecidableEq

structure Allocation where
  consumer : PodKey
  requests : Option ResourceList
  deriving DecidableEq

structure TopologyChild where
  type : TopologyType := .numa
  name : String
  allocatable : Option ResourceList := none
  allocations : List Allocation := []
  deriving DecidableEq

structure TopologyZone where
  type : TopologyType := .socket
  name : String
  children : List TopologyChild := []
  deriving DecidableEq

end GodelScheduler
