import GodelScheduler.Library.MapRange
import Mathlib.Data.String.Basic

/-!
# Resources

Quantities of named resources as a pod requests them, and the collection of
resources the scheduler computes with: CPU, memory, ephemeral storage and pods
have a field each, every other resource is a scalar resource in a map.

A resource list is gone through in an unspecified order. Each name of the list
writes a field of its own, so what the loops leave, read field by field with
`Resource.view`, is the same in every order.
-/

namespace GodelScheduler

open Library

/-- An amount in nano units. Reading it in a larger unit rounds up. -/
structure Quantity where
  nano : ℤ
  deriving DecidableEq

namespace Quantity

def value (q : Quantity) : ℤ := -(-q.nano / 1000000000)

def milliValue (q : Quantity) : ℤ := -(-q.nano / 1000000)

def zero : Quantity := ⟨0⟩

def add (q y : Quantity) : Quantity := ⟨q.nano + y.nano⟩

def sub (q y : Quantity) : Quantity := ⟨q.nano - y.nano⟩

end Quantity

abbrev ResourceName := String

abbrev ResourceList := GoMap ResourceName Quantity

variable (name : ResourceName)

namespace ResourceName

def hasPrefix (p : String) : Bool := p.toList.isPrefixOf name.toList

def contains (s : String) : Bool := decide (s.toList <:+: name.toList)

def isPrefixedNativeResource : Bool := contains name "kubernetes.io/"

def isNativeResource : Bool :=
  !contains name "/" || isPrefixedNativeResource name

def isExtendedResourceName : Bool :=
  !(isNativeResource name || hasPrefix name "requests.")

def isHugePageResourceName : Bool := hasPrefix name "hugepages-"

def isAttachableVolumeResourceName : Bool :=
  hasPrefix name "attachable-volumes-"

def isScalarResourceName : Bool :=
  isExtendedResourceName name || isHugePageResourceName name || isPrefixedNativeResource name ||
    isAttachableVolumeResourceName name

/-- The part before the first slash. -/
def group : String := String.ofList (name.toList.takeWhile (· ≠ '/'))

end ResourceName

structure FeatureGates where
  localStorageCapacityIsolation : Bool
  podOverhead : Bool

/-- The orders in which the maps of resources are gone through. -/
structure ResourceOrders where
  list : RangeOrder (Sigma fun _ : ResourceName => Quantity)
  scalars : RangeOrder (Sigma fun _ : ResourceName => ℤ)

def ResourceOrders.forward : ResourceOrders := ⟨.forward, .forward⟩

structure Resource where
  milliCPU : ℤ := 0
  memory : ℤ := 0
  ephemeralStorage : ℤ := 0
  allowedPodNumber : ℤ := 0
  scalarResources : GoMap ResourceName ℤ := ∅

inductive ResourceField
  | milliCPU
  | memory
  | ephemeralStorage
  | allowedPodNumber
  | scalar (name : ResourceName)
  deriving DecidableEq

namespace Resource

variable (gates : FeatureGates) (o : ResourceOrders) (r : Resource)

/-- A name that is not in the map counts as 0. -/
def getScalar (name : ResourceName) : ℤ := (r.scalarResources.lookup name).getD 0

def setScalar (name : ResourceName) (quantity : ℤ) : Resource :=
  { r with scalarResources := r.scalarResources.insert name quantity }

def addScalar (name : ResourceName) (quantity : ℤ) : Resource :=
  r.setScalar name (r.getScalar name + quantity)

def addQuantity (e : Sigma fun _ : ResourceName => Quantity) : Resource :=
  if e.1 = "cpu" then { r with milliCPU := r.milliCPU + e.2.milliValue }
  else if e.1 = "memory" then { r with memory := r.memory + e.2.value }
  else if e.1 = "pods" then { r with allowedPodNumber := r.allowedPodNumber + e.2.value }
  else if e.1 = "ephemeral-storage" then
    -- without the gate pods request no disk
    if gates.localStorageCapacityIsolation
    then { r with ephemeralStorage := r.ephemeralStorage + e.2.value } else r
  else if ResourceName.isScalarResourceName e.1 then r.addScalar e.1 e.2.value
  else r

def add (rl : ResourceList) : Resource :=
  (o.list.list rl.entries).foldl (addQuantity gates) r

def subQuantity (e : Sigma fun _ : ResourceName => Quantity) : Resource :=
  if e.1 = "cpu" then { r with milliCPU := r.milliCPU - e.2.milliValue }
  else if e.1 = "memory" then { r with memory := r.memory - e.2.value }
  else if e.1 = "pods" then { r with allowedPodNumber := r.allowedPodNumber - e.2.value }
  else if e.1 = "ephemeral-storage" then
    if gates.localStorageCapacityIsolation
    then { r with ephemeralStorage := r.ephemeralStorage - e.2.value } else r
  else if ResourceName.isScalarResourceName e.1 then r.addScalar e.1 (-e.2.value)
  else r

/-- A name in the map that is no name of a scalar resource counts as 0. -/
def getScalarResourceQuantity (name : ResourceName) : ℤ :=
  if ResourceName.isScalarResourceName name then r.getScalar name else 0

def addResource (r resource : Resource) : Resource :=
  let r := { r with
    milliCPU := r.milliCPU + resource.milliCPU
    memory := r.memory + resource.memory
    allowedPodNumber := r.allowedPodNumber + resource.allowedPodNumber
    ephemeralStorage := if gates.localStorageCapacityIsolation
      then r.ephemeralStorage + resource.ephemeralStorage else r.ephemeralStorage }
  (o.scalars.list resource.scalarResources.entries).foldl
    (fun r e => r.setScalar e.1 (e.2 + r.getScalarResourceQuantity e.1)) r

def subResource (r resource : Resource) : Resource :=
  let r := { r with
    milliCPU := r.milliCPU - resource.milliCPU
    memory := r.memory - resource.memory
    allowedPodNumber := r.allowedPodNumber - resource.allowedPodNumber
    ephemeralStorage := if gates.localStorageCapacityIsolation
      then r.ephemeralStorage - resource.ephemeralStorage else r.ephemeralStorage }
  (o.scalars.list resource.scalarResources.entries).foldl
    (fun r e => r.setScalar e.1 (r.getScalarResourceQuantity e.1 - e.2)) r

/-- The maximum takes ephemeral storage whatever the gate says. -/
def setMaxQuantity (e : Sigma fun _ : ResourceName => Quantity) : Resource :=
  if e.1 = "memory" then
    if e.2.value > r.memory then { r with memory := e.2.value } else r
  else if e.1 = "cpu" then
    if e.2.milliValue > r.milliCPU then { r with milliCPU := e.2.milliValue } else r
  else if e.1 = "ephemeral-storage" then
    if e.2.value > r.ephemeralStorage then { r with ephemeralStorage := e.2.value } else r
  else if ResourceName.isScalarResourceName e.1 then
    if e.2.value > r.getScalar e.1 then r.setScalar e.1 e.2.value else r
  else r

def setMaxResource (rl : ResourceList) : Resource :=
  (o.list.list rl.entries).foldl setMaxQuantity r

/-- The value of a field, `none` for a scalar resource that is not in the map. -/
def view : ResourceField → Option ℤ
  | .milliCPU => some r.milliCPU
  | .memory => some r.memory
  | .ephemeralStorage => some r.ephemeralStorage
  | .allowedPodNumber => some r.allowedPodNumber
  | .scalar name => r.scalarResources.lookup name

def amount (f : ResourceField) : ℤ := (r.view f).getD 0

/-- The same fields, with the scalar resources in whatever order. -/
def Same (r r' : Resource) : Prop := ∀ f, r.view f = r'.view f

def set (f : ResourceField) (quantity : ℤ) : Resource :=
  match f with
  | .milliCPU => { r with milliCPU := quantity }
  | .memory => { r with memory := quantity }
  | .ephemeralStorage => { r with ephemeralStorage := quantity }
  | .allowedPodNumber => { r with allowedPodNumber := quantity }
  | .scalar name => r.setScalar name quantity

@[simp] theorem view_set_self (f : ResourceField) (quantity : ℤ) :
    (r.set f quantity).view f = some quantity := by
  cases f with
  | scalar name => exact AList.lookup_insert _
  | _ => rfl

theorem view_set_of_ne {f f' : ResourceField} (h : f ≠ f') (quantity : ℤ) :
    (r.set f quantity).view f' = r.view f' := by
  cases f with
  | scalar name =>
    cases f' with
    | scalar name' =>
      have hne : name' ≠ name := fun heq => h (congrArg ResourceField.scalar heq.symm)
      exact AList.lookup_insert_ne hne
    | _ => rfl
  | _ => cases f' <;> first | rfl | exact absurd rfl h

variable {r r' : Resource}

theorem Same.amount (h : Same r r') (f : ResourceField) : r.amount f = r'.amount f := by
  rw [Resource.amount, h f]
  rfl

/-- The amount a name stands for in the unit of its field. -/
def quantityOf (q : Quantity) : ℤ :=
  if name = "cpu" then q.milliValue else q.value

section

/-- The field a name is added to, if any. -/
def addField (name : ResourceName) : Option ResourceField :=
  if name = "cpu" then some .milliCPU
  else if name = "memory" then some .memory
  else if name = "pods" then some .allowedPodNumber
  else if name = "ephemeral-storage" then
    if gates.localStorageCapacityIsolation then some .ephemeralStorage else none
  else if ResourceName.isScalarResourceName name then some (.scalar name)
  else none

theorem addQuantity_eq (r : Resource) (e : Sigma fun _ : ResourceName => Quantity) :
    addQuantity gates r e =
      match addField gates e.1 with
      | none => r
      | some f => r.set f (r.amount f + quantityOf e.1 e.2) := by
  unfold addQuantity addField
  by_cases hcpu : e.1 = "cpu"
  · simp only [if_pos hcpu, quantityOf]
    rfl
  · simp only [if_neg hcpu, quantityOf]
    split_ifs <;> rfl

theorem addField_inj (name name' : ResourceName) (f : ResourceField)
    (h : addField gates name = some f) (h' : addField gates name' = some f) : name = name' := by
  unfold addField at h h'
  split_ifs at h h' <;> cases h <;> cases h' <;> simp_all

theorem writesField_addQuantity :
    WritesField view (addField gates) (fun name q v => some (v.getD 0 + quantityOf name q))
      (addQuantity gates) where
  view_step r e f := by
    rw [addQuantity_eq]
    split_ifs with hfield
    · rw [hfield]
      exact view_set_self r f _
    · split
      · rfl
      next f' hfield' =>
        apply view_set_of_ne
        rintro rfl
        exact hfield hfield'
  field_inj := addField_inj gates

theorem Same.add (h : Same r r') (o o' : ResourceOrders) (rl : ResourceList) :
    Same (r.add gates o rl) (r'.add gates o' rl) :=
  (writesField_addQuantity gates).view_range_congr rl o.list o'.list h

end

section

/-- The field a name is compared with, if any. -/
def maxField : Option ResourceField :=
  if name = "memory" then some .memory
  else if name = "cpu" then some .milliCPU
  else if name = "ephemeral-storage" then some .ephemeralStorage
  else if ResourceName.isScalarResourceName name then some (.scalar name)
  else none

theorem setMaxQuantity_eq (r : Resource) (e : Sigma fun _ : ResourceName => Quantity) :
    setMaxQuantity r e =
      match maxField e.1 with
      | none => r
      | some f => if quantityOf e.1 e.2 > r.amount f then r.set f (quantityOf e.1 e.2) else r := by
  unfold setMaxQuantity maxField
  by_cases hcpu : e.1 = "cpu"
  · have hmem : e.1 ≠ "memory" := by
      rw [hcpu]
      decide
    simp only [if_pos hcpu, if_neg hmem, quantityOf]
    rfl
  · simp only [if_neg hcpu, quantityOf]
    by_cases hmem : e.1 = "memory"
    · simp only [if_pos hmem]
      rfl
    · simp only [if_neg hmem]
      by_cases heph : e.1 = "ephemeral-storage"
      · simp only [if_pos heph]
        rfl
      · simp only [if_neg heph]
        cases ResourceName.isScalarResourceName e.1 <;> rfl

theorem maxField_inj (name name' : ResourceName) (f : ResourceField)
    (h : maxField name = some f) (h' : maxField name' = some f) : name = name' := by
  unfold maxField at h h'
  split_ifs at h h' <;> cases h <;> cases h' <;> simp_all

theorem writesField_setMaxQuantity :
    WritesField view maxField
      (fun name q v => if quantityOf name q > v.getD 0 then some (quantityOf name q) else v)
      setMaxQuantity where
  view_step r e f := by
    rw [setMaxQuantity_eq]
    by_cases hfield : maxField e.1 = some f
    · rw [if_pos hfield, hfield]
      by_cases hgt : quantityOf e.1 e.2 > r.amount f
      · exact (congrArg (view · f) (if_pos hgt)).trans
          ((view_set_self r f _).trans (if_pos hgt).symm)
      · exact (congrArg (view · f) (if_neg hgt)).trans (if_neg hgt).symm
    · rw [if_neg hfield]
      split
      · rfl
      next f' hfield' =>
        split_ifs
        · apply view_set_of_ne
          rintro rfl
          exact hfield hfield'
        · rfl
  field_inj := maxField_inj

theorem Same.setMaxResource (h : Same r r') (o o' : ResourceOrders) (rl : ResourceList) :
    Same (r.setMaxResource o rl) (r'.setMaxResource o' rl) :=
  writesField_setMaxQuantity.view_range_congr rl o.list o'.list h

end

end Resource

end GodelScheduler
