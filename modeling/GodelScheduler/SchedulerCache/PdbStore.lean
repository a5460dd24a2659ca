import GodelScheduler.Binder.VictimChecking
import GodelScheduler.Library.Runs

/-!
# The PDB store

The cache keeps the disruption budgets and the owners of pods. An owner has the keys
of the budgets whose selector matches its labels, and a budget the owners it was
matched with. Informer events keep both up to date.

The stores of ReplicaSets and of DaemonSets are one map by kind and key here, and so
are the two sets of owners of a budget. Every loop of the store writes only to the
entries it visits, so its order does not matter.

`Indexed` says that the budgets of an owner are those that select its labels, whatever
the order of events.
-/

namespace GodelScheduler.SchedulerCache

open Library Binder.Preemption KeyedStore Option

section

structure LabelSelectorRequirement where
  key : String
  /-- `none` for a text that is no operator. -/
  operator : Option Operator
  values : List String := []
  deriving DecidableEq

structure LabelSelector where
  matchLabels : GoMap String String := ∅
  matchExpressions : List LabelSelectorRequirement := []

/-- Whether two selectors are printed alike. Labels are printed in the order of their keys. -/
def sameText : Option LabelSelector → Option LabelSelector → Bool
  | none, none => true
  | some ps, some ps' =>
    decide (ps.matchLabels.entries.Perm ps'.matchLabels.entries ∧
      ps.matchExpressions = ps'.matchExpressions)
  | _, _ => false

/-- A requirement with the wrong number of values is an error. -/
def newRequirement (key : String) (operator : Operator) (values : List String) :
    Option Requirement :=
  match operator with
  | .opIn | .opNotIn => if values = [] then none else some ⟨key, operator, values⟩
  | .opExists | .opDoesNotExist => if values = [] then some ⟨key, operator, values⟩ else none

/-- Without a selector nothing is selected, with an empty one everything. -/
def labelSelectorAsSelector : Option LabelSelector → Option Selector
  | none => some .nothing
  | some ps =>
    if ps.matchLabels.len + ps.matchExpressions.length = 0 then some (.requirements [])
    else do
      let labels ← ps.matchLabels.entries.mapM fun e => newRequirement e.1 .opIn [e.2]
      let expressions ← ps.matchExpressions.mapM fun expr => do
        newRequirement expr.key (← expr.operator) expr.values
      pure (.requirements (labels ++ expressions))

end

/-- `util.EqualMap`: a missing key counts as an empty value. -/
def equalMap (m1 m2 : GoMap String String) : Bool :=
  m1.len == m2.len && m1.entries.all fun e => e.2 == (m2.lookup e.1).getD ""

/-- A budget with its name and the selector of its spec. -/
structure PDB extends PodDisruptionBudget where
  name : String
  selector : Option LabelSelector := none

def getPDBKey (pdb : PDB) : String := pdb.ns ++ "/" ++ pdb.name

structure PDBItemImpl where
  pdb : PDB
  pdbSelector : Option Selector := none
  /-- `replicaSetKeys` and `daemonSetKeys`. -/
  owners : Finset (OwnerType × String) := ∅

variable (p : PDBItemImpl)

namespace PDBItemImpl

def key : String := getPDBKey p.pdb

/-- What the checker reads of an item. -/
def toPDBItem : PDBItem := ⟨p.pdb.toPodDisruptionBudget, p.pdbSelector⟩

def selects (labels : GoMap String String) : Bool :=
  p.pdbSelector.elim false (Selector.matches labels)

def setSelector (selector : Selector) (owners : Finset (OwnerType × String)) : PDBItemImpl :=
  { p with
    pdbSelector := some selector
    owners := owners }

def addOwner (owner : OwnerType × String) : PDBItemImpl :=
  { p with owners := insert owner p.owners }

def removeOwner (owner : OwnerType × String) : PDBItemImpl :=
  { p with owners := p.owners.erase owner }

end PDBItemImpl

structure OwnerItem where
  ownerLabels : GoMap String String
  /-- The keys of the related budgets. -/
  pdbs : GoSet String
  pdbUpdated : Bool := false

namespace OwnerItem

def addPDB (o : OwnerItem) (key : String) : OwnerItem := { o with pdbs := o.pdbs.insert key () }

def removePDB (o : OwnerItem) (key : String) : OwnerItem := { o with pdbs := o.pdbs.erase key }

end OwnerItem

structure PdbStore where
  owners : GoMap (OwnerType × String) OwnerItem := ∅
  pdbs : KeyedStore PDBItemImpl.key := .empty _

variable (s : PdbStore)

namespace PdbStore

/-- The item of a budget, new or with the new object. -/
def storedPDB (s : PdbStore) (pdb : PDB) : PDBItemImpl :=
  match s.pdbs.getByKey (getPDBKey pdb) with
  | some storedPDB => { storedPDB with pdb := pdb }
  | none => { pdb := pdb }

def matchedOwners (selector : Selector) : Finset (OwnerType × String) :=
  ((s.owners.entries.filter fun e => selector.matches e.2.ownerLabels).map Sigma.fst).toFinset

/-- The source's unexported `addPDB`. An invalid selector leaves the item as it is. -/
def addPDBToOwners (storedPDB : PDBItemImpl) : PdbStore :=
  match labelSelectorAsSelector storedPDB.pdb.selector with
  | none => s
  | some selector =>
    { owners := s.owners.mapEntries fun _ ownerItem =>
        if selector.matches ownerItem.ownerLabels then ownerItem.addPDB storedPDB.key
        else ownerItem.removePDB storedPDB.key
      pdbs := s.pdbs.add (storedPDB.setSelector selector (s.matchedOwners selector)) }

/-- Only the owners the item lists are visited. -/
def removePDB (s : PdbStore) (pdbKey : String) : PdbStore :=
  match s.pdbs.getByKey pdbKey with
  | none => s
  | some pdbItem =>
    { s with
      owners := s.owners.mapEntries fun owner ownerItem =>
        if owner ∈ pdbItem.owners then ownerItem.removePDB pdbKey else ownerItem }

def addPDB (pdb : PDB) : PdbStore :=
  { s with pdbs := s.pdbs.add (s.storedPDB pdb) }.addPDBToOwners (s.storedPDB pdb)

def updatePDB (oldPdb newPdb : PDB) : PdbStore :=
  let storedPDB := s.storedPDB newPdb
  let s := { s with pdbs := s.pdbs.add storedPDB }
  if sameText oldPdb.selector newPdb.selector then s
  else (s.removePDB (getPDBKey newPdb)).addPDBToOwners storedPDB

def deletePDB (pdb : PDB) : PdbStore :=
  let s := s.removePDB (getPDBKey pdb)
  { s with pdbs := s.pdbs.deleteByKey (getPDBKey pdb) }

/-- An item without a selector makes the source panic: `none`. -/
def addOwner (s : PdbStore) (owner : OwnerType × String) (ownerLabels : GoMap String String) :
    Option PdbStore :=
  if s.pdbs.list.any fun pdbItem => pdbItem.pdbSelector.isNone then none
  else
    some
      { owners := s.owners.insert owner
          { ownerLabels := ownerLabels
            pdbs := .ofList ((s.pdbs.list.filter fun pdbItem =>
              pdbItem.selects ownerLabels).map PDBItemImpl.key) }
        pdbs := s.pdbs.mapItems
          (fun pdbItem => if pdbItem.selects ownerLabels then pdbItem.addOwner owner else pdbItem)
          fun pdbItem => by split_ifs <;> rfl }

def deleteOwner (owner : OwnerType × String) : PdbStore :=
  match s.owners.lookup owner with
  | none => s
  | some ownerItem =>
    { owners := s.owners.erase owner
      pdbs := s.pdbs.mapItems
        (fun pdbItem =>
          if pdbItem.key ∈ ownerItem.pdbs then pdbItem.removeOwner owner else pdbItem)
        fun pdbItem => by split_ifs <;> rfl }

/-- Whether the owner's budgets were updated, and their keys in some order. -/
def getPDBsForOwner (o : RangeOrder String) (owner : OwnerType × String) :
    Option (Bool × List String) :=
  (s.owners.lookup owner).map fun ownerItem =>
    (ownerItem.pdbUpdated, o.list ownerItem.pdbs.keys)

section

variable (owner : OwnerType × String)

def getOwnerLabels : GoMap String String :=
  (s.owners.lookup owner).elim ∅ OwnerItem.ownerLabels

def setPDBUpdated : PdbStore :=
  match s.owners.lookup owner with
  | none => s
  | some ownerItem =>
    { s with owners := s.owners.insert owner { ownerItem with pdbUpdated := true } }

def pdbSetForOwner : Finset String :=
  ((s.owners.lookup owner).elim [] fun ownerItem => ownerItem.pdbs.keys).toFinset

def updateOwner (oldLabels newLabels : GoMap String String) : Option PdbStore :=
  if equalMap oldLabels newLabels then some s
  else do
    let s' ← (s.deleteOwner owner).addOwner owner newLabels
    pure (if s'.pdbSetForOwner owner = s.pdbSetForOwner owner then s' else s'.setPDBUpdated owner)

end

def getPDBItemList (o : RangeOrder PDBItemImpl) : List PDBItemImpl :=
  o.list s.pdbs.list

inductive Event
  | addPDB (pdb : PDB)
  | updatePDB (oldPdb newPdb : PDB)
  | deletePDB (pdb : PDB)
  | addOwner (owner : OwnerType × String) (labels : GoMap String String)
  | updateOwner (owner : OwnerType × String) (oldLabels newLabels : GoMap String String)
  | deleteOwner (owner : OwnerType × String)

def step : Event → Option PdbStore
  | .addPDB pdb => some (s.addPDB pdb)
  | .updatePDB oldPdb newPdb => some (s.updatePDB oldPdb newPdb)
  | .deletePDB pdb => some (s.deletePDB pdb)
  | .addOwner owner labels => s.addOwner owner labels
  | .updateOwner owner oldLabels newLabels => s.updateOwner owner oldLabels newLabels
  | .deleteOwner owner => some (s.deleteOwner owner)

/-- The budgets the event stores have valid selectors. -/
def Event.validSelectors : Event → Bool
  | .addPDB pdb => (labelSelectorAsSelector pdb.selector).isSome
  | .updatePDB _ newPdb => (labelSelectorAsSelector newPdb.selector).isSome
  | _ => true

section Views

variable {s s' : PdbStore} {k : String} {owner : OwnerType × String} {labels : GoMap String String}

theorem mem_pdbSetForOwner : k ∈ s.pdbSetForOwner owner ↔
    ∃ ownerItem, s.owners.lookup owner = some ownerItem ∧ k ∈ ownerItem.pdbs := by
  unfold pdbSetForOwner
  cases s.owners.lookup owner with
  | none => simp
  | some ownerItem => simp [AList.mem_keys]

/-- The keys of the stored budgets whose selector matches the labels. -/
def selectedPDBs (s : PdbStore) (labels : GoMap String String) : Finset String :=
  ((s.pdbs.list.filter fun pdbItem => pdbItem.selects labels).map PDBItemImpl.key).toFinset

theorem mem_selectedPDBs : k ∈ s.selectedPDBs labels ↔
    ∃ pdbItem, s.pdbs.getByKey k = some pdbItem ∧ pdbItem.selects labels = true := by
  unfold selectedPDBs
  rw [List.mem_toFinset, List.mem_map]
  constructor
  · rintro ⟨pdbItem, hmem, rfl⟩
    obtain ⟨hmem, hselects⟩ := List.mem_filter.mp hmem
    exact ⟨pdbItem, mem_list_iff.mp hmem, hselects⟩
  · rintro ⟨pdbItem, hget, hselects⟩
    exact ⟨pdbItem, List.mem_filter.mpr ⟨mem_list_of_getByKey hget, hselects⟩, key_of_getByKey hget⟩

theorem map_map_of_eq {α β : Type*} {f : α → α} {view : α → β} (h : ∀ a, view (f a) = view a)
    (a : Option α) : (a.map f).map view = a.map view := by
  cases a <;> simp [h]

section

variable {storedPDB : PDBItemImpl} {selector : Selector}

theorem mem_matchedOwners : owner ∈ s.matchedOwners selector ↔
    ∃ ownerItem, s.owners.lookup owner = some ownerItem ∧
      selector.matches ownerItem.ownerLabels = true := by
  unfold matchedOwners
  rw [List.mem_toFinset, List.mem_map]
  constructor
  · rintro ⟨⟨_, ownerItem⟩, hmem, rfl⟩
    obtain ⟨hmem, hmatches⟩ := List.mem_filter.mp hmem
    exact ⟨ownerItem, AList.mem_lookup_iff.mpr hmem, hmatches⟩
  · rintro ⟨ownerItem, hlookup, hmatches⟩
    exact ⟨⟨owner, ownerItem⟩, List.mem_filter.mpr ⟨AList.mem_lookup_iff.mp hlookup, hmatches⟩, rfl⟩

section

variable (hselector : labelSelectorAsSelector storedPDB.pdb.selector = some selector)
include hselector

theorem lookup_addPDBToOwners (owner : OwnerType × String) :
    (s.addPDBToOwners storedPDB).owners.lookup owner = (s.owners.lookup owner).map fun ownerItem =>
        if selector.matches ownerItem.ownerLabels then ownerItem.addPDB storedPDB.key
        else ownerItem.removePDB storedPDB.key := by
  unfold addPDBToOwners
  rw [hselector]
  exact GoMap.lookup_mapEntries _ _ _

theorem getByKey_addPDBToOwners (k : String) :
    (s.addPDBToOwners storedPDB).pdbs.getByKey k =
      if k = storedPDB.key then some (storedPDB.setSelector selector (s.matchedOwners selector))
      else s.pdbs.getByKey k := by
  unfold addPDBToOwners
  rw [hselector]
  exact getByKey_add _ _ _

theorem mem_pdbSetForOwner_addPDBToOwners :
    k ∈ (s.addPDBToOwners storedPDB).pdbSetForOwner owner ↔
      if k = storedPDB.key then owner ∈ s.matchedOwners selector
      else k ∈ s.pdbSetForOwner owner := by
  rw [mem_pdbSetForOwner, mem_pdbSetForOwner, mem_matchedOwners, lookup_addPDBToOwners hselector]
  cases s.owners.lookup owner with
  | none => simp
  | some ownerItem =>
    by_cases hmatches : selector.matches ownerItem.ownerLabels = true <;>
      by_cases hk : k = storedPDB.key <;>
      simp [hmatches, hk, OwnerItem.addPDB, OwnerItem.removePDB, AList.mem_insert, AList.mem_erase]

end

theorem pdbs_removePDB (s : PdbStore) (pdbKey : String) : (s.removePDB pdbKey).pdbs = s.pdbs := by
  unfold PdbStore.removePDB
  split <;> rfl

theorem mem_pdbSetForOwner_removePDB {pdbKey : String} (hk : k ≠ pdbKey) :
    k ∈ (s.removePDB pdbKey).pdbSetForOwner owner ↔ k ∈ s.pdbSetForOwner owner := by
  unfold removePDB
  cases s.pdbs.getByKey pdbKey with
  | none => rfl
  | some pdbItem =>
    rw [mem_pdbSetForOwner, mem_pdbSetForOwner, GoMap.lookup_mapEntries]
    cases s.owners.lookup owner with
    | none => simp
    | some ownerItem =>
      by_cases howner : owner ∈ pdbItem.owners <;>
        simp [howner, hk, OwnerItem.removePDB, AList.mem_erase]

/-- What an event of a budget never changes of an owner. -/
def facts (ownerItem : OwnerItem) : GoMap String String × Bool :=
  (ownerItem.ownerLabels, ownerItem.pdbUpdated)

theorem facts_addPDBToOwners (storedPDB : PDBItemImpl) (owner : OwnerType × String) :
    ((s.addPDBToOwners storedPDB).owners.lookup owner).map facts =
      (s.owners.lookup owner).map facts := by
  cases hselector : labelSelectorAsSelector storedPDB.pdb.selector with
  | none =>
    unfold addPDBToOwners
    rw [hselector]
  | some selector =>
    rw [lookup_addPDBToOwners hselector]
    exact map_map_of_eq (fun _ => by split_ifs <;> rfl) _

theorem facts_removePDB (pdbKey : String) (owner : OwnerType × String) :
    ((s.removePDB pdbKey).owners.lookup owner).map facts = (s.owners.lookup owner).map facts := by
  unfold removePDB
  cases s.pdbs.getByKey pdbKey with
  | none => rfl
  | some pdbItem =>
    rw [GoMap.lookup_mapEntries]
    exact map_map_of_eq (fun _ => by split_ifs <;> rfl) _

theorem facts_updatePDB (oldPdb newPdb : PDB) (owner : OwnerType × String) :
    ((s.updatePDB oldPdb newPdb).owners.lookup owner).map facts =
      (s.owners.lookup owner).map facts := by
  unfold updatePDB
  split_ifs
  · rfl
  · rw [facts_addPDBToOwners, facts_removePDB]

theorem ownerLabels_of_facts (h : (s'.owners.lookup owner).map facts =
      (s.owners.lookup owner).map facts) :
    (s'.owners.lookup owner).map OwnerItem.ownerLabels =
      (s.owners.lookup owner).map OwnerItem.ownerLabels := by
  have hfst := congrArg (Option.map Prod.fst) h
  rwa [map_map, map_map] at hfst

end

section

/-- What an event of an owner never changes of a budget. -/
def spec (pdbItem : PDBItemImpl) : PDB × Option Selector := (pdbItem.pdb, pdbItem.pdbSelector)

theorem addOwner_eq_some (h : ∀ k pdbItem, s.pdbs.getByKey k = some pdbItem →
    pdbItem.pdbSelector.isSome) (owner : OwnerType × String) (labels : GoMap String String) :
    ∃ s', s.addOwner owner labels = some s' := by
  unfold addOwner
  rw [if_neg]
  · exact ⟨_, rfl⟩
  · rw [Bool.not_eq_true, List.any_eq_false]
    intro pdbItem hmem
    simpa [isSome_iff_ne_none] using h _ pdbItem (mem_list_iff.mp hmem)

section

variable (hs' : s.addOwner owner labels = some s')

include hs'

theorem lookup_addOwner (owner' : OwnerType × String) : s'.owners.lookup owner' =
      if owner' = owner then some
        { ownerLabels := labels
          pdbs := .ofList ((s.pdbs.list.filter fun pdbItem =>
            pdbItem.selects labels).map PDBItemImpl.key) }
      else s.owners.lookup owner' := by
  unfold addOwner at hs'
  split_ifs at hs'
  rw [← some_inj.mp hs']
  exact GoMap.lookup_insert' _ _ _ _

theorem getByKey_addOwner (k : String) : s'.pdbs.getByKey k = (s.pdbs.getByKey k).map fun pdbItem =>
      if pdbItem.selects labels then pdbItem.addOwner owner else pdbItem := by
  unfold addOwner at hs'
  split_ifs at hs'
  rw [← some_inj.mp hs']
  rw [getByKey_mapItems]

theorem pdbSetForOwner_addOwner (owner' : OwnerType × String) : s'.pdbSetForOwner owner' =
      if owner' = owner then s.selectedPDBs labels else s.pdbSetForOwner owner' := by
  ext k
  rw [mem_pdbSetForOwner, lookup_addOwner hs']
  split_ifs with howner
  · simp [selectedPDBs, GoSet.mem_ofList]
  · rw [mem_pdbSetForOwner]

theorem spec_addOwner (k : String) :
    (s'.pdbs.getByKey k).map spec = (s.pdbs.getByKey k).map spec := by
  rw [getByKey_addOwner hs']
  exact map_map_of_eq (fun _ => by split_ifs <;> rfl) _

end

variable (owner) (owner' : OwnerType × String)

theorem lookup_deleteOwner :
    (s.deleteOwner owner).owners.lookup owner' =
      if owner' = owner then none else s.owners.lookup owner' := by
  unfold deleteOwner
  cases hlookup : s.owners.lookup owner with
  | none =>
    split_ifs with howner
    · rw [howner, hlookup]
    · rfl
  | some ownerItem => exact GoMap.lookup_erase' _ _ _

theorem pdbSetForOwner_deleteOwner :
    (s.deleteOwner owner).pdbSetForOwner owner' =
      if owner' = owner then ∅ else s.pdbSetForOwner owner' := by
  unfold pdbSetForOwner
  rw [lookup_deleteOwner]
  split_ifs <;> rfl

theorem getByKey_deleteOwner (k : String) :
    (s.deleteOwner owner).pdbs.getByKey k = (s.pdbs.getByKey k).map fun pdbItem =>
      if k ∈ s.pdbSetForOwner owner then pdbItem.removeOwner owner else pdbItem := by
  have hmem : k ∈ s.pdbSetForOwner owner ↔
      ∃ ownerItem, s.owners.lookup owner = some ownerItem ∧ k ∈ ownerItem.pdbs :=
    mem_pdbSetForOwner
  unfold deleteOwner
  cases hlookup : s.owners.lookup owner with
  | none =>
    rw [hlookup] at hmem
    simp [hmem]
  | some ownerItem =>
    rw [hlookup] at hmem
    simp only [some_inj, exists_eq_left'] at hmem
    simp only [hmem]
    rw [getByKey_mapItems]
    cases hget : s.pdbs.getByKey k with
    | none => rfl
    | some pdbItem => rw [map_some, map_some, key_of_getByKey hget]

theorem spec_deleteOwner (k : String) :
    ((s.deleteOwner owner).pdbs.getByKey k).map spec = (s.pdbs.getByKey k).map spec := by
  rw [getByKey_deleteOwner]
  exact map_map_of_eq (fun _ => by split_ifs <;> rfl) _

theorem selects_eq_of_spec {pdbItem pdbItem' : PDBItemImpl} (h : spec pdbItem = spec pdbItem')
    (labels : GoMap String String) : pdbItem.selects labels = pdbItem'.selects labels := by
  unfold PDBItemImpl.selects
  rw [show pdbItem.pdbSelector = pdbItem'.pdbSelector from congrArg Prod.snd h]

theorem selectedPDBs_congr (h : ∀ k, (s'.pdbs.getByKey k).map spec = (s.pdbs.getByKey k).map spec)
    (labels : GoMap String String) : s'.selectedPDBs labels = s.selectedPDBs labels := by
  ext k
  have hk := h k
  rw [mem_selectedPDBs, mem_selectedPDBs]
  cases hget : s.pdbs.getByKey k with
  | none =>
    rw [hget, map_none, map_eq_none_iff] at hk
    rw [hk]
  | some pdbItem =>
    rw [hget, map_some, map_eq_some_iff] at hk
    obtain ⟨pdbItem', hget', hspec⟩ := hk
    simp [hget', selects_eq_of_spec hspec]

theorem lookup_setPDBUpdated :
    (s.setPDBUpdated owner).owners.lookup owner' = (s.owners.lookup owner').map fun ownerItem =>
      { ownerItem with pdbUpdated := ownerItem.pdbUpdated || owner' = owner } := by
  unfold setPDBUpdated
  cases hlookup : s.owners.lookup owner with
  | none =>
    by_cases howner : owner' = owner
    · rw [howner, hlookup]
      rfl
    · simp [howner]
  | some ownerItem =>
    rw [GoMap.lookup_insert']
    split_ifs with howner
    · rw [howner, hlookup]
      simp
    · simp [howner]

theorem pdbSetForOwner_setPDBUpdated :
    (s.setPDBUpdated owner).pdbSetForOwner owner' = s.pdbSetForOwner owner' := by
  unfold pdbSetForOwner
  rw [lookup_setPDBUpdated]
  cases s.owners.lookup owner' <;> rfl

theorem pdbs_setPDBUpdated : (s.setPDBUpdated owner).pdbs = s.pdbs := by
  unfold setPDBUpdated
  split <;> rfl

end

end Views

section Indexed

variable {s s' : PdbStore} {k : String}

/-- An owner has the budget with this key if the budget selects its labels, and then the budget
lists the owner. -/
structure IndexedAt (s : PdbStore) (k : String) : Prop where
  mem_iff : ∀ owner ownerItem, s.owners.lookup owner = some ownerItem →
    (k ∈ ownerItem.pdbs ↔
      ∃ pdbItem, s.pdbs.getByKey k = some pdbItem ∧ pdbItem.selects ownerItem.ownerLabels = true)
  listed : ∀ owner ownerItem, s.owners.lookup owner = some ownerItem → k ∈ ownerItem.pdbs →
    ∀ pdbItem, s.pdbs.getByKey k = some pdbItem → owner ∈ pdbItem.owners

def Indexed (s : PdbStore) : Prop := ∀ k, s.IndexedAt k

/-- The same in terms of what the owner has and what selects its labels. -/
theorem indexedAt_iff : s.IndexedAt k ↔ ∀ owner labels,
    (s.owners.lookup owner).map OwnerItem.ownerLabels = some labels →
      (k ∈ s.pdbSetForOwner owner ↔ k ∈ s.selectedPDBs labels) ∧
        (k ∈ s.pdbSetForOwner owner →
          ∀ pdbItem, s.pdbs.getByKey k = some pdbItem → owner ∈ pdbItem.owners) := by
  have hset {owner ownerItem} (hlookup : s.owners.lookup owner = some ownerItem) :
      k ∈ s.pdbSetForOwner owner ↔ k ∈ ownerItem.pdbs := by
    simp [mem_pdbSetForOwner, hlookup]
  constructor
  · intro h owner labels howner
    obtain ⟨ownerItem, hlookup, rfl⟩ := map_eq_some_iff.mp howner
    rw [hset hlookup, mem_selectedPDBs]
    exact ⟨h.mem_iff owner ownerItem hlookup, h.listed owner ownerItem hlookup⟩
  · intro h
    have hat {owner ownerItem} (hlookup : s.owners.lookup owner = some ownerItem) :=
      h owner _ (congrArg (Option.map OwnerItem.ownerLabels) hlookup)
    refine ⟨fun owner ownerItem hlookup => ?_, fun owner ownerItem hlookup hk => ?_⟩
    · rw [← hset hlookup, ← mem_selectedPDBs]
      exact (hat hlookup).1
    · exact (hat hlookup).2 ((hset hlookup).mpr hk)

theorem IndexedAt.congr (h : s.IndexedAt k) (hget : s'.pdbs.getByKey k = s.pdbs.getByKey k)
    (hfacts : ∀ owner, (s'.owners.lookup owner).map OwnerItem.ownerLabels =
      (s.owners.lookup owner).map OwnerItem.ownerLabels)
    (hset : ∀ owner, k ∈ s'.pdbSetForOwner owner ↔ k ∈ s.pdbSetForOwner owner) :
    s'.IndexedAt k := by
  rw [indexedAt_iff] at h ⊢
  intro owner labels howner
  rw [hfacts] at howner
  rw [hset, mem_selectedPDBs, hget, ← mem_selectedPDBs]
  exact h owner labels howner

theorem indexed_empty : Indexed {} := fun k =>
  ⟨fun owner ownerItem h => by simp at h, fun owner ownerItem h => by simp at h⟩

theorem key_storedPDB (s : PdbStore) (pdb : PDB) : (s.storedPDB pdb).key = getPDBKey pdb := by
  unfold PdbStore.storedPDB
  split <;> rfl

theorem pdb_storedPDB (s : PdbStore) (pdb : PDB) : (s.storedPDB pdb).pdb = pdb := by
  unfold PdbStore.storedPDB
  split <;> rfl

theorem getByKey_add_storedPDB {pdb : PDB} {pdbItem : PDBItemImpl}
    (hget : (s.pdbs.add (s.storedPDB pdb)).getByKey k = some pdbItem) :
    (∃ old, s.pdbs.getByKey k = some old ∧ pdbItem.pdbSelector = old.pdbSelector ∧
        pdbItem.owners = old.owners) ∨ (s.pdbs.getByKey k = none ∧ pdbItem.pdbSelector = none) := by
  rw [getByKey_add, key_storedPDB] at hget
  split_ifs at hget with hk
  · subst hk
    rw [some_inj] at hget
    subst hget
    unfold PdbStore.storedPDB
    cases s.pdbs.getByKey (getPDBKey pdb) with
    | some old => exact Or.inl ⟨old, rfl, rfl, rfl⟩
    | none => exact Or.inr ⟨rfl, rfl⟩
  · exact Or.inl ⟨pdbItem, hget, rfl, rfl⟩

theorem exists_getByKey_add_storedPDB (pdb : PDB) {old : PDBItemImpl}
    (hold : s.pdbs.getByKey k = some old) :
    ∃ pdbItem, (s.pdbs.add (s.storedPDB pdb)).getByKey k = some pdbItem ∧
      pdbItem.pdbSelector = old.pdbSelector := by
  rw [getByKey_add, key_storedPDB]
  split_ifs with hk
  · subst hk
    refine ⟨_, rfl, ?_⟩
    unfold PdbStore.storedPDB
    rw [hold]
  · exact ⟨old, hold, rfl⟩

theorem IndexedAt.storedPDB (h : s.IndexedAt k) (pdb : PDB) :
    IndexedAt { s with pdbs := s.pdbs.add (s.storedPDB pdb) } k := by
  constructor
  · intro owner ownerItem howner
    rw [h.mem_iff owner ownerItem howner]
    constructor
    · rintro ⟨old, hold, hselects⟩
      obtain ⟨pdbItem, hget, hselector⟩ := exists_getByKey_add_storedPDB pdb hold
      refine ⟨pdbItem, hget, ?_⟩
      unfold PDBItemImpl.selects at hselects ⊢
      rwa [hselector]
    · rintro ⟨pdbItem, hget, hselects⟩
      unfold PDBItemImpl.selects at hselects
      rcases getByKey_add_storedPDB hget with ⟨old, hold, hselector, -⟩ | ⟨-, hselector⟩
      · refine ⟨old, hold, ?_⟩
        unfold PDBItemImpl.selects
        rwa [← hselector]
      · rw [hselector] at hselects
        cases hselects
  · intro owner ownerItem howner hk pdbItem hget
    obtain ⟨old, hold, -⟩ := (h.mem_iff owner ownerItem howner).mp hk
    rcases getByKey_add_storedPDB hget with ⟨old', hold', -, howners⟩ | ⟨hnone, -⟩
    · rw [howners]
      exact h.listed owner ownerItem howner hk old' hold'
    · rw [hold] at hnone
      cases hnone

variable {pdbKey : String}

theorem indexed_addPDBToOwners {storedPDB : PDBItemImpl} (h : ∀ k ≠ storedPDB.key, s.IndexedAt k)
    (hvalid : (labelSelectorAsSelector storedPDB.pdb.selector).isSome) :
    (s.addPDBToOwners storedPDB).Indexed := by
  obtain ⟨selector, hselector⟩ := isSome_iff_exists.mp hvalid
  have hfacts := fun owner => ownerLabels_of_facts (facts_addPDBToOwners (s := s) storedPDB owner)
  intro k
  by_cases hk : k = storedPDB.key
  · rw [indexedAt_iff]
    intro owner labels howner
    rw [hfacts] at howner
    obtain ⟨ownerItem, hlookup, rfl⟩ := map_eq_some_iff.mp howner
    rw [mem_pdbSetForOwner_addPDBToOwners hselector, mem_selectedPDBs,
      getByKey_addPDBToOwners hselector, if_pos hk, if_pos hk]
    refine ⟨?_, fun hmem pdbItem hitem => ?_⟩
    · simp [mem_matchedOwners, hlookup, PDBItemImpl.selects, PDBItemImpl.setSelector]
    · rw [← some_inj.mp hitem]
      exact hmem
  · refine (h k hk).congr ?_ hfacts fun owner => ?_
    · rw [getByKey_addPDBToOwners hselector, if_neg hk]
    · rw [mem_pdbSetForOwner_addPDBToOwners hselector, if_neg hk]

theorem IndexedAt.removePDB (h : s.IndexedAt k) (hk : k ≠ pdbKey) :
    (s.removePDB pdbKey).IndexedAt k :=
  h.congr (by rw [pdbs_removePDB]) (fun owner => ownerLabels_of_facts (facts_removePDB _ owner))
    fun _ => mem_pdbSetForOwner_removePDB hk

/-- No owner has a budget that was removed: each one that had it is listed. -/
theorem IndexedAt.notMem_removePDB (h : s.IndexedAt k) (owner : OwnerType × String) :
    k ∉ (s.removePDB k).pdbSetForOwner owner := by
  rw [mem_pdbSetForOwner]
  rintro ⟨ownerItem, hlookup, hk⟩
  unfold PdbStore.removePDB at hlookup
  cases hget : s.pdbs.getByKey k with
  | none =>
    rw [hget] at hlookup
    obtain ⟨pdbItem, hpdbItem, -⟩ := (h.mem_iff owner ownerItem hlookup).mp hk
    rw [hget] at hpdbItem
    cases hpdbItem
  | some pdbItem =>
    rw [hget] at hlookup
    rw [GoMap.lookup_mapEntries] at hlookup
    obtain ⟨old, hold, rfl⟩ := map_eq_some_iff.mp hlookup
    split_ifs at hk with hlisted
    · exact (AList.mem_erase.mp hk).1 rfl
    · exact hlisted (h.listed owner old hold hk pdbItem hget)

variable (h : s.Indexed)
include h

theorem Indexed.addPDB {pdb : PDB} (hvalid : (labelSelectorAsSelector pdb.selector).isSome) :
    (s.addPDB pdb).Indexed := by
  apply indexed_addPDBToOwners
  · exact fun k _ => (h k).storedPDB pdb
  · rw [pdb_storedPDB]
    exact hvalid

theorem Indexed.updatePDB (oldPdb : PDB) {newPdb : PDB}
    (hvalid : (labelSelectorAsSelector newPdb.selector).isSome) :
    (s.updatePDB oldPdb newPdb).Indexed := by
  unfold PdbStore.updatePDB
  split_ifs
  · exact fun k => (h k).storedPDB newPdb
  · apply indexed_addPDBToOwners
    · intro k hk
      rw [key_storedPDB] at hk
      exact ((h k).storedPDB newPdb).removePDB hk
    · rw [pdb_storedPDB]
      exact hvalid

theorem Indexed.deletePDB (pdb : PDB) : (s.deletePDB pdb).Indexed := by
  intro k
  unfold PdbStore.deletePDB
  simp only [pdbs_removePDB]
  by_cases hk : k = getPDBKey pdb
  · subst hk
    rw [indexedAt_iff]
    intro owner labels _
    have hnot := (h (getPDBKey pdb)).notMem_removePDB owner
    refine ⟨iff_of_false hnot ?_, fun hmem => absurd hmem hnot⟩
    simp [mem_selectedPDBs]
  · exact (h k).congr (getByKey_deleteByKey_of_ne _ hk)
      (fun owner => ownerLabels_of_facts (facts_removePDB _ owner))
      fun _ => mem_pdbSetForOwner_removePDB hk

theorem Indexed.addOwner {owner : OwnerType × String} {ownerLabels : GoMap String String}
    (hs' : s.addOwner owner ownerLabels = some s') : s'.Indexed := by
  intro k
  rw [indexedAt_iff]
  intro owner' labels howner
  rw [lookup_addOwner hs'] at howner
  rw [pdbSetForOwner_addOwner hs', selectedPDBs_congr (spec_addOwner hs')]
  simp only [getByKey_addOwner hs']
  by_cases heq : owner' = owner
  · rw [if_pos heq] at howner ⊢
    obtain rfl : ownerLabels = labels := some_inj.mp howner
    refine ⟨Iff.rfl, fun hk pdbItem' hget => ?_⟩
    obtain ⟨pdbItem, hpdbItem, hselects⟩ := mem_selectedPDBs.mp hk
    rw [hpdbItem, map_some, if_pos hselects, some_inj] at hget
    rw [← hget, heq]
    exact Finset.mem_insert_self _ _
  · rw [if_neg heq] at howner ⊢
    obtain ⟨hmem, hlisted⟩ := indexedAt_iff.mp (h k) owner' labels howner
    refine ⟨hmem, fun hk pdbItem' hget => ?_⟩
    obtain ⟨pdbItem, hpdbItem, rfl⟩ := map_eq_some_iff.mp hget
    split_ifs
    · exact Finset.mem_insert_of_mem (hlisted hk pdbItem hpdbItem)
    · exact hlisted hk pdbItem hpdbItem

theorem Indexed.deleteOwner (owner : OwnerType × String) : (s.deleteOwner owner).Indexed := by
  intro k
  rw [indexedAt_iff]
  intro owner' labels howner
  rw [lookup_deleteOwner] at howner
  by_cases heq : owner' = owner
  · rw [if_pos heq] at howner
    cases howner
  · rw [if_neg heq] at howner
    rw [pdbSetForOwner_deleteOwner, selectedPDBs_congr (spec_deleteOwner owner), if_neg heq]
    obtain ⟨hmem, hlisted⟩ := indexedAt_iff.mp (h k) owner' labels howner
    refine ⟨hmem, fun hk pdbItem' hget => ?_⟩
    rw [getByKey_deleteOwner] at hget
    obtain ⟨pdbItem, hpdbItem, rfl⟩ := map_eq_some_iff.mp hget
    split_ifs
    · exact Finset.mem_erase.mpr ⟨heq, hlisted hk pdbItem hpdbItem⟩
    · exact hlisted hk pdbItem hpdbItem

theorem Indexed.setPDBUpdated (owner : OwnerType × String) : (s.setPDBUpdated owner).Indexed := by
  refine fun k => (h k).congr (by rw [pdbs_setPDBUpdated]) (fun owner' => ?_) fun owner' => ?_
  · rw [lookup_setPDBUpdated, map_map]
    rfl
  · rw [pdbSetForOwner_setPDBUpdated]

theorem Indexed.updateOwner {owner : OwnerType × String} {oldLabels newLabels : GoMap String String}
    (hs' : s.updateOwner owner oldLabels newLabels = some s') : s'.Indexed := by
  unfold PdbStore.updateOwner at hs'
  split_ifs at hs' with hequal
  · rw [some_inj] at hs'
    exact hs' ▸ h
  · obtain ⟨added, hadded, hs'⟩ := bind_eq_some_iff.mp hs'
    have hindexed := (h.deleteOwner owner).addOwner hadded
    rw [pure_def, some_inj] at hs'
    subst hs'
    split_ifs
    · exact hindexed
    · exact hindexed.setPDBUpdated owner

theorem Indexed.step {event : Event} (hvalid : event.validSelectors = true)
    (hs' : s.step event = some s') : s'.Indexed := by
  cases event with
  | addPDB pdb => exact some_inj.mp hs' ▸ h.addPDB hvalid
  | updatePDB oldPdb newPdb => exact some_inj.mp hs' ▸ h.updatePDB oldPdb hvalid
  | deletePDB pdb => exact some_inj.mp hs' ▸ h.deletePDB pdb
  | addOwner owner labels => exact h.addOwner hs'
  | updateOwner owner oldLabels newLabels => exact h.updateOwner hs'
  | deleteOwner owner => exact some_inj.mp hs' ▸ h.deleteOwner owner

omit h

theorem indexed_of_events {events : List Event}
    (hvalid : ∀ event ∈ events, event.validSelectors = true) {s : PdbStore}
    (hs : events.foldlM step ({} : PdbStore) = some s) : s.Indexed := by
  apply of_foldlM_eq_some events indexed_empty ?_ hs
  intro done event rest s s' hevents hindexed hs'
  exact hindexed.step (hvalid event (by simp [hevents])) hs'

end Indexed

end PdbStore

end GodelScheduler.SchedulerCache
