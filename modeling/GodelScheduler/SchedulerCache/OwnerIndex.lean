import GodelScheduler.SchedulerCache.PdbStore

/-!
# Budgets and owners, from both sides

A budget lists the owners it was matched with and an owner the budgets that match it.
Over events in the order informers deliver them, each list is what the delivered
objects say, provided an update of an owner is not taken for no change: `equalMap`
reads a missing label as an empty one, so it does not tell apart a label with an empty
value from another such label.

The update of an owner deletes it and adds it again, and raises its flag only if this
update changed its budgets. So a flag that is up comes down at the next update that
does not change them.
-/

namespace GodelScheduler.SchedulerCache

open Library Binder.Preemption KeyedStore GoMap Option

section

/-- Two maps of labels with the same values. -/
def SameLabels (labels labels' : GoMap String String) : Prop :=
  ∀ key, labels.lookup key = labels'.lookup key

theorem SameLabels.matches_eq {labels labels' : GoMap String String}
    (h : SameLabels labels labels') (selector : Selector) :
    selector.matches labels = selector.matches labels' := by
  have hreq : ∀ r : Requirement, r.matches labels = r.matches labels' := by
    intro r
    unfold Requirement.matches
    rw [h r.key]
  cases selector with
  | nothing => rfl
  | requirements rs => simp only [Selector.matches, hreq]

/-- The requirement that a label has its value. -/
def labelRequirement (e : Sigma fun _ : String => String) : Requirement := ⟨e.1, .opIn, [e.2]⟩

/-- The labels of a selector are always valid requirements, so only its expressions can fail. -/
theorem labelSelectorAsSelector_some (ps : LabelSelector) :
    labelSelectorAsSelector (some ps) =
      (ps.matchExpressions.mapM fun expr : LabelSelectorRequirement => do
        newRequirement expr.key (← expr.operator) expr.values).map fun expressions =>
          .requirements (ps.matchLabels.entries.map labelRequirement ++ expressions) := by
  have hlabels : ∀ l : List (Sigma fun _ : String => String),
      (l.mapM fun e => newRequirement e.1 .opIn [e.2]) = some (l.map labelRequirement) := by
    intro l
    induction l with
    | nil => rfl
    | cons e l ih =>
      rw [List.mapM_cons, ih]
      rfl
  unfold labelSelectorAsSelector
  simp only
  split_ifs with hempty
  · have hlen : ps.matchLabels.len = 0 := by omega
    have hkeys : ps.matchLabels.entries = [] := by
      simpa [GoMap.len, AList.keys, List.keys] using hlen
    have hexprs : ps.matchExpressions = [] := List.eq_nil_of_length_eq_zero (by omega)
    rw [hkeys, hexprs]
    rfl
  · rw [hlabels, map_eq_bind]
    rfl

theorem matches_of_sameText {ps ps' : Option LabelSelector} (h : sameText ps ps' = true)
    {selector selector' : Selector} (hs : labelSelectorAsSelector ps = some selector)
    (hs' : labelSelectorAsSelector ps' = some selector') (labels : GoMap String String) :
    selector.matches labels = selector'.matches labels := by
  match ps, ps' with
  | none, none => rw [some_inj.mp (hs.symm.trans hs')]
  | none, some _ => cases h
  | some _, none => cases h
  | some ps, some ps' =>
    simp only [sameText, decide_eq_true_eq] at h
    obtain ⟨hperm, hexprs⟩ := h
    rw [labelSelectorAsSelector_some, map_eq_some_iff] at hs hs'
    rw [hexprs] at hs
    obtain ⟨expressions, hexpressions, rfl⟩ := hs
    obtain ⟨expressions', hexpressions', rfl⟩ := hs'
    obtain rfl := some_inj.mp (hexpressions.symm.trans hexpressions')
    exact ((hperm.map labelRequirement).append_right expressions).all_eq

end

variable {labels : GoMap String String} {pdb : PDB}

namespace PdbStore

variable {s s' : PdbStore} {k : String} {owner : OwnerType × String}

section

def getOwnersForPDB (s : PdbStore) (key : String) (ownerType : OwnerType) : Finset String :=
  (((s.pdbs.getByKey key).elim ∅ PDBItemImpl.owners).filter fun owner =>
    owner.1 = ownerType).image Prod.snd

theorem mem_getOwnersForPDB : owner.2 ∈ s.getOwnersForPDB k owner.1 ↔
    ∃ pdbItem, s.pdbs.getByKey k = some pdbItem ∧ owner ∈ pdbItem.owners := by
  unfold getOwnersForPDB
  cases s.pdbs.getByKey k with
  | none => simp
  | some pdbItem =>
    simp only [elim_some, Finset.mem_image, Finset.mem_filter, some_inj,
      exists_eq_left']
    constructor
    · rintro ⟨owner', ⟨hmem, htype⟩, hkey⟩
      rwa [Prod.ext htype hkey] at hmem
    · intro hmem
      exact ⟨owner, ⟨hmem, rfl⟩, rfl⟩

end

section

/-- The budget with this key lists only owners that have it. -/
def MutualAt (s : PdbStore) (k : String) : Prop :=
  ∀ pdbItem, s.pdbs.getByKey k = some pdbItem → ∀ owner ∈ pdbItem.owners,
    k ∈ s.pdbSetForOwner owner

theorem mutual_addPDBToOwners {storedPDB : PDBItemImpl} {selector : Selector}
    (h : ∀ k ≠ storedPDB.key, s.MutualAt k)
    (hselector : labelSelectorAsSelector storedPDB.pdb.selector = some selector) (k : String) :
    (s.addPDBToOwners storedPDB).MutualAt k := by
  intro pdbItem hget owner howner
  rw [getByKey_addPDBToOwners hselector] at hget
  rw [mem_pdbSetForOwner_addPDBToOwners hselector]
  split_ifs at hget ⊢ with hk
  · rw [← some_inj.mp hget] at howner
    exact howner
  · exact h k hk pdbItem hget owner howner

theorem MutualAt.removePDB (h : s.MutualAt k) {pdbKey : String} (hk : k ≠ pdbKey) :
    (s.removePDB pdbKey).MutualAt k := by
  intro pdbItem hget owner howner
  rw [pdbs_removePDB] at hget
  rw [mem_pdbSetForOwner_removePDB hk]
  exact h pdbItem hget owner howner

theorem MutualAt.storedPDB (h : s.MutualAt k)
    (hk : k = getPDBKey pdb → (s.pdbs.getByKey k).isSome) :
    MutualAt { s with pdbs := s.pdbs.add (s.storedPDB pdb) } k := by
  intro pdbItem hget owner howner
  rcases getByKey_add_storedPDB hget with ⟨old, hold, -, howners⟩ | ⟨hnone, -⟩
  · rw [howners] at howner
    exact h old hold owner howner
  · have hne : k ≠ getPDBKey pdb := fun heq => by simpa [hnone] using hk heq
    rw [getByKey_add_of_ne _ (by rw [key_storedPDB]; exact hne), hnone] at hget
    cases hget

theorem MutualAt.deletePDB (h : ∀ k, s.MutualAt k) (pdb : PDB) (k : String) :
    (s.deletePDB pdb).MutualAt k := by
  intro pdbItem hget owner howner
  unfold PdbStore.deletePDB at hget ⊢
  simp only [getByKey_deleteByKey] at hget
  split_ifs at hget with hk
  exact (h k).removePDB hk pdbItem hget owner howner

theorem MutualAt.addOwner (h : s.MutualAt k) (habsent : s.owners.lookup owner = none)
    (hs' : s.addOwner owner labels = some s') : s'.MutualAt k := by
  intro pdbItem' hget owner' howner
  rw [getByKey_addOwner hs', map_eq_some_iff] at hget
  obtain ⟨pdbItem, hget, rfl⟩ := hget
  rw [pdbSetForOwner_addOwner hs']
  have hcases : owner' = owner ∧ pdbItem.selects labels = true ∨ owner' ∈ pdbItem.owners := by
    split_ifs at howner with hselects
    · rcases Finset.mem_insert.mp howner with heq | hmem
      · exact .inl ⟨heq, hselects⟩
      · exact .inr hmem
    · exact .inr howner
  rcases hcases with ⟨rfl, hselects⟩ | hmem
  · rw [if_pos rfl]
    exact mem_selectedPDBs.mpr ⟨pdbItem, hget, hselects⟩
  · have hold := h pdbItem hget owner' hmem
    rw [if_neg]
    · exact hold
    · -- an owner that is not there is in no list
      rintro rfl
      obtain ⟨ownerItem, hlookup, -⟩ := mem_pdbSetForOwner.mp hold
      rw [habsent] at hlookup
      cases hlookup

theorem MutualAt.deleteOwner (h : s.MutualAt k) (owner : OwnerType × String) :
    (s.deleteOwner owner).MutualAt k := by
  intro pdbItem' hget owner' howner
  rw [getByKey_deleteOwner, map_eq_some_iff] at hget
  obtain ⟨pdbItem, hget, rfl⟩ := hget
  rw [pdbSetForOwner_deleteOwner]
  split_ifs at howner with hmem
  · rw [PDBItemImpl.removeOwner, Finset.mem_erase] at howner
    rw [if_neg howner.1]
    exact h pdbItem hget owner' howner.2
  · have hold := h pdbItem hget owner' howner
    rw [if_neg]
    · exact hold
    · rintro rfl
      exact hmem hold

theorem MutualAt.setPDBUpdated (h : s.MutualAt k) (owner : OwnerType × String) :
    (s.setPDBUpdated owner).MutualAt k := by
  intro pdbItem hget owner' howner
  rw [pdbs_setPDBUpdated] at hget
  rw [pdbSetForOwner_setPDBUpdated]
  exact h pdbItem hget owner' howner

end

end PdbStore

/-- The objects the informers have delivered and not deleted again. -/
structure Delivered where
  pdbs : GoMap String PDB := ∅
  owners : GoMap (OwnerType × String) (GoMap String String) := ∅

namespace Delivered

open PdbStore

def deliver (d : Delivered) : Event → Delivered
  | .addPDB pdb => { d with pdbs := d.pdbs.insert (getPDBKey pdb) pdb }
  | .updatePDB _ newPdb => { d with pdbs := d.pdbs.insert (getPDBKey newPdb) newPdb }
  | .deletePDB pdb => { d with pdbs := d.pdbs.erase (getPDBKey pdb) }
  | .addOwner owner labels => { d with owners := d.owners.insert owner labels }
  | .updateOwner owner _ newLabels => { d with owners := d.owners.insert owner newLabels }
  | .deleteOwner owner => { d with owners := d.owners.erase owner }

/-- An object is added, then updated from what was delivered last, then deleted. -/
def InOrder (d : Delivered) : Event → Prop
  | .addPDB pdb => d.pdbs.lookup (getPDBKey pdb) = none
  | .updatePDB oldPdb newPdb => d.pdbs.lookup (getPDBKey newPdb) = some oldPdb
  | .deletePDB pdb => (d.pdbs.lookup (getPDBKey pdb)).isSome
  | .addOwner owner _ => d.owners.lookup owner = none
  | .updateOwner owner oldLabels _ => d.owners.lookup owner = some oldLabels
  | .deleteOwner owner => (d.owners.lookup owner).isSome

/-- The selector of a delivered budget matches the labels of a delivered owner. -/
def Matches (d : Delivered) (owner : OwnerType × String) (k : String) : Prop :=
  ∃ pdb labels selector, d.pdbs.lookup k = some pdb ∧ d.owners.lookup owner = some labels ∧
    labelSelectorAsSelector pdb.selector = some selector ∧ selector.matches labels = true

end Delivered

namespace PdbStore

/-- A budget is listed under an owner if and only if the owner is listed under the budget, and if
and only if both are there and the selector matches the labels. -/
def IndexExact (s : PdbStore) (d : Delivered) : Prop :=
  ∀ (owner : OwnerType × String) (k : String),
    (k ∈ s.pdbSetForOwner owner ↔ owner.2 ∈ s.getOwnersForPDB k owner.1) ∧
      (k ∈ s.pdbSetForOwner owner ↔ d.Matches owner k)

/-- An update of an owner that `equalMap` takes for no change is none. -/
def Event.TellsLabelsApart : Event → Prop
  | .updateOwner _ oldLabels newLabels => equalMap oldLabels newLabels = true →
      SameLabels oldLabels newLabels
  | _ => True

/-- The selector kept in the item is the one of the budget. -/
def KeepsSelector (pdb : PDB) (kept : Option Selector) : Prop :=
  ∃ stored selector, kept = some stored ∧ labelSelectorAsSelector pdb.selector = some selector ∧
    ∀ labels, stored.matches labels = selector.matches labels

/-- The store has what was delivered. -/
structure Synced (d : Delivered) (s : PdbStore) : Prop where
  indexed : s.Indexed
  backed : ∀ k, s.MutualAt k
  pdbs : ∀ k, (s.pdbs.getByKey k).map PDBItemImpl.pdb = d.pdbs.lookup k
  selector : ∀ k pdbItem, s.pdbs.getByKey k = some pdbItem →
    KeepsSelector pdbItem.pdb pdbItem.pdbSelector
  labels : ∀ owner, Option.Rel SameLabels
    ((s.owners.lookup owner).map OwnerItem.ownerLabels) (d.owners.lookup owner)

variable {s s' : PdbStore} {d : Delivered} {k : String} {owner : OwnerType × String}

theorem synced_empty : Synced {} {} where
  indexed := indexed_empty
  backed k pdbItem h := by simp at h
  pdbs k := by simp
  selector k pdbItem h := by simp at h
  labels owner := by simp

theorem Synced.delivered_of_lookup (h : Synced d s) {ownerItem : OwnerItem}
    (hlookup : s.owners.lookup owner = some ownerItem) :
    ∃ labels, d.owners.lookup owner = some labels ∧ SameLabels ownerItem.ownerLabels labels := by
  have hlabels := h.labels owner
  rw [hlookup, map_some] at hlabels
  generalize d.owners.lookup owner = delivered at hlabels ⊢
  cases hlabels with
  | some hlabels => exact ⟨_, rfl, hlabels⟩

theorem Synced.lookup_of_delivered (h : Synced d s)
    (hlookup : d.owners.lookup owner = some labels) :
    ∃ ownerItem, s.owners.lookup owner = some ownerItem ∧
      SameLabels ownerItem.ownerLabels labels := by
  have hlabels := h.labels owner
  rw [hlookup] at hlabels
  cases hitem : s.owners.lookup owner with
  | none =>
    rw [hitem] at hlabels
    cases hlabels
  | some ownerItem =>
    rw [hitem] at hlabels
    cases hlabels with
    | some hlabels => exact ⟨ownerItem, rfl, hlabels⟩

theorem Synced.indexExact (h : Synced d s) : IndexExact s d := by
  intro owner k
  constructor
  · rw [mem_getOwnersForPDB]
    constructor
    · intro hmem
      obtain ⟨ownerItem, hlookup, hk⟩ := mem_pdbSetForOwner.mp hmem
      obtain ⟨pdbItem, hget, -⟩ := ((h.indexed k).mem_iff owner ownerItem hlookup).mp hk
      exact ⟨pdbItem, hget, (h.indexed k).listed owner ownerItem hlookup hk pdbItem hget⟩
    · rintro ⟨pdbItem, hget, howner⟩
      exact h.backed k pdbItem hget owner howner
  · have hpdbs := h.pdbs k
    rw [mem_pdbSetForOwner, Delivered.Matches]
    constructor
    · rintro ⟨ownerItem, hlookup, hk⟩
      obtain ⟨pdbItem, hget, hselects⟩ := ((h.indexed k).mem_iff owner ownerItem hlookup).mp hk
      obtain ⟨stored, selector, hstored, hselector, hsame⟩ := h.selector k pdbItem hget
      obtain ⟨labels, hdelivered, hlabels⟩ := h.delivered_of_lookup hlookup
      rw [hget, map_some] at hpdbs
      refine ⟨_, labels, selector, hpdbs.symm, hdelivered, hselector, ?_⟩
      rw [← hlabels.matches_eq, ← hsame]
      simpa [PDBItemImpl.selects, hstored] using hselects
    · rintro ⟨pdb, labels, selector, hpdb, howner, hselector, hmatches⟩
      rw [hpdb, map_eq_some_iff] at hpdbs
      obtain ⟨pdbItem, hget, rfl⟩ := hpdbs
      obtain ⟨stored, selector', hstored, hselector', hsame⟩ := h.selector k pdbItem hget
      obtain rfl := some_inj.mp (hselector.symm.trans hselector')
      obtain ⟨ownerItem, hlookup, hlabels⟩ := h.lookup_of_delivered howner
      refine ⟨ownerItem, hlookup, ((h.indexed k).mem_iff owner ownerItem hlookup).mpr
        ⟨pdbItem, hget, ?_⟩⟩
      simp [PDBItemImpl.selects, hstored, hsame, hlabels.matches_eq, hmatches]

variable {event : Event}

section Steps

theorem Synced.isSome_selector (h : Synced d s) (k : String) (pdbItem : PDBItemImpl)
    (hget : s.pdbs.getByKey k = some pdbItem) : pdbItem.pdbSelector.isSome := by
  obtain ⟨stored, -, hstored, -, -⟩ := h.selector k pdbItem hget
  rw [hstored]
  rfl

theorem Synced.relate (h : Synced d s) (hvalid : (labelSelectorAsSelector pdb.selector).isSome)
    (hindexed : (s'.addPDBToOwners (s.storedPDB pdb)).Indexed)
    (hbacked : ∀ k ≠ getPDBKey pdb, s'.MutualAt k)
    (hothers : ∀ k ≠ getPDBKey pdb, s'.pdbs.getByKey k = s.pdbs.getByKey k)
    (hlabels : ∀ owner, (s'.owners.lookup owner).map OwnerItem.ownerLabels =
      (s.owners.lookup owner).map OwnerItem.ownerLabels) :
    Synced { d with pdbs := d.pdbs.insert (getPDBKey pdb) pdb }
      (s'.addPDBToOwners (s.storedPDB pdb)) := by
  obtain ⟨selector, hsel⟩ := isSome_iff_exists.mp hvalid
  have hstored : labelSelectorAsSelector (s.storedPDB pdb).pdb.selector = some selector := by
    rw [pdb_storedPDB]
    exact hsel
  refine ⟨hindexed, ?_, fun k => ?_, fun k pdbItem hget => ?_, fun owner => ?_⟩
  · apply mutual_addPDBToOwners _ hstored
    rw [key_storedPDB]
    exact hbacked
  · rw [getByKey_addPDBToOwners hstored, key_storedPDB, lookup_insert']
    split_ifs with hk
    · exact congrArg some (pdb_storedPDB s pdb)
    · rw [hothers k hk]
      exact h.pdbs k
  · rw [getByKey_addPDBToOwners hstored, key_storedPDB] at hget
    split_ifs at hget with hk
    · rw [← some_inj.mp hget]
      exact ⟨selector, selector, rfl, hstored, fun _ => rfl⟩
    · exact h.selector k pdbItem (hothers k hk ▸ hget)
  · rw [ownerLabels_of_facts (facts_addPDBToOwners _ owner), hlabels]
    exact h.labels owner

theorem getByKey_stored_of_ne (hk : k ≠ getPDBKey pdb) :
    (s.pdbs.add (s.storedPDB pdb)).getByKey k = s.pdbs.getByKey k := by
  apply getByKey_add_of_ne
  rw [key_storedPDB]
  exact hk

theorem exists_of_spec (hspec : ∀ k, (s'.pdbs.getByKey k).map spec = (s.pdbs.getByKey k).map spec)
    {pdbItem' : PDBItemImpl} (hget' : s'.pdbs.getByKey k = some pdbItem') :
    ∃ pdbItem, s.pdbs.getByKey k = some pdbItem ∧ pdbItem.pdb = pdbItem'.pdb ∧
      pdbItem.pdbSelector = pdbItem'.pdbSelector := by
  have hk := hspec k
  rw [hget', map_some] at hk
  obtain ⟨pdbItem, hget, hspec⟩ := map_eq_some_iff.mp hk.symm
  exact ⟨pdbItem, hget, congrArg Prod.fst hspec, congrArg Prod.snd hspec⟩

variable (h : Synced d s)
include h

theorem Synced.addPDB (hvalid : (labelSelectorAsSelector pdb.selector).isSome) :
    Synced (d.deliver (.addPDB pdb)) (s.addPDB pdb) := by
  apply h.relate hvalid (h.indexed.addPDB hvalid)
  · intro k hk
    exact (h.backed k).storedPDB fun heq => absurd heq hk
  · exact fun k hk => getByKey_stored_of_ne hk
  · exact fun _ => rfl

theorem Synced.updatePDB {oldPdb newPdb : PDB}
    (horder : d.pdbs.lookup (getPDBKey newPdb) = some oldPdb)
    (hvalid : (labelSelectorAsSelector newPdb.selector).isSome) :
    Synced (d.deliver (.updatePDB oldPdb newPdb)) (s.updatePDB oldPdb newPdb) := by
  have hindexed := h.indexed.updatePDB oldPdb hvalid
  unfold PdbStore.updatePDB at hindexed ⊢
  simp only at hindexed ⊢
  obtain ⟨old, hold, hpdb⟩ :=
    map_eq_some_iff.mp ((h.pdbs (getPDBKey newPdb)).trans horder)
  split_ifs at hindexed ⊢ with htext
  · -- the item keeps the selector of the old object, which is printed alike
    have hstored : s.storedPDB newPdb = { old with pdb := newPdb } := by
      unfold PdbStore.storedPDB
      rw [hold]
    have hget : ∀ k, (s.pdbs.add (s.storedPDB newPdb)).getByKey k =
        if k = getPDBKey newPdb then some { old with pdb := newPdb } else s.pdbs.getByKey k := by
      intro k
      rw [getByKey_add, key_storedPDB, hstored]
    refine ⟨hindexed, fun k => ?_, fun k => ?_, fun k pdbItem hk => ?_, h.labels⟩
    · apply (h.backed k).storedPDB
      rintro rfl
      rw [hold]
      rfl
    · simp only [hget, Delivered.deliver]
      rw [lookup_insert']
      split_ifs
      · rfl
      · exact h.pdbs k
    · simp only [hget] at hk
      split_ifs at hk with heq
      · rw [← some_inj.mp hk]
        obtain ⟨stored, selector, hkept, hselector, hsame⟩ := h.selector _ old hold
        obtain ⟨selector', hselector'⟩ := isSome_iff_exists.mp hvalid
        rw [hpdb] at hselector
        refine ⟨stored, selector', hkept, hselector', fun labels => ?_⟩
        rw [hsame, matches_of_sameText htext hselector hselector']
      · exact h.selector k pdbItem hk
  · apply h.relate hvalid hindexed
    · intro k hk
      exact ((h.backed k).storedPDB fun heq => absurd heq hk).removePDB hk
    · intro k hk
      rw [pdbs_removePDB]
      exact getByKey_stored_of_ne hk
    · exact fun owner => ownerLabels_of_facts (facts_removePDB _ owner)

theorem Synced.deletePDB (pdb : PDB) : Synced (d.deliver (.deletePDB pdb)) (s.deletePDB pdb) := by
  have hget : ∀ k, (s.deletePDB pdb).pdbs.getByKey k =
      if k = getPDBKey pdb then none else s.pdbs.getByKey k := by
    intro k
    unfold PdbStore.deletePDB
    simp only [pdbs_removePDB]
    exact getByKey_deleteByKey _ _ _
  refine ⟨h.indexed.deletePDB pdb, MutualAt.deletePDB h.backed pdb, fun k => ?_,
    fun k pdbItem hk => ?_, fun owner => ?_⟩
  · rw [hget, Delivered.deliver, lookup_erase']
    split_ifs
    · rfl
    · exact h.pdbs k
  · rw [hget] at hk
    split_ifs at hk
    exact h.selector k pdbItem hk
  · unfold PdbStore.deletePDB
    rw [ownerLabels_of_facts (facts_removePDB _ owner)]
    exact h.labels owner

theorem Synced.specs (hspec : ∀ k, (s'.pdbs.getByKey k).map spec = (s.pdbs.getByKey k).map spec) :
    (∀ k, (s'.pdbs.getByKey k).map PDBItemImpl.pdb = d.pdbs.lookup k) ∧
      ∀ k pdbItem, s'.pdbs.getByKey k = some pdbItem →
        KeepsSelector pdbItem.pdb pdbItem.pdbSelector := by
  constructor
  · intro k
    rw [← h.pdbs k]
    have := congrArg (Option.map Prod.fst) (hspec k)
    rwa [map_map, map_map] at this
  · intro k pdbItem' hget'
    obtain ⟨pdbItem, hget, hpdb, hselector⟩ := exists_of_spec hspec hget'
    rw [← hpdb, ← hselector]
    exact h.selector k pdbItem hget

theorem Synced.addOwner (habsent : s.owners.lookup owner = none)
    (hs' : s.addOwner owner labels = some s') :
    Synced { d with owners := d.owners.insert owner labels } s' := by
  obtain ⟨hpdbs, hselector⟩ := h.specs (spec_addOwner hs')
  refine ⟨h.indexed.addOwner hs', fun k => (h.backed k).addOwner habsent hs', hpdbs, hselector,
    fun owner' => ?_⟩
  rw [lookup_addOwner hs', lookup_insert']
  split_ifs
  · exact Option.Rel.some fun _ => rfl
  · exact h.labels owner'

theorem Synced.deleteOwner (owner : OwnerType × String) :
    Synced (d.deliver (.deleteOwner owner)) (s.deleteOwner owner) := by
  obtain ⟨hpdbs, hselector⟩ := h.specs (spec_deleteOwner owner)
  refine ⟨h.indexed.deleteOwner owner, fun k => (h.backed k).deleteOwner owner, hpdbs, hselector,
    fun owner' => ?_⟩
  rw [lookup_deleteOwner, Delivered.deliver, lookup_erase']
  split_ifs
  · exact Option.Rel.none
  · exact h.labels owner'

theorem Synced.setPDBUpdated (owner : OwnerType × String) : Synced d (s.setPDBUpdated owner) := by
  have hget : ∀ k, (s.setPDBUpdated owner).pdbs.getByKey k = s.pdbs.getByKey k := fun k => by
    rw [pdbs_setPDBUpdated]
  refine ⟨h.indexed.setPDBUpdated owner, fun k => (h.backed k).setPDBUpdated owner,
    fun k => (hget k ▸ h.pdbs k), fun k pdbItem hk => h.selector k pdbItem (hget k ▸ hk),
    fun owner' => ?_⟩
  rw [lookup_setPDBUpdated, map_map]
  exact h.labels owner'

theorem Synced.absent (habsent : d.owners.lookup owner = none) : s.owners.lookup owner = none := by
  rw [eq_none_iff_forall_ne_some]
  intro ownerItem hlookup
  obtain ⟨labels, hlabels, -⟩ := h.delivered_of_lookup hlookup
  rw [habsent] at hlabels
  cases hlabels

/-- No event in order fails, and each keeps what the store has in step with what was delivered. -/
theorem Synced.step (horder : d.InOrder event) (hvalid : event.validSelectors = true)
    (hlabels : event.TellsLabelsApart) :
    ∃ s', s.step event = some s' ∧ Synced (d.deliver event) s' := by
  cases event with
  | addPDB pdb => exact ⟨_, rfl, h.addPDB hvalid⟩
  | updatePDB oldPdb newPdb => exact ⟨_, rfl, h.updatePDB horder hvalid⟩
  | deletePDB pdb => exact ⟨_, rfl, h.deletePDB pdb⟩
  | addOwner owner labels =>
    obtain ⟨s', hs'⟩ := addOwner_eq_some h.isSome_selector owner labels
    exact ⟨s', hs', h.addOwner (h.absent horder) hs'⟩
  | deleteOwner owner => exact ⟨_, rfl, h.deleteOwner owner⟩
  | updateOwner owner oldLabels newLabels =>
    simp only [PdbStore.step, PdbStore.updateOwner]
    split_ifs with hequal
    · refine ⟨s, rfl, h.indexed, h.backed, h.pdbs, h.selector, fun owner' => ?_⟩
      simp only [Delivered.deliver]
      rw [lookup_insert']
      split_ifs with howner
      · obtain ⟨ownerItem, hlookup, hold⟩ := h.lookup_of_delivered horder
        rw [howner, hlookup]
        exact Option.Rel.some fun key => (hold key).trans (hlabels hequal key)
      · exact h.labels owner'
    · have hdeleted := h.deleteOwner owner
      obtain ⟨added, hadded⟩ := addOwner_eq_some hdeleted.isSome_selector owner newLabels
      have hsynced := hdeleted.addOwner (by rw [lookup_deleteOwner, if_pos rfl]) hadded
      have hdelivered : { d.deliver (.deleteOwner owner) with
          owners := (d.deliver (.deleteOwner owner)).owners.insert owner newLabels } =
          d.deliver (.updateOwner owner oldLabels newLabels) := by
        simp [Delivered.deliver, insert_erase]
      rw [hdelivered] at hsynced
      rw [hadded]
      simp only [pure_def, bind_eq_bind, bind_some, some_inj,
        exists_eq_left']
      split_ifs
      · exact hsynced
      · exact hsynced.setPDBUpdated owner

end Steps

/-- Over events in informer order with valid selectors, if `equalMap` never takes two different
sets of labels of an owner for the same, the index is exact. -/
theorem indexExact_of_events {events : List Event}
    (horder : Along Delivered.deliver Delivered.InOrder {} events)
    (hvalid : ∀ event ∈ events, event.validSelectors = true)
    (hlabels : ∀ event ∈ events, event.TellsLabelsApart) :
    ∃ s, events.foldlM step ({} : PdbStore) = some s ∧
      IndexExact s (run Delivered.deliver {} events) := by
  obtain ⟨s, hs, hsynced⟩ := exists_foldlM_of_simulates (R := fun s d => Synced d s)
    (fun s d event h hevent => by exact h.step hevent.1.1 hevent.1.2 hevent.2) synced_empty
    ((horder.and_forall hvalid).and_forall hlabels)
  exact ⟨s, hs, hsynced.indexExact⟩

/-- A budget whose selector asks for a label, whatever its value. -/
def budgetFor (label : String) : PDB :=
  { ns := "default", disruptionsAllowed := 1, name := "pdb"
    selector := some { matchExpressions := [⟨label, some .opExists, []⟩] } }

def replicaSet : OwnerType × String := (.replicaSet, "default/rs")

def labelled (label value : String) : GoMap String String :=
  (∅ : GoMap String String).insert label value

theorem indexExact_relabelled :
    let events : List Event := [.addPDB (budgetFor "app"),
      .addOwner replicaSet (labelled "tier" ""),
      .updateOwner replicaSet (labelled "tier" "") ((labelled "tier" "").insert "app" ""),
      .deletePDB (budgetFor "app")]
    Along Delivered.deliver Delivered.InOrder {} events ∧
      ∃ s, events.foldlM step ({} : PdbStore) = some s ∧
        IndexExact s (run Delivered.deliver {} events) := by
  intro events
  have horder : Along Delivered.deliver Delivered.InOrder {} events :=
    ⟨rfl, rfl, rfl, rfl, trivial⟩
  refine ⟨horder, indexExact_of_events horder (by decide) ?_⟩
  intro event hevent
  simp only [events, List.mem_cons, List.not_mem_nil, or_false] at hevent
  rcases hevent with rfl | rfl | rfl | rfl
  · trivial
  · trivial
  · intro hequal
    exact absurd hequal (by decide)
  · trivial

/-- The label of an owner is renamed and its value is empty before and after. The update is taken
for none, and the budget that asks for the new label does not find the owner. -/
theorem index_misses_renamed_label :
    let events : List Event := [.addPDB (budgetFor "app"),
      .addOwner replicaSet (labelled "tier" ""),
      .updateOwner replicaSet (labelled "tier" "") (labelled "app" "")]
    Along Delivered.deliver Delivered.InOrder {} events ∧
      (∀ event ∈ events, event.validSelectors = true) ∧
      ∃ s, events.foldlM step ({} : PdbStore) = some s ∧
        ¬ IndexExact s (run Delivered.deliver {} events) := by
  refine ⟨⟨rfl, rfl, rfl, trivial⟩, by decide, _, rfl, fun h => ?_⟩
  have hmem := (h replicaSet "default/pdb").2.mpr
    ⟨budgetFor "app", labelled "app" "", _, rfl, rfl, rfl, by decide⟩
  revert hmem
  decide

section Flag

def flagged (s : PdbStore) (owner : OwnerType × String) : Bool :=
  (s.owners.lookup owner).all OwnerItem.pdbUpdated

theorem flagged_of_facts (h : (s'.owners.lookup owner).map facts =
    (s.owners.lookup owner).map facts) : s'.flagged owner = s.flagged owner := by
  have hall := congrArg (Option.all Prod.snd) h
  rwa [all_map, all_map] at hall

theorem flagged_of_lookup (h : s'.owners.lookup owner = s.owners.lookup owner) :
    s'.flagged owner = s.flagged owner := by
  unfold flagged
  rw [h]

/-- Every item has a selector, so that no event fails. -/
def HasSelectors (s : PdbStore) : Prop :=
  ∀ k pdbItem, s.pdbs.getByKey k = some pdbItem → pdbItem.pdbSelector.isSome

theorem hasSelectors_of_addOwner (hs' : s.addOwner owner labels = some s') : s.HasSelectors := by
  intro k pdbItem hget
  unfold addOwner at hs'
  split_ifs at hs' with hnone
  rw [Bool.not_eq_true, List.any_eq_false] at hnone
  simpa [isSome_iff_ne_none] using hnone pdbItem (mem_list_of_getByKey hget)

theorem HasSelectors.congr (h : ∀ k, (s'.pdbs.getByKey k).map spec = (s.pdbs.getByKey k).map spec)
    (hs : s.HasSelectors) : s'.HasSelectors := by
  intro k pdbItem' hget'
  obtain ⟨pdbItem, hget, -, hselector⟩ := exists_of_spec h hget'
  rw [← hselector]
  exact hs k pdbItem hget

variable {oldLabels newLabels : GoMap String String}

/-- An update either does nothing or deletes the owner and adds it with the budgets that select the
new labels, with its flag up if these are others than before. -/
theorem updateOwner_cases (hs' : s.updateOwner owner oldLabels newLabels = some s') :
    (equalMap oldLabels newLabels = true ∧ s' = s) ∨
      (equalMap oldLabels newLabels = false ∧
        s'.flagged owner = decide (s.selectedPDBs newLabels ≠ s.pdbSetForOwner owner) ∧
        ∀ owner' ≠ owner, s'.owners.lookup owner' = s.owners.lookup owner') := by
  unfold updateOwner at hs'
  split_ifs at hs' with hequal
  · exact .inl ⟨hequal, (some_inj.mp hs').symm⟩
  · obtain ⟨added, hadded, hs'⟩ := bind_eq_some_iff.mp hs'
    rw [pure_def, some_inj] at hs'
    have hset : added.pdbSetForOwner owner = s.selectedPDBs newLabels := by
      rw [pdbSetForOwner_addOwner hadded, if_pos rfl, selectedPDBs_congr (spec_deleteOwner owner)]
    have hlookup := lookup_addOwner hadded owner
    rw [if_pos rfl] at hlookup
    have hothers : ∀ owner' ≠ owner, added.owners.lookup owner' = s.owners.lookup owner' := by
      intro owner' hne
      rw [lookup_addOwner hadded, if_neg hne, lookup_deleteOwner, if_neg hne]
    rw [hset] at hs'
    refine .inr ⟨Bool.eq_false_iff.mpr hequal, ?_⟩
    split_ifs at hs' with hsame
    · subst hs'
      exact ⟨by simp [flagged, hlookup, hsame], hothers⟩
    · subst hs'
      refine ⟨by simp [flagged, lookup_setPDBUpdated, hlookup, hsame], fun owner' hne => ?_⟩
      rw [lookup_setPDBUpdated, hothers owner' hne]
      simp [hne]

/-- The owner goes on existing: it is neither deleted nor added anew. -/
def Event.KeepsOwner (owner : OwnerType × String) : Event → Prop
  | .addOwner owner' _ | .deleteOwner owner' => owner' ≠ owner
  | _ => True

/-- An update of the owner, not taken for none, after which it has the budgets it had. -/
def LowersFlag (owner : OwnerType × String) (s : PdbStore) : Event → Prop
  | .updateOwner owner' oldLabels newLabels => owner' = owner ∧
      equalMap oldLabels newLabels = false ∧ s.HasSelectors ∧
      s.selectedPDBs newLabels = s.pdbSetForOwner owner
  | _ => False

theorem hasSelectors_of_updateOwner (hequal : equalMap oldLabels newLabels = false)
    (hs' : s.updateOwner owner oldLabels newLabels = some s') : s.HasSelectors := by
  unfold updateOwner at hs'
  rw [if_neg (by simp [hequal])] at hs'
  obtain ⟨added, hadded, -⟩ := bind_eq_some_iff.mp hs'
  exact (hasSelectors_of_addOwner hadded).congr fun k => (spec_deleteOwner owner k).symm

theorem flagged_step (hflag : s.flagged owner = true) (hkeeps : event.KeepsOwner owner)
    (hraised : ¬ LowersFlag owner s event) (hs' : s.step event = some s') :
    s'.flagged owner = true := by
  rw [← hflag]
  cases event with
  | addPDB pdb =>
    rw [← some_inj.mp hs']
    exact flagged_of_facts (facts_addPDBToOwners _ owner)
  | updatePDB oldPdb newPdb =>
    rw [← some_inj.mp hs']
    exact flagged_of_facts (facts_updatePDB oldPdb newPdb owner)
  | deletePDB pdb =>
    rw [← some_inj.mp hs']
    exact flagged_of_facts (facts_removePDB _ owner)
  | addOwner owner' labels =>
    apply flagged_of_lookup
    rw [lookup_addOwner hs', if_neg (Ne.symm hkeeps)]
  | deleteOwner owner' =>
    rw [← some_inj.mp hs']
    apply flagged_of_lookup
    rw [lookup_deleteOwner, if_neg (Ne.symm hkeeps)]
  | updateOwner owner' oldLabels newLabels =>
    rcases updateOwner_cases hs' with ⟨-, rfl⟩ | ⟨hequal, hflagged, hothers⟩
    · rfl
    · by_cases howner : owner' = owner
      · subst howner
        rw [hflagged, hflag, decide_eq_true_eq]
        exact fun hsame =>
          hraised ⟨rfl, hequal, hasSelectors_of_updateOwner hequal hs', hsame⟩
      · exact flagged_of_lookup (hothers owner (Ne.symm howner))

theorem not_flagged_of_lowersFlag (h : LowersFlag owner s event) :
    ∃ s', s.step event = some s' ∧ s'.flagged owner = false := by
  cases event with
  | updateOwner owner' oldLabels newLabels =>
    obtain ⟨rfl, hequal, hselectors, hsame⟩ := h
    obtain ⟨added, hadded⟩ :=
      addOwner_eq_some (hselectors.congr (spec_deleteOwner owner')) owner' newLabels
    obtain ⟨s', hs'⟩ : ∃ s', s.updateOwner owner' oldLabels newLabels = some s' := by
      unfold updateOwner
      rw [if_neg (by simp [hequal]), hadded]
      exact ⟨_, rfl⟩
    refine ⟨s', hs', ?_⟩
    rcases updateOwner_cases hs' with ⟨htrue, -⟩ | ⟨-, hflagged, -⟩
    · rw [hequal] at htrue
      cases htrue
    · rw [hflagged, decide_eq_false_iff_not, not_not]
      exact hsame
  | _ => exact h.elim

/-- The labels of an owner change such that other budgets select it than it has. From then on its
flag is up if and only if this update was not taken for none, or the flag was up before, and no
later update leaves the owner the budgets it has. -/
theorem flag_stays_up_iff {s₀ : PdbStore} {oldLabels newLabels : GoMap String String}
    (hchanged : s₀.selectedPDBs newLabels ≠ s₀.pdbSetForOwner owner)
    (hs : s₀.updateOwner owner oldLabels newLabels = some s) {events : List Event}
    (hkeeps : ∀ event ∈ events, event.KeepsOwner owner) :
    AlwaysM step (fun s => s.flagged owner = true) s events ↔
      (equalMap oldLabels newLabels = true → s₀.flagged owner = true) ∧
        AlongM step (fun s event => ¬ LowersFlag owner s event) s events := by
  have hfirst : s.flagged owner = true ↔
      (equalMap oldLabels newLabels = true → s₀.flagged owner = true) := by
    rcases updateOwner_cases hs with ⟨hequal, rfl⟩ | ⟨hequal, hflagged, -⟩
    · simp [hequal]
    · simp [hequal, hflagged, hchanged]
  rw [← hfirst]
  have hrun : s.flagged owner = true → (AlwaysM step (fun s => s.flagged owner = true) s events ↔
      AlongM step (fun s event => ¬ LowersFlag owner s event) s events) := by
    intro hflag
    refine alwaysM_iff_alongM (fun _ => id)
      (fun s event s' hflag hkeeps hraised hs' => flagged_step hflag hkeeps hraised hs') ?_ hflag
      (alongM_of_forall hkeeps s)
    intro s event _ _ hup hlowers
    obtain ⟨s', hs', hdown⟩ := not_flagged_of_lowersFlag hlowers
    rw [hup s' hs'] at hdown
    cases hdown
  constructor
  · intro hall
    have hflag := hall.first
    exact ⟨hflag, (hrun hflag).mp hall⟩
  · rintro ⟨hflag, halong⟩
    exact (hrun hflag).mpr halong

/-- A replica set gets a label that brings it under a budget, and the budget is deleted. -/
theorem flag_stays_up_iff_relabelled :
    let s₀ : PdbStore :=
      { owners := (∅ : GoMap _ _).insert replicaSet ⟨labelled "tier" "", ∅, false⟩
        pdbs := (KeyedStore.empty _).add
          { pdb := budgetFor "app"
            pdbSelector := some (.requirements [⟨"app", .opExists, []⟩]) } }
    ∃ s, s₀.updateOwner replicaSet (labelled "tier" "") ((labelled "tier" "").insert "app" "db") =
        some s ∧
      (AlwaysM step (fun s => s.flagged replicaSet = true) s [.deletePDB (budgetFor "app")] ↔
        (equalMap (labelled "tier" "") ((labelled "tier" "").insert "app" "db") = true →
          s₀.flagged replicaSet = true) ∧
        AlongM step (fun s event => ¬ LowersFlag replicaSet s event) s
          [.deletePDB (budgetFor "app")]) := by
  intro s₀
  refine ⟨_, rfl, flag_stays_up_iff (by decide) rfl ?_⟩
  intro event hevent
  rw [List.mem_singleton.mp hevent]
  trivial

/-- The set of budgets changes from none to one, and a further label, which changes nothing, lowers
the flag. -/
theorem flag_lowered_by_further_label :
    let tier := labelled "tier" ""
    let app := tier.insert "app" "db"
    let s₀ := [Event.addPDB (budgetFor "app"), .addOwner replicaSet tier].foldlM step
      ({} : PdbStore)
    let s := s₀.bind fun s => s.updateOwner replicaSet tier app
    let s' := s.bind fun s => s.updateOwner replicaSet app (app.insert "zone" "a")
    s₀.map (fun s => s.pdbSetForOwner replicaSet) = some ∅ ∧
      s.map (fun s => (s.pdbSetForOwner replicaSet, s.flagged replicaSet)) =
        some ({"default/pdb"}, true) ∧
      s'.map (fun s => (s.pdbSetForOwner replicaSet, s.flagged replicaSet)) =
        some ({"default/pdb"}, false) := by
  decide

end Flag

end PdbStore

end GodelScheduler.SchedulerCache
