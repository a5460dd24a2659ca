import GodelScheduler.Library.Memo

/-!
# Stores keyed by a function of the stored object

A keyed store holds each object under the key computed from it, so an object
can never be found under the key of another. Adding an object replaces the one
with its key. The two loops over a list of objects, one overwriting and one
keeping what is present, are described by what they leave under each key.
-/

namespace GodelScheduler.Library

open GoMap List

structure KeyedStore {K V : Type*} [DecidableEq K] (key : V → K) where
  items : GoMap K V
  keyed : ∀ k v, items.lookup k = some v → key v = k

namespace KeyedStore

variable {K V : Type*} [DecidableEq K] {key : V → K}

instance [DecidableEq V] : DecidableEq (KeyedStore key) := fun s t =>
  decidable_of_iff (s.items = t.items) (by
    constructor
    · intro h
      cases s
      cases t
      simpa using h
    · intro h
      rw [h])

def empty (key : V → K) : KeyedStore key where
  items := ∅
  keyed k v h := by simp at h

variable (s : KeyedStore key)

def getByKey (k : K) : Option V := s.items.lookup k

def list : List V := s.items.entries.map Sigma.snd

def len (s : KeyedStore key) : ℕ := s.items.len

/-- Store an object, replacing the one with its key. -/
def add (v : V) : KeyedStore key where
  items := s.items.insert (key v) v
  keyed k w h := by
    rw [lookup_insert'] at h
    split_ifs at h with hk
    · exact (Option.some.inj h) ▸ hk.symm
    · exact s.keyed k w h

def addIfNotPresent (v : V) : KeyedStore key :=
  if (s.getByKey (key v)).isSome then s else s.add v

def deleteByKey (k : K) : KeyedStore key where
  items := s.items.erase k
  keyed k' w h := by
    rw [lookup_erase'] at h
    split_ifs at h
    exact s.keyed k' w h

/-- Rewrite each object in place, under its key. -/
def mapItems (f : V → V) (hf : ∀ v, key (f v) = key v) : KeyedStore key where
  items := s.items.mapEntries fun _ => f
  keyed k w h := by
    rw [lookup_mapEntries] at h
    obtain ⟨v, hv, rfl⟩ := Option.map_eq_some_iff.mp h
    rw [hf]
    exact s.keyed k v hv

variable {s : KeyedStore key} {v : V} {l : List V}

theorem key_of_getByKey {k : K} (h : s.getByKey k = some v) : key v = k :=
  s.keyed k v h

@[simp] theorem getByKey_empty (k : K) : (empty key).getByKey k = none := by
  simp [getByKey, empty]

section

variable (s : KeyedStore key)

theorem getByKey_add (v : V) (k : K) :
    (s.add v).getByKey k = if k = key v then some v else s.getByKey k :=
  lookup_insert' _ _ _ _

@[simp] theorem getByKey_add_self (v : V) : (s.add v).getByKey (key v) = some v := by
  rw [getByKey_add, if_pos rfl]

theorem getByKey_add_of_ne {k : K} (h : k ≠ key v) : (s.add v).getByKey k = s.getByKey k := by
  rw [getByKey_add, if_neg h]

theorem getByKey_deleteByKey (k k' : K) :
    (s.deleteByKey k).getByKey k' = if k' = k then none else s.getByKey k' :=
  lookup_erase' _ _ _

@[simp] theorem getByKey_deleteByKey_self (k : K) : (s.deleteByKey k).getByKey k = none := by
  rw [getByKey_deleteByKey, if_pos rfl]

theorem getByKey_deleteByKey_of_ne {k k' : K} (h : k' ≠ k) :
    (s.deleteByKey k).getByKey k' = s.getByKey k' := by
  rw [getByKey_deleteByKey, if_neg h]

theorem getByKey_mapItems (f : V → V) (hf : ∀ v, key (f v) = key v) (k : K) :
    (s.mapItems f hf).getByKey k = (s.getByKey k).map f :=
  lookup_mapEntries _ _ _

end

theorem mem_list_iff : v ∈ s.list ↔ s.getByKey (key v) = some v := by
  constructor
  · intro h
    obtain ⟨⟨k, w⟩, hmem, rfl⟩ := mem_map.mp h
    have hlook : s.items.lookup k = some w := AList.mem_lookup_iff.mpr hmem
    have hk : key w = k := s.keyed k w hlook
    rw [← hk] at hlook
    exact hlook
  · intro h
    exact mem_map.mpr ⟨⟨key v, v⟩, AList.mem_lookup_iff.mp h, rfl⟩

theorem mem_list_of_getByKey {k : K} (h : s.getByKey k = some v) : v ∈ s.list := by
  rw [mem_list_iff, key_of_getByKey h]
  exact h

theorem map_key_list (s : KeyedStore key) : s.list.map key = s.items.keys := by
  unfold list AList.keys List.keys
  rw [map_map]
  apply map_congr_left
  rintro ⟨k, v⟩ h
  exact s.keyed k v (AList.mem_lookup_iff.mpr h)

theorem nodup_list_key (s : KeyedStore key) : (s.list.map key).Nodup := by
  rw [map_key_list]
  exact s.items.keys_nodup

theorem nodup_list (s : KeyedStore key) : s.list.Nodup :=
  List.Nodup.of_map key s.nodup_list_key

theorem len_eq_length_list (s : KeyedStore key) : s.len = s.list.length := by
  rw [← length_map key, map_key_list]
  rfl

theorem getByKey_of_len_eq_zero (h : s.len = 0) (k : K) : s.getByKey k = none := by
  rw [len_eq_length_list, length_eq_zero_iff] at h
  apply Option.eq_none_iff_forall_ne_some.mpr
  intro v hv
  have hmem := mem_list_of_getByKey hv
  rw [h] at hmem
  cases hmem

theorem len_eq_zero_of_getByKey (h : ∀ k, s.getByKey k = none) : s.len = 0 := by
  rw [len_eq_length_list, length_eq_zero_iff]
  apply eq_nil_iff_forall_not_mem.mpr
  intro v hv
  rw [mem_list_iff, h] at hv
  cases hv

theorem len_add_of_getByKey_eq_none (h : s.getByKey (key v) = none) :
    (s.add v).len = s.len + 1 := by
  have hnot : key v ∉ s.items := by
    rw [mem_iff_lookup]
    rintro ⟨w, hw⟩
    rw [getByKey, hw] at h
    cases h
  exact len_insert_of_notMem hnot

theorem len_foldl_add (hl : (l.map key).Nodup) (h : ∀ v ∈ l, s.getByKey (key v) = none) :
    (l.foldl add s).len = s.len + l.length := by
  induction l generalizing s with
  | nil => rfl
  | cons v l ih =>
    rw [nodup_map_cons] at hl
    have hrest : ∀ w ∈ l, (s.add v).getByKey (key w) = none := by
      intro w hw
      have hne : key w ≠ key v := hl.1 _ hw
      rw [getByKey_add_of_ne s hne]
      exact h w (mem_cons_of_mem _ hw)
    rw [foldl_cons, ih hl.2 hrest,
      len_add_of_getByKey_eq_none (h v (mem_cons_self ..)), length_cons]
    omega

theorem list_add_of_list_eq_nil (h : s.list = []) (v : V) : (s.add v).list = [v] := by
  have hentries : s.items.entries = [] := map_eq_nil_iff.mp h
  unfold list add
  rw [AList.entries_insert, hentries]
  rfl

theorem list_add_of_list_eq_singleton {v w : V} (h : s.list = [v]) (hkey : key w = key v) :
    (s.add w).list = [w] := by
  have hmem : ∀ x, x ∈ (s.add w).list ↔ x ∈ [w] := by
    intro x
    rw [mem_list_iff, getByKey_add, mem_singleton]
    by_cases hx : key x = key w
    · rw [if_pos hx, Option.some_inj, eq_comm]
    · rw [if_neg hx, ← mem_list_iff, h, mem_singleton]
      constructor
      · rintro rfl
        exact absurd hkey.symm hx
      · rintro rfl
        exact absurd rfl hx
  have hperm := (perm_ext_iff_of_nodup (s.add w).nodup_list (nodup_singleton w)).mpr hmem
  exact perm_singleton.mp hperm

theorem list_deleteByKey_of_list_eq_singleton (h : s.list = [v]) :
    (s.deleteByKey (key v)).list = [] := by
  apply eq_nil_iff_forall_not_mem.mpr
  intro x hx
  rw [mem_list_iff, getByKey_deleteByKey] at hx
  split_ifs at hx with hkey
  rw [← mem_list_iff, h, mem_singleton] at hx
  exact hkey (congrArg key hx)

theorem list_perm_filter {s t : KeyedStore key} {p : V → Bool}
    (h : ∀ k, t.getByKey k = (s.getByKey k).filter p) : t.list.Perm (s.list.filter p) := by
  apply (perm_ext_iff_of_nodup t.nodup_list (s.nodup_list.filter _)).mpr
  intro v
  rw [mem_filter, mem_list_iff, mem_list_iff, h, Option.filter_eq_some_iff]

/-- The first object of a list with a given key. -/
def lookupList (key : V → K) (k : K) (l : List V) : Option V := l.find? fun v => key v = k

theorem lookupList_eq_some (hl : (l.map key).Nodup) {k : K} :
    lookupList key k l = some v ↔ v ∈ l ∧ key v = k := by
  constructor
  · intro h
    exact ⟨mem_of_find?_eq_some h, by simpa using List.find?_some h⟩
  · rintro ⟨hmem, rfl⟩
    obtain ⟨w, hw⟩ : ∃ w, lookupList key (key v) l = some w := by
      rw [← Option.isSome_iff_exists]
      exact List.find?_isSome.mpr ⟨v, hmem, by simp⟩
    have hwmem : w ∈ l := mem_of_find?_eq_some hw
    have hwkey : key w = key v := by simpa using List.find?_some hw
    rw [hw, inj_on_of_nodup_map hl hwmem hmem hwkey]

theorem lookupList_eq {get : K → Option V} (hl : (l.map key).Nodup)
    (hmem : ∀ v, v ∈ l ↔ get (key v) = some v) (hkey : ∀ k v, get k = some v → key v = k) (k : K) :
    lookupList key k l = get k := by
  apply Option.ext
  intro v
  rw [lookupList_eq_some hl, hmem]
  constructor
  · rintro ⟨hv, rfl⟩
    exact hv
  · intro hv
    obtain rfl := hkey k v hv
    exact ⟨hv, rfl⟩

theorem lookupList_of_perm (h : l.Perm s.list) (k : K) : lookupList key k l = s.getByKey k :=
  lookupList_eq ((h.map key).nodup_iff.mpr s.nodup_list_key)
    (fun _ => h.mem_iff.trans mem_list_iff) (fun _ _ => key_of_getByKey) k

theorem getByKey_foldl_add (hl : (l.map key).Nodup) (s : KeyedStore key) (k : K) :
    (l.foldl add s).getByKey k = (lookupList key k l).or (s.getByKey k) := by
  induction l generalizing s with
  | nil => rfl
  | cons v l ih =>
    rw [nodup_map_cons] at hl
    rw [foldl_cons, ih hl.2, getByKey_add]
    by_cases hk : key v = k
    · have hnone : lookupList key k l = none := by
        apply List.find?_eq_none.mpr
        intro w hw
        simp only [decide_eq_true_eq]
        intro hwk
        exact hl.1 w hw (hwk.trans hk.symm)
      rw [hnone]
      simp [lookupList, hk]
    · simp [lookupList, hk, Ne.symm hk]

theorem items_addIfNotPresent (s : KeyedStore key) (v : V) :
    (s.addIfNotPresent v).items = s.items.remember (key v) v := by
  unfold addIfNotPresent remember getByKey
  cases s.items.lookup (key v) <;> rfl

theorem getByKey_foldl_addIfNotPresent (l : List V) (s : KeyedStore key) (k : K) :
    (l.foldl addIfNotPresent s).getByKey k = (s.getByKey k).or (lookupList key k l) := by
  have hitems : l.foldl (fun m v => m.remember (key v) v) s.items =
      (l.foldl addIfNotPresent s).items :=
    foldl_hom items fun s v => (s.items_addIfNotPresent v).symm
  rw [getByKey, ← hitems]
  exact (lookup_foldl_remember key id l s.items k).trans (by rw [Option.map_id]; rfl)

end KeyedStore

/-- Partial images that keep the key of their argument have different keys. -/
theorem nodup_filterMap_of_key {K W : Type*} {key : W → K} {f : W → Option K} {l : List W}
    (hf : ∀ w ∈ l, ∀ k, f w = some k → k = key w) (hl : (l.map key).Nodup) :
    (l.filterMap f).Nodup := by
  rw [List.Nodup, pairwise_map] at hl
  rw [List.Nodup, pairwise_filterMap]
  refine hl.imp_of_mem ?_
  intro w w' hw hw' hne k hk k' hk'
  rwa [hf w hw k hk, hf w' hw' k' hk']

theorem length_filter_or {W : Type*} (p q : W → Bool) (l : List W) :
    (l.filter fun w => p w || q w).length =
      (l.filter p).length + ((l.filter fun w => !p w).filter q).length := by
  induction l with
  | nil => rfl
  | cons w l ih =>
    cases hp : p w
    · cases hq : q w
      · simp [hp, hq, ih]
      · simp [hp, hq, ih]
        omega
    · simp [hp, ih]
      omega

end GodelScheduler.Library
