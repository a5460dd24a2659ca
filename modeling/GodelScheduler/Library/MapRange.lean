import Mathlib.Data.List.AList
import Mathlib.Tactic

/-!
# Finite maps ranged over in an unspecified order

A map is an association list with one entry per key. A loop over a map visits
its keys in an order the program does not choose; the order is an explicit
argument, and a statement about a loop is a statement about every order.

Two loops are studied here. One deletes stale entries under a budget: it stops
as soon as the budget is used up. `deleteWhile_eq` says what it deletes, and the
two results after it say when nothing stale is left. In the other each key writes
a field of its own (`WritesField`): what it leaves does not depend on the order.
-/

namespace GodelScheduler.Library

open List AList

theorem nodup_map_cons {V K : Type*} {f : V → K} {a : V} {l : List V} :
    ((a :: l).map f).Nodup ↔ (∀ b ∈ l, f b ≠ f a) ∧ (l.map f).Nodup := by
  rw [map_cons, nodup_cons, mem_map, not_exists]
  exact and_congr_left' (forall_congr' fun _ => not_and)

/-- The rule for what each round of a loop leaves as it is or brings about. -/
theorem foldl_iff_or {S O : Type*} {Q : S → Prop} {R : O → Prop} {step : S → O → S}
    (hstep : ∀ s o, Q (step s o) ↔ Q s ∨ R o) (l : List O) (s : S) :
    Q (l.foldl step s) ↔ Q s ∨ ∃ o ∈ l, R o := by
  induction l generalizing s with
  | nil => simp
  | cons o l ih => rw [foldl_cons, ih, hstep, exists_mem_cons_iff, or_assoc]

abbrev GoMap (K V : Type*) := AList (fun _ : K => V)

/-- Maps are compared entry by entry, by an instance that evaluates. -/
instance {K V : Type*} [DecidableEq K] [DecidableEq V] : DecidableEq (GoMap K V) :=
  fun m m' => decidable_of_iff (m.entries = m'.entries) AList.ext_iff.symm

abbrev GoSet (K : Type*) := GoMap K Unit

/-- The order in which one loop visits the keys of a map. -/
structure RangeOrder (K : Type*) where
  list : List K → List K
  perm : ∀ l, (list l).Perm l

namespace RangeOrder

variable {K : Type*}

@[simp] theorem mem_list (o : RangeOrder K) {l : List K} {k : K} : k ∈ o.list l ↔ k ∈ l :=
  (o.perm l).mem_iff

theorem nodup_list (o : RangeOrder K) {l : List K} (h : l.Nodup) : (o.list l).Nodup :=
  (o.perm l).nodup_iff.mpr h

def forward : RangeOrder K := ⟨id, fun _ => List.Perm.refl _⟩

/-- Visit `k` after every other key. -/
def last [DecidableEq K] (k : K) : RangeOrder K where
  list l := if k ∈ l then l.erase k ++ [k] else l
  perm l := by
    split_ifs with h
    · exact (perm_append_singleton k _).trans (perm_cons_erase h).symm
    · exact List.Perm.refl _

end RangeOrder

namespace GoMap

variable {K V : Type*} [DecidableEq K]

def len (m : GoMap K V) : ℕ := m.keys.length

variable (m : GoMap K V)

theorem len_le_len_insert (k : K) (v : V) : m.len ≤ len (m.insert k v) := by
  have hkeys : len (m.insert k v) = (k :: m.keys.erase k).length :=
    congrArg List.length (keys_insert m)
  have hle : m.keys.length - 1 ≤ (m.keys.erase k).length := le_length_erase
  rw [hkeys, length_cons, len]
  omega

theorem lookup_insert' (k a : K) (v : V) :
    (m.insert k v).lookup a = if a = k then some v else m.lookup a := by
  split_ifs with h
  · subst h; exact lookup_insert m
  · exact lookup_insert_ne h

theorem lookup_erase' (k a : K) : (m.erase k).lookup a = if a = k then none else m.lookup a := by
  split_ifs with h
  · subst h; exact lookup_erase a m
  · exact lookup_erase_ne h

/-- A loop that rewrites each entry in place. It comes to the same in every order. -/
def mapEntries (m : GoMap K V) (f : K → V → V) : GoMap K V where
  entries := m.entries.map fun e => ⟨e.1, f e.1 e.2⟩
  nodupKeys := by
    have hkeys : (m.entries.map fun e => (⟨e.1, f e.1 e.2⟩ : Sigma fun _ : K => V)).keys =
        m.entries.keys := by
      unfold List.keys
      rw [map_map]
      rfl
    unfold List.NodupKeys
    rw [hkeys]
    exact m.nodupKeys

theorem lookup_mapEntries (f : K → V → V) (k : K) :
    (m.mapEntries f).lookup k = (m.lookup k).map (f k) := by
  have hentries : ∀ l : List (Sigma fun _ : K => V),
      List.dlookup k (l.map fun e => (⟨e.1, f e.1 e.2⟩ : Sigma fun _ : K => V)) =
        (List.dlookup k l).map (f k) := by
    intro l
    induction l with
    | nil => rfl
    | cons e l ih =>
      obtain ⟨k', v⟩ := e
      rw [map_cons]
      by_cases hk : k = k'
      · subst hk
        rw [dlookup_cons_eq, dlookup_cons_eq]
        rfl
      · rw [dlookup_cons_ne l (⟨k', v⟩ : Sigma fun _ : K => V) hk, ← ih]
        exact dlookup_cons_ne _ (⟨k', f k' v⟩ : Sigma fun _ : K => V) hk
  exact hentries m.entries

variable {m : GoMap K V}

theorem mem_iff_lookup {k : K} : k ∈ m ↔ ∃ v, m.lookup k = some v := by
  rw [← lookup_isSome, Option.isSome_iff_exists]

omit [DecidableEq K] in
theorem len_congr {W : Type*} {n : GoMap K W} (h : ∀ k, k ∈ m ↔ k ∈ n) : m.len = n.len := by
  refine ((perm_ext_iff_of_nodup m.keys_nodup n.keys_nodup).mpr fun k => ?_).length_eq
  rw [← AList.mem_keys, ← AList.mem_keys, h]

theorem eq_of_len_eq_one (h : m.len = 1) {k k' : K} {v v' : V} (hk : m.lookup k = some v)
    (hk' : m.lookup k' = some v') : k = k' := by
  obtain ⟨a, ha⟩ := length_eq_one_iff.mp h
  have hmem : k ∈ m.keys := AList.mem_keys.mp (mem_iff_lookup.mpr ⟨v, hk⟩)
  have hmem' : k' ∈ m.keys := AList.mem_keys.mp (mem_iff_lookup.mpr ⟨v', hk'⟩)
  rw [ha, mem_singleton] at hmem hmem'
  rw [hmem, hmem']

theorem insert_erase (k : K) (v : V) : (m.erase k).insert k v = m.insert k v := by
  ext1
  rw [entries_insert, entries_insert]
  congr 1
  exact kerase_of_notMem_keys (notMem_keys_kerase k m.nodupKeys)

theorem perm_entries_erase {k : K} {v : V} (h : m.lookup k = some v) :
    m.entries.Perm (⟨k, v⟩ :: (m.erase k).entries) := by
  have hmem : k ∈ m.entries.keys := mem_keys_of_mem (mem_lookup_iff.mp h)
  obtain ⟨w, l₁, l₂, hnot, heq, herase⟩ := exists_of_kerase hmem
  have hlookup : m.lookup k = some w := by
    apply mem_lookup_iff.mpr
    rw [heq]
    exact mem_append_right _ mem_cons_self
  rw [h, Option.some_inj] at hlookup
  have hentries : (m.erase k).entries = l₁ ++ l₂ := herase
  rw [hentries, heq, hlookup]
  exact perm_middle

theorem len_erase_add_one {k : K} {v : V} (h : m.lookup k = some v) :
    len (m.erase k) + 1 = m.len := by
  have hlen := (perm_entries_erase h).length_eq
  simp only [len, AList.keys, List.keys, length_map]
  exact hlen.symm

theorem len_insert_of_notMem {k : K} {v : V} (h : k ∉ m) : len (m.insert k v) = m.len + 1 := by
  rw [len, keys_insert, erase_of_not_mem (fun hk => h (AList.mem_keys.mpr hk))]
  rfl

theorem toFinset_keys_insert (k : K) (v : V) :
    (AList.keys (m.insert k v)).toFinset = insert k m.keys.toFinset := by
  ext k'
  simp only [Finset.mem_insert, mem_toFinset, ← AList.mem_keys, mem_insert]

theorem toFinset_keys_erase (k : K) :
    (AList.keys (m.erase k)).toFinset = m.keys.toFinset.erase k := by
  ext k'
  simp only [Finset.mem_erase, mem_toFinset, ← AList.mem_keys, mem_erase]

theorem len_eq_add_filter {W : Type*} {n : GoMap K W} (h : ∀ k, k ∈ n → k ∈ m) :
    m.len = n.len + (m.keys.filter fun k => decide (k ∉ n)).length := by
  have hsplit := length_eq_length_filter_add (l := m.keys) (fun k => decide (k ∈ n))
  have hperm : (m.keys.filter fun k => decide (k ∈ n)).Perm n.keys := by
    refine (perm_ext_iff_of_nodup (m.keys_nodup.filter _) n.keys_nodup).mpr ?_
    intro k
    simp only [mem_filter, decide_eq_true_eq, ← AList.mem_keys]
    exact ⟨fun hk => hk.2, fun hk => ⟨h k hk, hk⟩⟩
  have hneg : (fun k => decide (k ∉ n)) = fun k : K => !decide (k ∈ n) := by
    funext k
    simp
  rw [hneg, len, len, hsplit, hperm.length_eq]

section

variable {X : Type*} {f : X → K} {g : X → V} {xs : List X}

theorem mem_foldl_insert {k : K} :
    k ∈ xs.foldl (fun m x => m.insert (f x) (g x)) m ↔ k ∈ m ∨ ∃ x ∈ xs, f x = k :=
  foldl_iff_or (Q := fun m => k ∈ m) (fun m x => by rw [mem_insert, or_comm, eq_comm]) xs m

theorem exists_of_lookup_foldl_insert {k : K} {v : V}
    (h : (xs.foldl (fun m x => m.insert (f x) (g x)) m).lookup k = some v) :
    (∃ x ∈ xs, f x = k ∧ g x = v) ∨ m.lookup k = some v := by
  induction xs generalizing m with
  | nil => exact .inr h
  | cons x xs ih =>
    rcases ih h with ⟨y, hy, hkey⟩ | hrest
    · exact .inl ⟨y, mem_cons_of_mem _ hy, hkey⟩
    · rw [lookup_insert'] at hrest
      split_ifs at hrest with hk
      · exact .inl ⟨x, mem_cons_self .., hk.symm, Option.some.inj hrest⟩
      · exact .inr hrest

/-- Entries with the same key are the same: each of them is found. -/
theorem lookup_foldl_insert {x : X} (hx : x ∈ xs) (hkey : ∀ y ∈ xs, f y = f x → g y = g x) :
    (xs.foldl (fun m x => m.insert (f x) (g x)) (∅ : GoMap K V)).lookup (f x) = some (g x) := by
  have hmem : f x ∈ xs.foldl (fun m x => m.insert (f x) (g x)) (∅ : GoMap K V) :=
    mem_foldl_insert.mpr (.inr ⟨x, hx, rfl⟩)
  obtain ⟨v, hv⟩ := mem_iff_lookup.mp hmem
  rcases exists_of_lookup_foldl_insert hv with ⟨y, hy, heq, rfl⟩ | hnone
  · rw [hv, hkey y hy heq]
  · cases hnone

end

end GoMap

section

variable {K σ : Type*} (stale : K → Bool) (del : σ → K → σ)

/-- Visit the keys in order and delete the stale ones, stopping once the budget is spent. -/
def deleteWhile : List K → ℤ → σ → σ
  | [], _, s => s
  | k :: ks, budget, s =>
    if budget ≤ 0 then s
    else if stale k then deleteWhile ks (budget - 1) (del s k)
    else deleteWhile ks budget s

theorem deleteWhile_eq (ks : List K) (budget : ℤ) (s : σ) :
    deleteWhile stale del ks budget s = ((ks.filter stale).take budget.toNat).foldl del s := by
  induction ks generalizing budget s with
  | nil => simp [deleteWhile]
  | cons k ks ih =>
    unfold deleteWhile
    by_cases hb : budget ≤ 0
    · simp [hb, Int.toNat_of_nonpos hb]
    · obtain ⟨n, hn⟩ : ∃ n : ℕ, budget.toNat = n + 1 := ⟨budget.toNat - 1, by omega⟩
      have hpred : (budget - 1).toNat = n := by omega
      by_cases hk : stale k
      · simp [hb, hk, ih, hpred, hn]
      · simp [hb, hk, ih]

theorem deleteWhile_of_le {ks : List K} {budget : ℤ}
    (h : ((ks.filter stale).length : ℤ) ≤ budget) (s : σ) :
    deleteWhile stale del ks budget s = (ks.filter stale).foldl del s := by
  rw [deleteWhile_eq, take_of_length_le (by omega)]

theorem exists_order_not_deleted [DecidableEq K] {ks : List K} {budget : ℤ} {k : K}
    (hnd : ks.Nodup) (hk : k ∈ ks) (h : budget < ((ks.filter stale).length : ℤ)) :
    ∃ o : RangeOrder K, k ∉ (((o.list ks).filter stale).take budget.toNat) := by
  refine ⟨RangeOrder.last k, ?_⟩
  have hlist : (RangeOrder.last k).list ks = ks.erase k ++ [k] := by
    simp [RangeOrder.last, hk]
  have hout : k ∉ ks.erase k := by
    rw [hnd.mem_erase_iff]
    simp
  have hlen := (((RangeOrder.last k).perm ks).filter stale).length_eq
  rw [hlist] at hlen ⊢
  rw [filter_append] at hlen ⊢
  rw [length_append] at hlen
  by_cases hs : stale k
  · rw [take_append_of_le_length]
    · exact fun hmem => hout (mem_of_mem_filter (mem_of_mem_take hmem))
    · simp [hs] at hlen
      omega
  · intro hmem
    have hmem := mem_of_mem_take hmem
    simp [hs, hout] at hmem

end

namespace GoSet

variable {K : Type*} [DecidableEq K]

def ofList (l : List K) : GoSet K := l.foldl (fun set k => set.insert k ()) ∅

theorem mem_ofList {l : List K} {k : K} : k ∈ ofList l ↔ k ∈ l := by
  rw [ofList, GoMap.mem_foldl_insert]
  simp

end GoSet

section

variable {K F V W σ : Type*} [DecidableEq F]

/-- A step of a loop over a map: each key writes its own field of the state, or none. -/
structure WritesField (view : σ → F → V) (field : K → Option F) (upd : K → W → V → V)
    (step : σ → (Sigma fun _ : K => W) → σ) : Prop where
  view_step : ∀ s e f,
    view (step s e) f = if field e.1 = some f then upd e.1 e.2 (view s f) else view s f
  field_inj : ∀ k k' f, field k = some f → field k' = some f → k = k'

namespace WritesField

variable {view : σ → F → V} {field : K → Option F} {upd : K → W → V → V}
  {step : σ → (Sigma fun _ : K => W) → σ} {l : List (Sigma fun _ : K => W)} {k : K} {w : W} {f : F}

theorem of_some [DecidableEq K] {view : σ → K → V}
    (h : ∀ s e k, view (step s e) k = if k = e.1 then upd e.1 e.2 (view s k) else view s k) :
    WritesField view some upd step where
  view_step s e k := by simp only [h, Option.some_inj, eq_comm]
  field_inj _ _ _ hk hk' := Option.some_inj.mp (hk.trans hk'.symm)

theorem view_foldl_of_ne (h : WritesField view field upd step)
    (hne : ∀ e ∈ l, field e.1 ≠ some f) (s : σ) : view (l.foldl step s) f = view s f := by
  induction l generalizing s with
  | nil => rfl
  | cons e l ih =>
    rw [forall_mem_cons] at hne
    rw [foldl_cons, ih hne.2, h.view_step, if_neg hne.1]

theorem view_foldl (h : WritesField view field upd step) (hnd : l.NodupKeys)
    (hmem : ⟨k, w⟩ ∈ l) (hfield : field k = some f) (s : σ) :
    view (l.foldl step s) f = upd k w (view s f) := by
  induction l generalizing s with
  | nil => cases hmem
  | cons e l ih =>
    rw [nodupKeys_cons] at hnd
    rw [foldl_cons]
    rcases mem_cons.mp hmem with rfl | hmem
    · rw [h.view_foldl_of_ne, h.view_step, if_pos hfield]
      intro e' he' hfield'
      have hkeys : e'.1 ∈ l.keys := mem_keys_of_mem he'
      rw [h.field_inj _ k f hfield' hfield] at hkeys
      exact hnd.1 hkeys
    · have hne : field e.1 ≠ some f := by
        intro hfield'
        have hkeys : k ∈ l.keys := mem_keys_of_mem hmem
        rw [h.field_inj _ e.1 f hfield hfield'] at hkeys
        exact hnd.1 hkeys
      rw [ih hnd.2 hmem, h.view_step, if_neg hne]

variable [DecidableEq K] (m : GoMap K W) (o : RangeOrder (Sigma fun _ : K => W))

theorem view_range (h : WritesField view field upd step) (hfield : field k = some f) (s : σ) :
    view ((o.list m.entries).foldl step s) f =
      ((m.lookup k).map fun w => upd k w (view s f)).getD (view s f) := by
  cases hlookup : m.lookup k with
  | none =>
    apply h.view_foldl_of_ne
    intro e he hfield'
    have hsome : m.lookup e.1 = some e.2 := mem_lookup_iff.mpr (o.mem_list.mp he)
    rw [h.field_inj e.1 k f hfield' hfield, hlookup] at hsome
    cases hsome
  | some w =>
    have hnd : (o.list m.entries).NodupKeys :=
      (perm_nodupKeys (o.perm m.entries)).mpr m.nodupKeys
    exact h.view_foldl hnd (o.mem_list.mpr (mem_lookup_iff.mp hlookup)) hfield s

/-- States with the same fields have the same fields after the loop, in whatever orders. -/
theorem view_range_congr (h : WritesField view field upd step)
    (o' : RangeOrder (Sigma fun _ : K => W)) {s s' : σ} (hview : ∀ f, view s f = view s' f)
    (f : F) :
    view ((o.list m.entries).foldl step s) f = view ((o'.list m.entries).foldl step s') f := by
  by_cases hfield : ∃ k, field k = some f
  · obtain ⟨k, hfield⟩ := hfield
    rw [h.view_range m o hfield, h.view_range m o' hfield, hview]
  · have hne : ∀ k, field k ≠ some f := not_exists.mp hfield
    rw [h.view_foldl_of_ne fun e _ => hne e.1, h.view_foldl_of_ne fun e _ => hne e.1, hview]

end WritesField

end

end GodelScheduler.Library
