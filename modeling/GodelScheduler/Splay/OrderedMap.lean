import GodelScheduler.Framework.PodInfo
import GodelScheduler.Library.Runs
import GodelScheduler.Splay.Deletion
import GodelScheduler.Splay.Insertion
import GodelScheduler.Splay.Partition

/-!
# The splay tree as an ordered map

The operations on a splay tree, each of which keeps it one, against the finite map of
the objects inserted and not deleted. Over every run that inserts only absent keys
the array stays well formed, the walk lists the objects in increasing order, and
`get` and `len` answer as the finite map does.
-/

namespace GodelScheduler.Splay

open Library SlotTree Cells StoredObj GoMap List

variable {α I : Type} [StoredObj α I] {A : Aggregate α I} {s s' : Splay α I} {t : SlotTree}

section

theorem isSplay_newSplay (A : Aggregate α I) :
    IsSplay A newSplay (node .nil minv (node .nil maxv .nil)) := by
  have hempty : ∀ i, (newSplay : Splay α I).objAt i = none := by
    intro i
    match i with
    | 0 => rfl
    | 1 => rfl
    | 2 => rfl
    | i + 3 => rfl
  refine ⟨⟨?_, by decide, ?_⟩, ?_, rfl, ?_, rfl, rfl, ⟨[], rfl⟩, fun i _ => hempty i, ?_, ?_, ?_⟩
  · exact ⟨by decide, rfl, trivial, by decide, rfl, trivial, trivial⟩
  · exact fence_of_ends (by decide) rfl
  · refine ⟨rfl, trivial, ⟨rfl, trivial, trivial, fun _ hmax => ?_⟩, fun hmin => ?_⟩
    · exact absurd mem_cons_self hmax
    · exact absurd mem_cons_self hmin
  · intro i
    change i ∈ [1, 2] ↔ 0 < i ∧ i ≤ 2
    rw [mem_pair]
    omega
  · intro i hgt hle
    exact absurd hle (Nat.not_le.mpr hgt)
  · intro k i
    constructor
    · intro hnone
      cases hnone
    · rintro ⟨hgt, hkey⟩
      obtain ⟨e, he, -⟩ := Option.map_eq_some_iff.mp hkey
      exact absurd (lt_of_entry he) (Nat.not_lt.mpr hgt)
  · have hnone : (newSplay : Splay α I).objs (node .nil minv (node .nil maxv .nil)).inorder = [] :=
      rfl
    rw [hnone]
    exact .nil

end

section

theorem IsSplay.len_hash (h : IsSplay A s t) : s.hash.len + 2 = s.count := by
  have hperm : (s.hash.keys.map fun k => (s.hash.lookup k).getD 0).Perm
      (List.range' 3 (s.count - 2)) := by
    have hnodup : (s.hash.keys.map fun k => (s.hash.lookup k).getD 0).Nodup := by
      refine s.hash.keys_nodup.map_on fun k hk k' hk' heq => ?_
      obtain ⟨i, hi⟩ := mem_iff_lookup.mp (AList.mem_keys.mpr hk)
      obtain ⟨i', hi'⟩ := mem_iff_lookup.mp (AList.mem_keys.mpr hk')
      rw [hi, hi', Option.getD_some, Option.getD_some] at heq
      subst heq
      have hkey := ((h.hash k i).mp hi).2
      rw [((h.hash k' i).mp hi').2, Option.some_inj] at hkey
      exact hkey.symm
    refine (perm_ext_iff_of_nodup hnodup nodup_range').mpr fun i => ?_
    rw [mem_map, mem_range'_1]
    constructor
    · rintro ⟨k, hk, rfl⟩
      obtain ⟨i, hi⟩ := mem_iff_lookup.mp (AList.mem_keys.mpr hk)
      have hgt : 2 < i := ((h.hash k i).mp hi).1
      have hle := ((h.slots i).mp (h.objAt_of_hash hi).1).2
      rw [hi, Option.getD_some]
      omega
    · intro hi
      obtain ⟨a, -, ha⟩ := h.objAt (show 2 < i by omega) (by omega)
      exact ⟨key a, AList.mem_keys.mp (mem_iff_lookup.mpr ⟨i, ha⟩), by rw [ha]; rfl⟩
  have hlen := hperm.length_eq
  have hle : 2 ≤ s.count := h.maxv_le_count
  rw [length_map, length_range'] at hlen
  rw [GoMap.len]
  omega

omit [StoredObj α I] in
theorem fst_entry (i : ℕ) : (s.entry i).map Prod.fst = (s.items[i]?).map Node.key := by
  rw [entry, Option.map_map]
  rfl

theorem foldlM_insert {items : List (Node α)} {slots : List ℕ}
    (hslots : ∀ i ∈ slots, i < items.length) (m : GoMap String ℕ) :
    slots.foldlM (fun m i => do pure (m.insert (← items[i]?).key i)) m =
      some (slots.foldl (fun m i => m.insert (((items[i]?).map Node.key).getD "") i) m) := by
  induction slots generalizing m with
  | nil => rfl
  | cons i slots ih =>
    obtain ⟨hi, hslots⟩ := forall_mem_cons.mp hslots
    rw [foldlM_cons, foldl_cons, ← ih hslots, List.getElem?_eq_getElem hi]
    rfl

theorem IsSplay.clone (h : IsSplay A s t) :
    ∃ s', s.clone = some s' ∧ IsSplay A s' t ∧ Moved s s' := by
  have hlen := h.len_hash
  have hpad : ∀ {β : Type} {l : List β} (b : β), l.length = s.count + 1 →
      l.take (s.hash.len + 3) ++ List.replicate (s.hash.len + 3 - l.length) b = l := by
    intro β l b hl
    have hsize : s.hash.len + 3 = l.length := by omega
    rw [hsize, take_length, Nat.sub_self, replicate_zero, append_nil]
  have hlive : ∀ i ∈ List.range' 3 (s.items.length - 3), maxv < i ∧ i ≤ s.count := by
    intro i hi
    rw [mem_range'_1, h.items] at hi
    simp only [maxv]
    omega
  have hhash : ∀ i ∈ List.range' 3 (s.items.length - 3), ∃ k,
      (s.items[i]?).map Node.key = some k ∧ s.hash.lookup k = some i := by
    intro i hi
    obtain ⟨a, ha⟩ := h.stored i (hlive i hi).1 (hlive i hi).2
    have hk : (s.entry i).map Prod.fst = some (key a) := by
      rw [ha]
      rfl
    exact ⟨key a, by rwa [← fst_entry], (h.hash _ i).mpr ⟨(hlive i hi).1, hk⟩⟩
  generalize hnew : (List.range' 3 (s.items.length - 3)).foldl
    (fun m i => m.insert (((s.items[i]?).map Node.key).getD "") i) (∅ : GoMap String ℕ) = hash
  have hmoved : Moved s { s with hash } := by
    refine ⟨fun k => Option.ext fun j => ?_, rfl, fun _ => rfl⟩
    rw [← hnew]
    constructor
    · intro hlookup
      rcases exists_of_lookup_foldl_insert hlookup with ⟨i, hi, rfl, rfl⟩ | hnone
      · obtain ⟨k, hk, hi'⟩ := hhash i hi
        rwa [hk, Option.getD_some]
      · cases hnone
    · intro hj
      have hkj := ((h.hash k j).mp hj).2
      have hgt : 2 < j := ((h.hash k j).mp hj).1
      have hle := ((h.slots j).mp (h.objAt_of_hash hj).1).2
      have hmem : j ∈ List.range' 3 (s.items.length - 3) := by
        rw [mem_range'_1, h.items]
        omega
      have hk : ((s.items[j]?).map Node.key).getD "" = k := by
        rw [← fst_entry, hkj, Option.getD_some]
      subst hk
      apply lookup_foldl_insert hmem
      intro i hi heq
      obtain ⟨ki, hki, hi'⟩ := hhash i hi
      rw [hki, Option.getD_some] at heq
      rw [heq, hj, Option.some_inj] at hi'
      exact hi'.symm
  refine ⟨{ s with hash }, ?_, ?_, hmoved⟩
  · have hlt : ∀ i ∈ List.range' 3 (s.items.length - 3), i < s.items.length := by
      intro i hi
      have := (hlive i hi).2
      rw [h.items]
      omega
    have hfold := foldlM_insert hlt ∅
    rw [hnew] at hfold
    simp only [Splay.clone, hpad _ h.items, hpad _ h.infos, hfold]
    rfl
  · exact h.reshape hmoved h.holds.embeds (h.exact.congr fun i _ => ⟨rfl, rfl⟩) h.root rfl rfl rfl

end

section Observers

theorem IsSplay.get (h : IsSplay A s t) (k : String) :
    s.get k = some ((s.contents k).elim .nil .stored) := by
  rw [Splay.get, contents]
  cases hk : s.hash.lookup k with
  | none => rfl
  | some i =>
    obtain ⟨-, a, ha, -⟩ := h.objAt_of_hash hk
    obtain ⟨n, hn, hobj⟩ := exists_item_of_objAt ha
    simp [hn, ha, hobj]

omit [StoredObj α I] in
theorem objs_node {l r : SlotTree} {x : ℕ} : s.objs (node l x r).inorder =
    s.objs l.inorder ++ (s.objAt x).toList ++ s.objs r.inorder := by
  cases hobj : s.objAt x <;> simp [objs, inorder, hobj]

omit [StoredObj α I] in
theorem obj_of_objAt {i : ℕ} {n : Node α} {a : α} (hn : s.items[i]? = some n)
    (ha : s.objAt i = some a) : n.obj = .stored a := by
  obtain ⟨n', hn', hobj⟩ := exists_item_of_objAt ha
  rwa [Option.some_inj.mp (hn.symm.trans hn')]

/-- The slots of a subtree are the sentinels, which hold nothing, and slots with an object. -/
def Live (s : Splay α I) (u : SlotTree) : Prop :=
  ∀ i ∈ u.inorder, (i = minv ∨ i = maxv) ∧ s.objAt i = none ∨
    i ≠ minv ∧ i ≠ maxv ∧ ∃ a, s.objAt i = some a

variable {u : SlotTree}

omit [StoredObj α I] in
theorem dfs_spec {p : ℕ} (fuel : ℕ) (hembeds : Embeds s.cells p u)
    (hlive : Live s u) (hfuel : u.inorder.length < fuel) :
    s.dfs fuel u.root = some ((s.objs u.inorder).map .stored) := by
  induction u generalizing fuel p with
  | nil =>
    obtain ⟨fuel, rfl⟩ : ∃ n, fuel = n + 1 := ⟨fuel - 1, by omega⟩
    rfl
  | node l x r ihl ihr =>
    obtain ⟨hx, hcell, hl, hr⟩ := hembeds
    obtain ⟨n, hn, hlinks⟩ := Option.map_eq_some_iff.mp hcell
    have hl' : n.lchild = l.root := by rw [hlinks]
    have hr' : n.rchild = r.root := by rw [hlinks]
    simp only [Live, inorder, length_append, length_cons, mem_append,
      mem_cons] at hfuel hlive
    obtain ⟨fuel, rfl⟩ : ∃ n, fuel = n + 1 := ⟨fuel - 1, by omega⟩
    have hleft := ihl fuel hl (fun i hi => hlive i (.inl hi)) (by omega)
    have hright := ihr fuel hr (fun i hi => hlive i (.inr (.inr hi))) (by omega)
    have hself : (if x ≠ minv ∧ x ≠ maxv then [n.obj] else []) =
        (s.objAt x).toList.map .stored := by
      rcases hlive x (.inr (.inl rfl)) with ⟨hsent, hnone⟩ | ⟨hmin, hmax, a, ha⟩
      · rw [hnone, if_neg (by tauto)]
        rfl
      · rw [ha, if_pos ⟨hmin, hmax⟩, obj_of_objAt hn ha]
        rfl
    change s.dfs (fuel + 1) x = _
    rw [dfs, if_neg hx, hn]
    simp only [Option.bind_eq_bind, Option.bind_some, hl', hr', hleft, hright, hself, objs_node,
      map_append]
    rfl

/-- The traversal of a subtree, ended by a visit that returns `false`. -/
def walk {σ : Type} (s : Splay α I) (g : σ → α → σ × Bool) : SlotTree → σ → σ
  | .nil, acc => acc
  | node l x r, acc =>
    match s.objAt x with
    | none => walk s g r (walk s g l acc)
    | some a =>
      let (acc, goOn) := g (walk s g l acc) a
      if goOn then walk s g r acc else acc

omit [StoredObj α I] in
theorem conditionDfs_spec {σ : Type} {f : σ → Obj α → σ × Bool} {g : σ → α → σ × Bool}
    (hf : ∀ acc a, f acc (.stored a) = g acc a) {p : ℕ} (fuel : ℕ)
    (hembeds : Embeds s.cells p u) (hlive : Live s u) (hfuel : u.inorder.length < fuel) (acc : σ) :
    s.conditionDfs f fuel u.root acc = some (s.walk g u acc) := by
  induction u generalizing fuel p acc with
  | nil =>
    obtain ⟨fuel, rfl⟩ : ∃ n, fuel = n + 1 := ⟨fuel - 1, by omega⟩
    rfl
  | node l x r ihl ihr =>
    obtain ⟨hx, hcell, hl, hr⟩ := hembeds
    obtain ⟨n, hn, hlinks⟩ := Option.map_eq_some_iff.mp hcell
    have hl' : n.lchild = l.root := by rw [hlinks]
    have hr' : n.rchild = r.root := by rw [hlinks]
    simp only [Live, inorder, length_append, length_cons, mem_append,
      mem_cons] at hfuel hlive
    obtain ⟨fuel, rfl⟩ : ∃ n, fuel = n + 1 := ⟨fuel - 1, by omega⟩
    have hleft := ihl fuel hl (fun i hi => hlive i (.inl hi)) (by omega) acc
    have hright := ihr fuel hr (fun i hi => hlive i (.inr (.inr hi))) (by omega)
    change s.conditionDfs f (fuel + 1) x acc = _
    rw [conditionDfs, if_neg hx, hn, walk]
    simp only [Option.bind_eq_bind, Option.bind_some, hl', hr', hleft]
    rcases hlive x (.inr (.inl rfl)) with ⟨hsent, hnone⟩ | ⟨hmin, hmax, a, ha⟩
    · rw [if_neg (by tauto), hright, hnone]
    · rw [if_pos ⟨hmin, hmax⟩, obj_of_objAt hn ha, hf, ha]
      simp only [hright]
      split_ifs <;> rfl

/-- The array holds the tree `t`, whatever the order of its objects and their sums. -/
structure Walkable (s : Splay α I) (t : SlotTree) : Prop where
  embeds : Embeds s.cells 0 t
  root : s.root = t.root
  live : Live s t
  fits : t.inorder.length < s.items.length

theorem IsSplay.isLive (h : IsSplay A s t) : Live s t := by
  intro i hi
  rcases h.live hi with rfl | rfl | ⟨a, ha⟩
  · exact .inl ⟨.inl rfl, h.sentinel _ (by decide)⟩
  · exact .inl ⟨.inr rfl, h.sentinel _ le_rfl⟩
  · have hgt := (h.lt_of_objAt ha).1
    simp only [minv, maxv] at hgt ⊢
    exact .inr ⟨by omega, by omega, a, ha⟩

theorem IsSplay.walkable (h : IsSplay A s t) : Walkable s t :=
  ⟨h.holds.embeds, h.root, h.isLive, h.length_walk_lt⟩

omit [StoredObj α I] in
theorem Walkable.range (h : Walkable s t) : s.range = some ((s.objs t.inorder).map .stored) := by
  rw [Splay.range, h.root]
  exact dfs_spec s.items.length h.embeds h.live h.fits

section

omit [StoredObj α I]

variable (s) (P : α → Bool)

/-- What a conditional traversal should call the predicate on: the objects up to and including the
first that is rejected. -/
def upToRejected : List α → List α
  | [] => []
  | a :: l => a :: if P a then upToRejected l else []

/-- A visit that calls the predicate and notes the call. -/
def visit (acc : List α) : Obj α → List α × Bool
  | .stored a => (acc ++ [a], P a)
  | _ => (acc, true)

/-- What the traversal of a subtree calls the predicate on. -/
def called : SlotTree → List α
  | .nil => []
  | node l x r =>
    called l ++
      match s.objAt x with
      | none => called r
      | some a => a :: if P a then called r else []

/-- All objects behind the first rejected one are in its right subtree. -/
def endsThere : SlotTree → Bool
  | .nil => true
  | node l x r =>
    if (s.objs l.inorder).all P then
      match s.objAt x with
      | none => endsThere r
      | some a => !P a || endsThere r
    else endsThere l && (s.objs (x :: r.inorder)).isEmpty

variable {s P}

theorem walk_eq_called (u : SlotTree) (acc : List α) :
    s.walk (fun acc a => (acc ++ [a], P a)) u acc = acc ++ s.called P u := by
  induction u generalizing acc with
  | nil => simp [walk, called]
  | node l x r ihl ihr =>
    rw [walk, called, ihl]
    cases s.objAt x with
    | none => simp [ihr]
    | some a => cases hP : P a <;> simp [ihr, hP]

theorem upToRejected_append_of_all {l : List α} (h : l.all P = true) (m : List α) :
    upToRejected P (l ++ m) = l ++ upToRejected P m := by
  induction l with
  | nil => rfl
  | cons a l ih =>
    rw [all_cons, Bool.and_eq_true] at h
    rw [cons_append, upToRejected, if_pos h.1, ih h.2, cons_append]

theorem upToRejected_append_of_not_all {l : List α} (h : ¬ l.all P = true) (m : List α) :
    upToRejected P (l ++ m) = upToRejected P l := by
  induction l with
  | nil => exact absurd rfl h
  | cons a l ih =>
    rw [cons_append, upToRejected, upToRejected]
    split_ifs with ha
    · rw [ih fun hall => h (by rw [all_cons, ha, hall]; rfl)]
    · rfl

theorem called_of_all (h : (s.objs u.inorder).all P = true) : s.called P u = s.objs u.inorder := by
  induction u with
  | nil => rfl
  | node l x r ihl ihr =>
    rw [objs_node, all_append, all_append, Bool.and_eq_true, Bool.and_eq_true] at h
    rw [called, objs_node, ihl h.1.1, ihr h.2, append_assoc]
    cases ha : s.objAt x with
    | none => rfl
    | some a =>
      have hP : P a = true := by simpa [ha] using h.1.2
      simp [hP]

theorem called_eq_nil_iff : s.called P u = [] ↔ s.objs u.inorder = [] := by
  induction u with
  | nil => exact iff_of_true rfl rfl
  | node l x r ihl ihr =>
    rw [called, objs_node]
    cases s.objAt x <;> simp [ihl, ihr]

/-- The calls up to the first rejection are all made; the question is what is called after it. -/
theorem called_spec (u : SlotTree) : ∃ extra,
    s.called P u = upToRejected P (s.objs u.inorder) ++ extra ∧
      (extra = [] ↔ s.endsThere P u = true) := by
  induction u with
  | nil => exact ⟨[], rfl, iff_of_true rfl rfl⟩
  | node l x r ihl ihr =>
    rw [objs_node, append_assoc, called, endsThere]
    by_cases hall : (s.objs l.inorder).all P = true
    · obtain ⟨extra, hcalled, hextra⟩ := ihr
      rw [if_pos hall, upToRejected_append_of_all hall, called_of_all hall]
      cases s.objAt x with
      | none => exact ⟨extra, by simp [hcalled], hextra⟩
      | some a =>
        cases hP : P a with
        | true => exact ⟨extra, by simp [upToRejected, hP, hcalled], by simpa [hP] using hextra⟩
        | false => exact ⟨[], by simp [upToRejected, hP], by simp [hP]⟩
    · obtain ⟨extra, hcalled, hextra⟩ := ihl
      rw [if_neg hall, upToRejected_append_of_not_all hall, hcalled, Bool.and_eq_true, ← hextra,
        List.isEmpty_iff]
      refine ⟨_, append_assoc .., append_eq_nil_iff.trans (and_congr_right fun _ => ?_)⟩
      cases ha : s.objAt x with
      | none => simp [objs, ha, called_eq_nil_iff]
      | some a => simp [objs, ha]

end

theorem IsSplay.len (h : IsSplay A s t) {m : GoMap String α}
    (hm : ∀ k, s.contents k = m.lookup k) : s.len = m.len := by
  have hlen := h.len_hash
  have hkeys : s.hash.len = m.len := by
    refine len_congr fun k => ?_
    rw [← not_iff_not, ← AList.lookup_eq_none, ← AList.lookup_eq_none, ← hm, h.contents_eq_none]
  rw [Splay.len]
  omega

/-- The links are inverse to each other, the keys are hashed one to one onto the live slots, and
the array has no other slots. -/
structure WellFormed (s : Splay α I) : Prop where
  items : s.items.length = s.count + 1
  infos : s.infos.length = s.count + 1
  root : 0 < s.root ∧ s.root ≤ s.count
  parent : ∀ i, 0 < i → i ≤ s.count → ∃ p, s.parent i = some p ∧ p ≤ s.count ∧
    (p = 0 ↔ i = s.root) ∧ (p ≠ 0 → ∃ d, s.child d p = some i)
  child : ∀ i, 0 < i → i ≤ s.count → ∀ d, ∃ c, s.child d i = some c ∧ c ≤ s.count ∧
    (c ≠ 0 → s.parent c = some i)
  hash : ∀ k i, s.hash.lookup k = some i ↔
    maxv < i ∧ i ≤ s.count ∧ (s.items[i]?).map Node.key = some k

theorem IsSplay.wellFormed (h : IsSplay A s t) : WellFormed s := by
  have hembeds := h.holds.embeds
  have hroot : t.root ≠ 0 := by
    cases t with
    | nil => exact absurd h.minv_mem not_mem_nil
    | node l x r => exact hembeds.1
  have hparent := hembeds.parent_root hroot
  refine ⟨h.items, h.infos, ?_, fun i hpos hle => ?_, fun i hpos hle d => ?_, fun k i => ?_⟩
  · rw [h.root]
    exact (h.slots _).mp (root_mem hroot)
  · obtain ⟨c, hc, htop, hup, -⟩ := hembeds.links ((h.slots i).mpr ⟨hpos, hle⟩)
    refine ⟨c.parent, parent_eq hc, ?_, ⟨fun h0 => (htop h0).trans h.root.symm, ?_⟩, fun h0 => ?_⟩
    · by_cases h0 : c.parent = 0
      · omega
      · exact ((h.slots _).mp (hup h0).1).2
    · rintro rfl
      rw [h.root] at hc
      rw [hc, Option.map_some, Option.some_inj] at hparent
      exact hparent
    · obtain ⟨-, c', d, hc', hd⟩ := hup h0
      exact ⟨d, by rw [child_eq hc', hd]⟩
  · obtain ⟨c, hc, -, -, hdown⟩ := hembeds.links ((h.slots i).mpr ⟨hpos, hle⟩)
    refine ⟨c.child d, child_eq hc, ?_, fun h0 => ?_⟩
    · by_cases h0 : c.child d = 0
      · omega
      · exact ((h.slots _).mp (hdown d h0).1).2
    · obtain ⟨c', hc', hp⟩ := Option.map_eq_some_iff.mp (hdown d h0).2
      rw [parent_eq hc', hp]
  · rw [h.hash, fst_entry]
    refine ⟨fun ⟨hgt, hk⟩ => ⟨hgt, ?_, hk⟩, fun ⟨hgt, _, hk⟩ => ⟨hgt, hk⟩⟩
    obtain ⟨n, hn, -⟩ := Option.map_eq_some_iff.mp hk
    have hlt := (List.getElem?_eq_some_iff.mp hn).1
    rw [h.items] at hlt
    omega

end Observers

section

inductive Op (α : Type)
  | insert (v : α)
  | delete (key : String)
  | partition (o : α → Bool)
  | clone

def apply (s : Splay α I) : Op α → Option (Splay α I)
  | .insert v => (s.insert v).map Prod.fst
  | .delete k => (s.delete k).map Prod.fst
  | .partition o => (s.partition o).map Prod.fst
  | .clone => s.clone

/-- The finite map of the objects inserted and not deleted. -/
def record (m : GoMap String α) : Op α → GoMap String α
  | .insert v => m.insert (key v) v
  | .delete k => m.erase k
  | .partition _ => m
  | .clone => m

/-- Only absent keys are inserted. -/
def InsertsNew (m : GoMap String α) : Op α → Prop
  | .insert v => key v ∉ m
  | .delete _ => True
  | .partition _ => True
  | .clone => True

instance (m : GoMap String α) : ∀ op : Op α, Decidable (InsertsNew m op)
  | .insert v => inferInstanceAs (Decidable (key v ∉ m))
  | .delete _ => inferInstanceAs (Decidable True)
  | .partition _ => inferInstanceAs (Decidable True)
  | .clone => inferInstanceAs (Decidable True)

theorem IsSplay.apply (hord : Ordered α) (h : IsSplay A s t) {m : GoMap String α}
    (hm : ∀ k, s.contents k = m.lookup k) (op : Op α) (hop : InsertsNew m op) :
    ∃ s' t', s.apply op = some s' ∧ IsSplay A s' t' ∧
      ∀ k, s'.contents k = (record m op).lookup k := by
  cases op with
  | insert v =>
    have hfresh : s.contents (key v) = none := by
      rw [hm]
      exact AList.lookup_eq_none.mpr hop
    obtain ⟨s', t', hs', h', hcontents⟩ := h.insert hord hfresh
    refine ⟨s', t', by simp [Splay.apply, hs'], h', fun k => ?_⟩
    rw [hcontents, record, lookup_insert', hm]
  | delete k =>
    obtain ⟨s', t', hs', h', hcontents⟩ := h.delete k
    refine ⟨s', t', by simp [Splay.apply, hs'], h', fun k' => ?_⟩
    rw [hcontents, record, lookup_erase', hm]
  | partition o =>
    obtain ⟨s', t', info, hs', h', hmoved, -⟩ := h.partition o
    exact ⟨s', t', by simp [Splay.apply, hs'], h', fun k => (hmoved.contents k).trans (hm k)⟩
  | clone =>
    obtain ⟨s', hs', h', hmoved⟩ := h.clone
    exact ⟨s', t, hs', h', fun k => (hmoved.contents k).trans (hm k)⟩

theorem exists_isSplay_run (hord : Ordered α) (A : Aggregate α I) {ops : List (Op α)}
    (hops : Along record InsertsNew ∅ ops) :
    ∃ s t, ops.foldlM apply newSplay = some s ∧ IsSplay A s t ∧
      ∀ k, s.contents k = (run record ∅ ops).lookup k := by
  obtain ⟨s, hs, ⟨t, ht⟩, hcontents⟩ := exists_foldlM_of_simulates
    (R := fun (s : Splay α I) m => (∃ t, IsSplay A s t) ∧ ∀ k, s.contents k = m.lookup k)
    (fun s m op ⟨⟨t, h⟩, hm⟩ hop => by
      obtain ⟨s', t', hs', h', hm'⟩ := h.apply hord hm op hop
      exact ⟨s', hs', ⟨t', h'⟩, hm'⟩)
    ⟨⟨_, isSplay_newSplay A⟩, fun _ => rfl⟩ hops
  exact ⟨s, t, hs, ht, hcontents⟩

/-- Nothing is claimed about the sums, only that they can be made. -/
def Aggregate.any (hmaintain : ∀ (info : I) (l r : MaintainInfo I), l ≠ .forLookup →
    r ≠ .forLookup → (StoredObj.maintain α info l r).isSome) : Aggregate α I where
  own _ _ := True
  sums _ _ := True
  own_make _ := trivial
  sums_make _ := trivial
  maintain _ hl hr := by
    obtain ⟨j, hj⟩ := Option.isSome_iff_exists.mp (hmaintain _ _ _ hl hr)
    exact ⟨j, hj, trivial, fun _ _ _ _ => trivial⟩

/-- Over every run that inserts only absent keys, the splay tree is an ordered map. -/
theorem ordered_map_of_insertsNew (hord : Ordered α)
    (hmaintain : ∀ (info : I) (l r : MaintainInfo I), l ≠ .forLookup → r ≠ .forLookup →
      (StoredObj.maintain α info l r).isSome)
    (ops : List (Op α)) (hops : Along record InsertsNew ∅ ops) :
    ∃ s : Splay α I, ops.foldlM apply newSplay = some s ∧ WellFormed s ∧
      (∃ objs : List α, s.range = some (objs.map .stored) ∧ objs.Pairwise (fun a b => compare b a) ∧
        ∀ a, a ∈ objs ↔ (run record ∅ ops).lookup (key a) = some a) ∧
      (∀ k, s.get k = some (((run record ∅ ops).lookup k).elim .nil .stored)) ∧
      s.len = (run record ∅ ops).len := by
  obtain ⟨s, t, hs, h, hm⟩ := exists_isSplay_run hord (.any hmaintain) hops
  refine ⟨s, hs, h.wellFormed, ⟨s.objs t.inorder, h.walkable.range, h.sorted, fun a => ?_⟩,
    fun k => ?_, h.len hm⟩
  · rw [← hm, h.contents_eq_some]
    simp
  · rw [h.get, hm]

/-- A pod that requests 100m of CPU and 5Ei of memory. -/
def podOfPriority (uid : String) (priority : ℤ) : PodInfo where
  pod := { uid := uid, ns := "ns", name := uid }
  res := { milliCPU := 100, memory := 5 * 2 ^ 60 }
  podPriority := priority

def podOps : List (Op PodInfo) :=
  [.insert (podOfPriority "a" 5), .insert (podOfPriority "b" 3),
    .insert { podOfPriority "c" 5 with startTime := some 1 },
    .delete "a", .partition fun pi => decide (pi.podPriority < 4), .clone]

def pairSplay (ops : List (Op PodInfo)) : Splay PodInfo PodMaintainableInfo :=
  (ops.foldlM apply newSplay).getD newSplay

omit [StoredObj α I] in
/-- The traversal ends with the first rejection just when nothing but the right subtree of the
rejected object is left: the traversals of the subtrees around it go on. -/
theorem conditionRange_ends_iff (h : Walkable s t) (P : α → Bool) :
    s.conditionRange (visit P) [] = some (upToRejected P (s.objs t.inorder)) ↔
      s.endsThere P t = true := by
  obtain ⟨extra, hcalled, hextra⟩ := called_spec t
  rw [Splay.conditionRange, h.root,
    conditionDfs_spec (g := fun acc a => (acc ++ [a], P a)) (fun _ _ => rfl) s.items.length h.embeds
      h.live h.fits, walk_eq_called, nil_append, Option.some_inj, hcalled,
    append_right_eq_self, hextra]

theorem conditionRange_ends_podOps :
    let s := pairSplay (podOps.take 2)
    s.conditionRange (visit fun _ => false) [] = some ((s.objAt 4).toList) := by
  have h : Walkable (pairSplay (podOps.take 2))
      (node (node .nil 1 .nil) 4 (node .nil 3 (node .nil 2 .nil))) := by
    refine ⟨⟨by decide, rfl, ⟨by decide, rfl, trivial, trivial⟩, by decide, rfl, trivial, by decide,
      rfl, trivial, trivial⟩, rfl, ?_, by decide⟩
    intro i hi
    simp only [inorder, nil_append, cons_append, mem_cons, not_mem_nil,
      or_false] at hi
    rcases hi with rfl | rfl | rfl | rfl
    · exact .inl ⟨by decide, rfl⟩
    · exact .inr ⟨by decide, by decide, _, rfl⟩
    · exact .inr ⟨by decide, by decide, _, rfl⟩
    · exact .inl ⟨by decide, rfl⟩
  exact (conditionRange_ends_iff h fun _ => false).mpr rfl

/-- The pod inserted last is the root. The one before it is rejected, and the root still asked. -/
theorem conditionRange_calls_root :
    let s := pairSplay (podOps.take 2).reverse
    ∃ objs, s.range = some (objs.map .stored) ∧
      s.conditionRange (visit fun _ => false) [] = some objs ∧
        objs ≠ upToRejected (fun _ => false) objs :=
  ⟨[podOfPriority "b" 3, podOfPriority "a" 5], rfl, rfl, by simp [upToRejected]⟩

theorem ordered_map_podOps : Along record InsertsNew ∅ podOps ∧
    ∃ s : Splay PodInfo PodMaintainableInfo, podOps.foldlM apply newSplay = some s ∧
      WellFormed s ∧ s.len = 2 := by
  have hops : Along record InsertsNew ∅ podOps := by decide
  obtain ⟨s, hs, hwell, -, -, hlen⟩ :=
    ordered_map_of_insertsNew PodInfo.ordered PodInfo.isSome_maintain podOps hops
  exact ⟨hops, s, hs, hwell, hlen⟩

end

end GodelScheduler.Splay
