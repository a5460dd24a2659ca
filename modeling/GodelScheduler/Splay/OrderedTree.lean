import GodelScheduler.Splay.Splaying

/-!
# Splay trees of ordered objects

`IsSplay A s t` is what every operation keeps: the array holds the tree `t`, whose
walk runs through all live slots from one sentinel to the other and meets the
objects in increasing order; the keys are hashed to the slots of their objects; the
sums are right. It is kept when a node is moved to the root or below it, since the
walk does not change (`IsSplay.splay_root`, `IsSplay.splay_below`), and when an object
is inserted where the search for it ends (`IsSplay.insert`).
-/

namespace GodelScheduler

open Library
open List hiding after

/-- The objects are strictly ordered, and totally unless they share a key. -/
structure StoredObj.Ordered (α : Type) {I : Type} [StoredObj α I] : Prop where
  irrefl : ∀ a : α, ¬ compare a a
  trans : ∀ a b c : α, compare a b → compare b c → compare a c
  total : ∀ a b : α, key a ≠ key b → compare a b ∨ compare b a

namespace Splay

open SlotTree Cells StoredObj

variable {α I : Type} {s s' s₁ s₂ : Splay α I} {t l r : SlotTree} {i k x : ℕ} {o : α → Bool}

variable {a : α}

section

def entry (s : Splay α I) (i : ℕ) : Option (String × Obj α) := (s.items[i]?).map Node.payload

theorem lt_of_entry {e : String × Obj α} (h : s.entry i = some e) : i < s.items.length := by
  obtain ⟨n, hn, -⟩ := Option.map_eq_some_iff.mp h
  exact (List.getElem?_eq_some_iff.mp hn).1

/-- The objects keep their slots and the keys their hash from `s` to `s'`. -/
structure Moved (s s' : Splay α I) : Prop where
  hash : ∀ k, s'.hash.lookup k = s.hash.lookup k
  count : s'.count = s.count
  entry : ∀ i, s'.entry i = s.entry i

theorem Moved.trans (h : Moved s s₁) (h' : Moved s₁ s₂) : Moved s s₂ :=
  ⟨fun k => (h'.hash k).trans (h.hash k), h'.count.trans h.count,
    fun i => (h'.entry i).trans (h.entry i)⟩

theorem Keeps.moved (h : Keeps s s') : Moved s s' where
  hash k := by rw [h.hash]
  count := h.count
  entry i := by rw [Splay.entry, Splay.entry, ← List.getElem?_map, ← List.getElem?_map, h.payload]

theorem objAt_eq_some : s.objAt i = some a ↔ ∃ k, s.entry i = some (k, .stored a) := by
  rw [objAt, entry]
  cases s.items[i]? with
  | none => simp
  | some n => cases ho : n.obj <;> simp [Node.payload, ho]

theorem exists_item_of_objAt (h : s.objAt i = some a) :
    ∃ n, s.items[i]? = some n ∧ n.obj = .stored a := by
  obtain ⟨k, hk⟩ := objAt_eq_some.mp h
  obtain ⟨n, hn, hpayload⟩ := Option.map_eq_some_iff.mp hk
  exact ⟨n, hn, congrArg Prod.snd hpayload⟩

theorem objAt_congr {j : ℕ} (h : s'.entry j = s.entry i) : s'.objAt j = s.objAt i := by
  ext a
  rw [objAt_eq_some, objAt_eq_some, h]

theorem Moved.objs (h : Moved s s') (slots : List ℕ) : s'.objs slots = s.objs slots :=
  filterMap_congr fun i _ => objAt_congr (h.entry i)

theorem mem_objs {slots : List ℕ} : a ∈ s.objs slots ↔ ∃ i ∈ slots, s.objAt i = some a :=
  mem_filterMap

def contents (s : Splay α I) (k : String) : Option α := (s.hash.lookup k).bind s.objAt

theorem Moved.contents (h : Moved s s') (k : String) : s'.contents k = s.contents k := by
  have hobj : s'.objAt = s.objAt := funext fun i => objAt_congr (h.entry i)
  rw [Splay.contents, Splay.contents, h.hash, hobj]

end

section

variable {g : ℕ → Bool} {p : ℕ}

/-- The side of a slot on which an object that compares by `o` belongs. -/
def goesRight (s : Splay α I) (o : α → Bool) (i : ℕ) : Bool :=
  if i = minv then true else if i = maxv then false else (s.objAt i).any o

theorem chooseChildIndex_eq (hi : i = minv ∨ i = maxv ∨ ∃ a, s.objAt i = some a) :
    s.chooseChildIndex o i = some (s.goesRight o i) := by
  rw [chooseChildIndex, goesRight]
  split_ifs with hmin hmax
  · rfl
  · rfl
  · obtain ⟨a, ha⟩ := (hi.resolve_left hmin).resolve_left hmax
    obtain ⟨n, hn, hobj⟩ := exists_item_of_objAt ha
    simp [hn, hobj, ha]

/-- The two descents follow the same path: one ends with the last node on it, the other with the
first slot after it. -/
theorem descend_spec (path : List Frame) (fuel : ℕ) (ht : Embeds s.cells p t)
    (hside : ∀ i ∈ t.inorder, s.chooseChildIndex o i = some (g i))
    (hfuel : t.inorder.length < fuel) :
    s.descend o fuel (above path) t.root = some (above (searchPath g t path)) ∧
      s.descendNext o fuel ((after path).headD 0) t.root =
        some ((after (searchPath g t path)).headD 0) := by
  induction t generalizing fuel path p with
  | nil =>
    obtain ⟨fuel, rfl⟩ := Nat.exists_eq_succ_of_ne_zero (Nat.ne_of_gt hfuel)
    exact ⟨rfl, rfl⟩
  | node l x r ihl ihr =>
    obtain ⟨fuel, rfl⟩ := Nat.exists_eq_succ_of_ne_zero (Nat.ne_of_gt (Nat.zero_lt_of_lt hfuel))
    obtain ⟨hx, hcell, hl, hr⟩ := ht
    simp only [inorder, length_append, length_cons, mem_append,
      mem_cons] at hfuel hside
    have hr' := ihr (⟨true, x, l⟩ :: path) fuel hr (fun i hi => hside i (by simp [hi])) (by omega)
    have hl' := ihl (⟨false, x, r⟩ :: path) fuel hl (fun i hi => hside i (by simp [hi])) (by omega)
    rw [searchPath, SlotTree.root, descend, descendNext, if_neg hx, if_neg hx, hside x (by simp)]
    split_ifs with hg
    · rw [hg]
      simpa [child_eq hcell, Cell.child, above, after] using hr'
    · rw [Bool.eq_false_iff.mpr hg]
      simpa [child_eq hcell, Cell.child, above, after] using hl'

end

variable [StoredObj α I] {A : Aggregate α I}

structure IsSplay (A : Aggregate α I) (s : Splay α I) (t : SlotTree) : Prop where
  holds : Holds s t
  exact : Exact A s t
  root : s.root = t.root
  slots : ∀ i, i ∈ t.inorder ↔ 0 < i ∧ i ≤ s.count
  items : s.items.length = s.count + 1
  infos : s.infos.length = s.count + 1
  ends : ∃ m, t.inorder = minv :: m ++ [maxv]
  sentinel : ∀ i, i ≤ maxv → s.objAt i = none
  stored : ∀ i, maxv < i → i ≤ s.count → ∃ a, s.entry i = some (key a, .stored a)
  hash : ∀ k i, s.hash.lookup k = some i ↔ maxv < i ∧ (s.entry i).map Prod.fst = some k
  sorted : (s.objs t.inorder).Pairwise fun a b => compare b a

theorem fence_of_ends {walk m : List ℕ} (hnodup : walk.Nodup)
    (hends : walk = minv :: m ++ [maxv]) : Fence walk := by
  rintro a x b rfl
  have hmax : maxv ∈ a → (x :: b).getLast? = some maxv → False := by
    intro ha hlast
    exact (nodup_append.mp hnodup).2.2 _ ha _ (mem_of_getLast? hlast) rfl
  have hlast : (a ++ x :: b).getLast? = some maxv := by
    rw [hends, List.getLast?_append_of_ne_nil _ (cons_ne_nil _ _)]
    rfl
  constructor
  · intro ha
    refine hmax ha ?_
    rwa [List.getLast?_append_of_ne_nil _ (cons_ne_nil _ _)] at hlast
  · intro hb
    cases a with
    | nil =>
      rw [nil_append, cons_append, List.cons.injEq] at hends
      rw [nil_append, nodup_cons, hends.1] at hnodup
      exact hnodup.1 hb
    | cons y a =>
      rw [cons_append, cons_append, List.cons.injEq] at hends
      rw [cons_append, nodup_cons, hends.1] at hnodup
      exact hnodup.1 (mem_append_right _ (mem_cons_of_mem _ hb))

theorem split_unique {a b a' b' : List ℕ} {x : ℕ} (hnodup : (a ++ x :: b).Nodup)
    (heq : a ++ x :: b = a' ++ x :: b') : a = a' ∧ b = b' := by
  simp only [nodup_append, nodup_cons, mem_cons] at hnodup
  have hsplit := (append_cons_inj_of_notMem (fun h => hnodup.2.2 x h x (Or.inl rfl) rfl)
    hnodup.2.1.1).mp heq
  exact ⟨hsplit.1, hsplit.2.2⟩

theorem ends_split {a b m : List ℕ} (h : a ++ b = minv :: m ++ [maxv]) (ha : a ≠ [])
    (hb : b ≠ []) : ∃ a' b', a = minv :: a' ∧ b = b' ++ [maxv] := by
  obtain ⟨i, a', rfl⟩ := exists_cons_of_ne_nil ha
  obtain ⟨b', j, rfl⟩ := eq_nil_or_concat b |>.resolve_left hb
  have hmin : i = minv := (List.cons.inj h).1
  rw [concat_eq_append, ← append_assoc] at h
  have hmax : [j] = [maxv] := (append_inj' h rfl).2
  exact ⟨a', b', by rw [hmin], by rw [concat_eq_append, hmax]⟩

section

section

variable (h : IsSplay A s t)

include h

theorem IsSplay.length_walk : t.inorder.length = s.count := by
  have hperm : t.inorder.Perm (List.range' 1 s.count) := by
    refine (perm_ext_iff_of_nodup h.holds.nodup nodup_range').mpr fun i => ?_
    rw [h.slots, mem_range'_1]
    omega
  rw [hperm.length_eq, length_range']

theorem IsSplay.length_walk_lt : t.inorder.length < s.items.length := by
  rw [h.length_walk, h.items]
  omega

theorem IsSplay.maxv_le_count : maxv ≤ s.count := by
  obtain ⟨m, hm⟩ := h.ends
  exact ((h.slots maxv).mp (by rw [hm]; simp)).2

theorem IsSplay.minv_mem : minv ∈ t.inorder := by
  obtain ⟨m, hm⟩ := h.ends
  rw [hm]
  exact mem_cons_self ..

theorem IsSplay.reshape {t' : SlotTree} (hmoved : Moved s s')
    (hembeds : Embeds s'.cells 0 t') (hexact : Exact A s' t') (hroot : s'.root = t'.root)
    (hitems : s'.items.length = s.items.length) (hinfos : s'.infos.length = s.infos.length)
    (hwalk : t'.inorder = t.inorder) : IsSplay A s' t' where
  holds := ⟨hembeds, hwalk ▸ h.holds.nodup, hwalk ▸ h.holds.fence⟩
  exact := hexact
  root := hroot
  slots i := by rw [hwalk, hmoved.count, h.slots]
  items := by rw [hitems, hmoved.count, h.items]
  infos := by rw [hinfos, hmoved.count, h.infos]
  ends := hwalk ▸ h.ends
  sentinel i hi := by rw [objAt_congr (hmoved.entry i), h.sentinel i hi]
  stored i := by rw [hmoved.entry, hmoved.count]; exact h.stored i
  hash k i := by rw [hmoved.hash, hmoved.entry, h.hash]
  sorted := by rw [hmoved.objs, hwalk]; exact h.sorted

end

variable {path : List Frame}

theorem Exact.plug (h : Exact A s (plug t path)) : Exact A s t ∧ ExactPath A s path := by
  induction path generalizing t with
  | nil => exact ⟨h, fun f hf => absurd hf not_mem_nil⟩
  | cons f path ih =>
    obtain ⟨hbranch, hpath⟩ := ih h
    obtain ⟨hslot, ht, hsib, -⟩ := exact_branch.mp hbranch
    refine ⟨ht, fun g hg => ?_⟩
    rcases mem_cons.mp hg with rfl | hg
    · exact ⟨hslot, hsib⟩
    · exact hpath g hg

theorem IsSplay.focus (h : IsSplay A s (plug t path)) : Focus A s t path :=
  ⟨h.holds, h.exact.plug.1, h.exact.plug.2⟩

theorem IsSplay.length_path (h : IsSplay A s (plug t path)) : path.length < s.items.length := by
  have hlen := (perm_inorder_plug t path).length_eq
  have hpath := length_le_pathSlots path
  rw [h.length_walk, length_append] at hlen
  rw [h.items]
  omega

theorem exists_node (hx : t.root ≠ 0) : ∃ l r, t = node l t.root r := by
  cases t with
  | nil => exact absurd rfl hx
  | node l x r => exact ⟨l, r, rfl⟩

theorem IsSplay.splay_root (h : IsSplay A s t) (hx : x ∈ t.inorder) :
    ∃ s' l r, s.splay x 0 = some s' ∧ Moved s s' ∧ IsSplay A s' (node l x r) ∧
      (node l x r).inorder = t.inorder := by
  have hx0 := h.holds.embeds.ne_zero hx
  obtain ⟨a, b, path, rfl⟩ := exists_plug hx
  have hfocus : Focus A s (node a x b) (path ++ []) := by
    rw [append_nil]
    exact h.focus
  obtain ⟨s', t', hs', hkeeps, hfocus', hroot, hwalk⟩ :=
    splayLoop_spec s.items.length hfocus hx0 h.length_path
  obtain ⟨l, r, ht'⟩ := exists_node (hroot ▸ hx0 : t'.root ≠ 0)
  rw [hroot] at ht'
  subst ht'
  have hmoved : Moved s { s' with root := x } :=
    ⟨hkeeps.moved.hash, hkeeps.count, hkeeps.moved.entry⟩
  refine ⟨{ s' with root := x }, l, r, ?_, hmoved, ?_, hwalk⟩
  · have hloop : splayLoop x 0 s.items.length s = some s' := hs'
    simp [splay, hloop]
  · refine h.reshape hmoved hfocus'.holds.embeds ?_ rfl hkeeps.items_length hkeeps.infos hwalk
    exact hfocus'.exact.congr fun i _ => ⟨rfl, rfl⟩

theorem IsSplay.splay_below (h : IsSplay A s (node l k r)) (hx : x ∈ r.inorder) :
    ∃ s' u w, s.splay x k = some s' ∧ Moved s s' ∧ IsSplay A s' (node l k (node u x w)) ∧
      (node u x w).inorder = r.inorder := by
  have hx0 : x ≠ 0 := h.holds.embeds.2.2.2.ne_zero hx
  have hk0 : k ≠ 0 := h.holds.embeds.1
  obtain ⟨a, b, path, rfl⟩ := exists_plug hx
  have hplug : node l k (SlotTree.plug (node a x b) path) =
      SlotTree.plug (node a x b) (path ++ [⟨true, k, l⟩]) := by
    rw [plug_append]
    rfl
  rw [hplug] at h
  have hlen := h.length_path
  rw [length_append] at hlen
  obtain ⟨s', t', hs', hkeeps, hfocus', hroot, hwalk⟩ :=
    splayLoop_spec s.items.length h.focus hx0 (by omega)
  obtain ⟨u, w, ht'⟩ := exists_node (hroot ▸ hx0 : t'.root ≠ 0)
  rw [hroot] at ht'
  subst ht'
  have hwalk' : (node l k (node u x w)).inorder =
      (SlotTree.plug (node a x b) (path ++ [⟨true, k, l⟩])).inorder := by
    rw [← hplug]
    exact congrArg (fun m => l.inorder ++ k :: m) hwalk
  obtain ⟨hk, hl⟩ := hfocus'.beside _ (mem_singleton_self _)
  refine ⟨s', u, w, ?_, hkeeps.moved, ?_, hwalk⟩
  · have hloop : splayLoop x k s.items.length s = some s' := hs'
    simp [splay, hloop, hk0]
  · refine h.reshape hkeeps.moved hfocus'.holds.embeds ?_ ?_ hkeeps.items_length hkeeps.infos hwalk'
    · -- Nothing is claimed about the sum at the root: the sentinels are below it.
      refine ⟨hk, hl, hfocus'.exact, fun hmin => absurd ?_ hmin⟩
      rw [hwalk']
      exact h.minv_mem
    · rw [hkeeps.root, h.root, ← hplug]
      rfl

end

section

variable (h : IsSplay A s t)
include h

theorem IsSplay.objAt (hi : maxv < i) (hle : i ≤ s.count) :
    ∃ a, s.objAt i = some a ∧ s.hash.lookup (key a) = some i := by
  obtain ⟨a, ha⟩ := h.stored i hi hle
  exact ⟨a, objAt_eq_some.mpr ⟨_, ha⟩, (h.hash _ i).mpr ⟨hi, by rw [ha]; rfl⟩⟩

theorem IsSplay.live (hi : i ∈ t.inorder) : i = minv ∨ i = maxv ∨ ∃ a, s.objAt i = some a := by
  obtain ⟨hpos, hle⟩ := (h.slots i).mp hi
  rcases Nat.lt_or_ge maxv i with hgt | hsmall
  · obtain ⟨a, ha, -⟩ := h.objAt hgt hle
    exact Or.inr (Or.inr ⟨a, ha⟩)
  · simp only [minv, maxv] at hsmall ⊢
    omega

theorem IsSplay.lt_of_objAt (ha : s.objAt i = some a) : maxv < i ∧ i ≤ s.count := by
  constructor
  · by_contra hle
    rw [h.sentinel i (by omega)] at ha
    cases ha
  · obtain ⟨k, hk⟩ := objAt_eq_some.mp ha
    have := lt_of_entry hk
    rw [h.items] at this
    omega

theorem IsSplay.hash_of_objAt (ha : s.objAt i = some a) : s.hash.lookup (key a) = some i := by
  obtain ⟨hgt, hle⟩ := h.lt_of_objAt ha
  obtain ⟨b, hb, hhash⟩ := h.objAt hgt hle
  rw [ha, Option.some_inj] at hb
  rwa [hb]

theorem IsSplay.goesRight_of_objAt (ha : s.objAt i = some a) : s.goesRight o i = o a := by
  obtain ⟨hgt, -⟩ := h.lt_of_objAt ha
  rw [goesRight, if_neg, if_neg, ha, Option.any_some]
  all_goals simp only [minv, maxv] at hgt ⊢; omega

theorem IsSplay.contents_eq_some {k : String} :
    s.contents k = some a ↔ key a = k ∧ a ∈ s.objs t.inorder := by
  rw [contents, Option.bind_eq_some_iff, mem_objs]
  constructor
  · rintro ⟨i, hi, ha⟩
    obtain ⟨hgt, hle⟩ := h.lt_of_objAt ha
    have hkey := ((h.hash _ i).mp (h.hash_of_objAt ha)).2
    rw [((h.hash k i).mp hi).2, Option.some_inj] at hkey
    exact ⟨hkey.symm, i, (h.slots i).mpr ⟨by omega, hle⟩, ha⟩
  · rintro ⟨rfl, i, -, ha⟩
    exact ⟨i, h.hash_of_objAt ha, ha⟩

theorem IsSplay.objAt_of_hash {k : String} (hi : s.hash.lookup k = some i) :
    i ∈ t.inorder ∧ ∃ a, s.objAt i = some a ∧ key a = k := by
  obtain ⟨hgt, hfst⟩ := (h.hash k i).mp hi
  obtain ⟨e, he, rfl⟩ := Option.map_eq_some_iff.mp hfst
  have hlt := lt_of_entry he
  rw [h.items] at hlt
  obtain ⟨a, ha⟩ := h.stored i hgt (by omega)
  rw [he, Option.some_inj] at ha
  subst ha
  exact ⟨(h.slots i).mpr ⟨by omega, by omega⟩, a, objAt_eq_some.mpr ⟨_, he⟩, rfl⟩

theorem IsSplay.contents_eq_none {k : String} : s.contents k = none ↔ s.hash.lookup k = none := by
  rw [contents, Option.bind_eq_none_iff]
  constructor
  · intro hnone
    by_contra hne
    obtain ⟨i, hi⟩ := Option.ne_none_iff_exists'.mp hne
    obtain ⟨-, a, ha, -⟩ := h.objAt_of_hash hi
    rw [hnone i hi] at ha
    cases ha
  · intro hnone i hi
    rw [hnone] at hi
    cases hi

theorem IsSplay.pairwise_ends : t.inorder.Pairwise fun i j => i ≠ maxv ∧ j ≠ minv := by
  obtain ⟨m, hm⟩ := h.ends
  have hnodup := h.holds.nodup
  rw [hm] at hnodup ⊢
  simp only [cons_append, nodup_cons, nodup_append, mem_append,
    mem_singleton, not_or] at hnodup
  obtain ⟨⟨hmin, hne⟩, -, -, hmax⟩ := hnodup
  have hne' : maxv ≠ minv := Ne.symm hne
  simp only [cons_append, pairwise_cons, pairwise_append, mem_append,
    mem_singleton]
  refine ⟨?_, ?_, ⟨by simp, .nil⟩, ?_⟩
  · rintro j (hj | rfl)
    · exact ⟨hne, fun h => hmin (h ▸ hj)⟩
    · exact ⟨hne, hne'⟩
  · refine pairwise_of_forall_mem_list fun i hi j hj => ?_
    exact ⟨hmax i hi maxv rfl, fun h => hmin (h ▸ hj)⟩
  · rintro i hi j rfl
    exact ⟨hmax i hi maxv rfl, hne'⟩

theorem IsSplay.monotone
    (ho : ∀ a ∈ s.objs t.inorder, ∀ b ∈ s.objs t.inorder, compare b a → o b → o a) :
    Monotone (s.goesRight o) t.inorder := by
  have hsorted := pairwise_filterMap.mp h.sorted
  refine (hsorted.and h.pairwise_ends).imp_of_mem ?_
  rintro i j hi hj ⟨hless, hmax, hmin⟩ hgj
  rw [goesRight] at hgj ⊢
  split_ifs with hi₁
  · rfl
  have hj₂ : j ≠ maxv := by
    rintro rfl
    rw [if_neg hmin, if_pos rfl] at hgj
    cases hgj
  rw [if_neg hmin, if_neg hj₂] at hgj
  obtain ⟨a, ha⟩ := ((h.live hi).resolve_left hi₁).resolve_left hmax
  obtain ⟨b, hb⟩ := ((h.live hj).resolve_left hmin).resolve_left hj₂
  rw [hb, Option.any_some] at hgj
  rw [ha, Option.any_some]
  exact ho a (mem_filterMap.mpr ⟨i, hi, ha⟩) b (mem_filterMap.mpr ⟨j, hj, hb⟩)
    (hless a ha b hb) hgj

end

end Splay

end GodelScheduler
