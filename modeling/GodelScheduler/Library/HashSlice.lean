import GodelScheduler.Library.MapRange

/-!
# Slices indexed by a hash map

A hash slice keeps its items in a slice and the position of each key in a map.
`add` appends or overwrites in place, `del` moves the last item into the gap.
The key of an item is read by the function `key`, which may read a state of
its own, so it is an argument of every operation.

`WF` says that the map is the inverse of reading keys off the slice. Under it
`add` and `del` are insertion and removal by key (`mem_add`, `mem_del`).
-/

namespace GodelScheduler.Library

open List

structure HashSlice (κ α : Type*) where
  hash : GoMap κ ℕ
  items : List α
  count : ℕ

namespace HashSlice

variable {κ α : Type*} [DecidableEq κ] (key key' : α → κ)

def new : HashSlice κ α := ⟨∅, [], 0⟩

def add (hs : HashSlice κ α) (n : α) : HashSlice κ α :=
  match hs.hash.lookup (key n) with
  | none => ⟨hs.hash.insert (key n) hs.count, hs.items ++ [n], hs.count + 1⟩
  | some p => { hs with items := hs.items.set p n }

def del (hs : HashSlice κ α) (n : α) : HashSlice κ α :=
  match hs.hash.lookup (key n) with
  | none => hs
  | some px =>
    let count := hs.count - 1
    match hs.items[count]? with
    | none => hs
    | some y => ⟨(hs.hash.insert (key y) px).erase (key n), (hs.items.set px y).take count, count⟩

structure WF (hs : HashSlice κ α) : Prop where
  count_eq : hs.count = hs.items.length
  hash_iff : ∀ k i, hs.hash.lookup k = some i ↔ ∃ n, hs.items[i]? = some n ∧ key n = k

theorem wf_new : WF key (new : HashSlice κ α) := by
  constructor
  · rfl
  · intro k i
    simp [new]

variable {key key'} {hs : HashSlice κ α}

theorem WF.congr (h : WF key hs) (hk : ∀ n ∈ hs.items, key' n = key n) : WF key' hs := by
  constructor
  · exact h.count_eq
  · intro k i
    rw [h.hash_iff]
    apply exists_congr
    intro n
    apply and_congr_right
    intro hn
    rw [hk n (mem_of_getElem? hn)]

theorem WF.index_unique (h : WF key hs) {i j : ℕ} {x y : α} (hi : hs.items[i]? = some x)
    (hj : hs.items[j]? = some y) (hk : key x = key y) : i = j := by
  have hli := (h.hash_iff (key x) i).mpr ⟨x, hi, rfl⟩
  have hlj := (h.hash_iff (key x) j).mpr ⟨y, hj, hk.symm⟩
  exact Option.some.inj (hli.symm.trans hlj)

theorem WF.keys_nodup (h : WF key hs) : (hs.items.map key).Nodup := by
  rw [nodup_iff_getElem?_ne_getElem?]
  intro i j hij hj heq
  rw [length_map] at hj
  have hjs : hs.items[j]? = some hs.items[j] := List.getElem?_eq_getElem hj
  have his : hs.items[i]? = some hs.items[i] := List.getElem?_eq_getElem (by omega)
  rw [List.getElem?_map, List.getElem?_map, his, hjs] at heq
  have := h.index_unique his hjs (Option.some.inj heq)
  omega

theorem WF.lookup_eq_none (h : WF key hs) {k : κ} :
    hs.hash.lookup k = none ↔ ∀ n ∈ hs.items, key n ≠ k := by
  constructor
  · intro hk n hn e
    obtain ⟨i, hi⟩ := List.getElem?_of_mem hn
    have := (h.hash_iff k i).mpr ⟨n, hi, e⟩
    rw [hk] at this
    cases this
  · intro hall
    rw [Option.eq_none_iff_forall_not_mem]
    intro i hi
    obtain ⟨n, hn, e⟩ := (h.hash_iff k i).mp hi
    exact hall n (mem_of_getElem? hn) e

theorem WF.add (h : WF key hs) (n : α) : WF key (hs.add key n) := by
  unfold HashSlice.add
  split
  · next hnone =>
    constructor
    · simp [h.count_eq]
    · intro k i
      rw [GoMap.lookup_insert', h.count_eq, List.getElem?_append]
      by_cases hk : k = key n
      · subst hk
        rw [if_pos rfl]
        constructor
        · intro hi
          obtain rfl := Option.some.inj hi
          exact ⟨n, by simp, rfl⟩
        · rintro ⟨m, hm, hkey⟩
          split_ifs at hm with hlt
          · exact absurd hkey (h.lookup_eq_none.mp hnone m (mem_of_getElem? hm))
          · rw [List.getElem?_singleton] at hm
            split_ifs at hm
            congr 1
            omega
      · rw [if_neg hk, h.hash_iff]
        apply exists_congr
        intro m
        apply and_congr_left
        intro hkey
        split_ifs with hlt
        · rfl
        · have hout : hs.items[i]? = none := List.getElem?_eq_none (by omega)
          rw [hout, List.getElem?_singleton]
          split_ifs
          · constructor
            · intro hm
              cases hm
            · intro hm
              obtain rfl := Option.some.inj hm
              exact absurd hkey.symm hk
          · rfl
  · next p hp =>
    obtain ⟨m, hm, hmk⟩ := (h.hash_iff _ p).mp hp
    have hlt : p < hs.items.length := (List.getElem?_eq_some_iff.mp hm).1
    constructor
    · simp [h.count_eq]
    · intro k i
      rw [h.hash_iff, List.getElem?_set]
      by_cases hi : p = i
      · subst hi
        rw [if_pos rfl, if_pos hlt]
        constructor
        · rintro ⟨m', hm', rfl⟩
          obtain rfl := Option.some.inj (hm.symm.trans hm')
          exact ⟨n, rfl, hmk.symm⟩
        · rintro ⟨m', hm', rfl⟩
          obtain rfl := Option.some.inj hm'
          exact ⟨m, hm, hmk⟩
      · rw [if_neg hi]

theorem WF.mem_add (h : WF key hs) (n x : α) :
    x ∈ (hs.add key n).items ↔ x = n ∨ x ∈ hs.items ∧ key x ≠ key n := by
  unfold HashSlice.add
  split
  · next hnone =>
    have hall := h.lookup_eq_none.mp hnone
    rw [mem_append, mem_singleton]
    constructor
    · rintro (hx | rfl)
      · exact .inr ⟨hx, hall x hx⟩
      · exact .inl rfl
    · rintro (rfl | ⟨hx, -⟩)
      · exact .inr rfl
      · exact .inl hx
  · next p hp =>
    obtain ⟨m, hm, hmk⟩ := (h.hash_iff _ p).mp hp
    have hlt : p < hs.items.length := (List.getElem?_eq_some_iff.mp hm).1
    simp only [mem_iff_getElem?, List.getElem?_set]
    constructor
    · rintro ⟨i, hi⟩
      by_cases hpi : p = i
      · rw [if_pos hpi, if_pos hlt] at hi
        exact .inl (Option.some.inj hi).symm
      · rw [if_neg hpi] at hi
        refine .inr ⟨⟨i, hi⟩, ?_⟩
        intro hkey
        exact hpi (h.index_unique hm hi (hmk.trans hkey.symm))
    · rintro (rfl | ⟨⟨i, hi⟩, hkey⟩)
      · exact ⟨p, by rw [if_pos rfl, if_pos hlt]⟩
      · have hpi : p ≠ i := by
          rintro rfl
          obtain rfl := Option.some.inj (hm.symm.trans hi)
          exact hkey hmk
        exact ⟨i, by rw [if_neg hpi, hi]⟩

theorem getElem?_del {px : ℕ} {y : α} {n : α} (hp : hs.hash.lookup (key n) = some px)
    (hy : hs.items[hs.count - 1]? = some y) (hlt : px < hs.items.length) (i : ℕ) :
    (hs.del key n).items[i]? =
      if i < hs.count - 1 then if px = i then some y else hs.items[i]? else none := by
  simp only [del, hp, hy, List.getElem?_take, List.getElem?_set, if_pos hlt]

theorem WF.exists_last (h : WF key hs) {k : κ} {px : ℕ} (hp : hs.hash.lookup k = some px) :
    ∃ m y, hs.items[px]? = some m ∧ key m = k ∧ px < hs.items.length ∧
      hs.items[hs.count - 1]? = some y := by
  obtain ⟨m, hm, hmk⟩ := (h.hash_iff _ px).mp hp
  have hlt : px < hs.items.length := (List.getElem?_eq_some_iff.mp hm).1
  have hlast : hs.count - 1 < hs.items.length := by
    rw [h.count_eq]
    omega
  exact ⟨m, _, hm, hmk, hlt, List.getElem?_eq_getElem hlast⟩

theorem WF.mem_del (h : WF key hs) (n x : α) :
    x ∈ (hs.del key n).items ↔ x ∈ hs.items ∧ key x ≠ key n := by
  cases hp : hs.hash.lookup (key n) with
  | none =>
    have hdel : hs.del key n = hs := by simp [del, hp]
    rw [hdel, iff_self_and]
    exact fun hx => h.lookup_eq_none.mp hp x hx
  | some px =>
    obtain ⟨m, y, hm, hmk, hlt, hy⟩ := h.exists_last hp
    have hcount := h.count_eq
    simp only [mem_iff_getElem?, getElem?_del hp hy hlt]
    constructor
    · rintro ⟨i, hi⟩
      split_ifs at hi with hic hpi
      · obtain rfl := Option.some.inj hi
        refine ⟨⟨_, hy⟩, ?_⟩
        intro hkey
        have := h.index_unique hm hy (hmk.trans hkey.symm)
        omega
      · refine ⟨⟨i, hi⟩, ?_⟩
        intro hkey
        exact hpi (h.index_unique hm hi (hmk.trans hkey.symm))
    · rintro ⟨⟨i, hi⟩, hkey⟩
      have hpi : px ≠ i := by
        rintro rfl
        obtain rfl := Option.some.inj (hm.symm.trans hi)
        exact hkey hmk
      have hil : i < hs.items.length := (List.getElem?_eq_some_iff.mp hi).1
      by_cases hic : i < hs.count - 1
      · exact ⟨i, by rw [if_pos hic, if_neg hpi, hi]⟩
      · obtain rfl : i = hs.count - 1 := by omega
        obtain rfl := Option.some.inj (hi.symm.trans hy)
        exact ⟨px, by rw [if_pos (by omega), if_pos rfl]⟩

theorem WF.del (h : WF key hs) (n : α) : WF key (hs.del key n) := by
  cases hp : hs.hash.lookup (key n) with
  | none =>
    have hdel : hs.del key n = hs := by simp [HashSlice.del, hp]
    rwa [hdel]
  | some px =>
    obtain ⟨m, y, hm, hmk, hlt, hy⟩ := h.exists_last hp
    have hcount := h.count_eq
    have hhash : (hs.del key n).hash = (hs.hash.insert (key y) px).erase (key n) := by
      simp [HashSlice.del, hp, hy]
    constructor
    · simp only [HashSlice.del, hp, hy, length_take, length_set]
      omega
    · intro k i
      rw [hhash, getElem?_del hp hy hlt, GoMap.lookup_erase', GoMap.lookup_insert']
      by_cases hkn : k = key n
      · rw [if_pos hkn]
        constructor
        · intro hi
          cases hi
        · rintro ⟨z, hz, hzk⟩
          have hz : z ∈ (hs.del key n).items :=
            mem_of_getElem? ((getElem?_del hp hy hlt i).trans hz)
          exact absurd (hzk.trans hkn) ((h.mem_del n z).mp hz).2
      · rw [if_neg hkn]
        by_cases hky : k = key y
        · rw [if_pos hky]
          have hpx : px < hs.count - 1 := by
            have hne : px ≠ hs.count - 1 := by
              rintro rfl
              obtain rfl := Option.some.inj (hm.symm.trans hy)
              exact hkn (hky.trans hmk)
            omega
          constructor
          · intro hi
            obtain rfl := Option.some.inj hi
            exact ⟨y, by rw [if_pos hpx, if_pos rfl], hky.symm⟩
          · rintro ⟨z, hz, hzk⟩
            split_ifs at hz with hic hpi
            · rw [hpi]
            · have := h.index_unique hz hy (hzk.trans hky)
              omega
        · rw [if_neg hky, h.hash_iff]
          apply exists_congr
          intro z
          apply and_congr_left
          intro hzk
          split_ifs with hic hpi
          · subst hpi
            constructor
            · intro hz
              obtain rfl := Option.some.inj (hm.symm.trans hz)
              exact absurd (hzk.symm.trans hmk) hkn
            · intro hz
              obtain rfl := Option.some.inj hz
              exact absurd hzk.symm hky
          · rfl
          · constructor
            · intro hz
              have hil : i < hs.items.length := (List.getElem?_eq_some_iff.mp hz).1
              obtain rfl : i = hs.count - 1 := by omega
              obtain rfl := Option.some.inj (hz.symm.trans hy)
              exact absurd hzk.symm hky
            · intro hz
              cases hz

end HashSlice

end GodelScheduler.Library
