import GodelScheduler.Library.KeyedStore

/-!
# Several keyed stores that share their objects

Shelves are a family of keyed stores. Objects are put on a shelf, dropped from
one, or moved from one shelf to another. `Apart` says that no key is on two
shelves: moving keeps it, and so does putting an object whose key is on no
shelf. `Forall` says that a property holds of every object on every shelf, and
`Held` that a key is on some shelf: no move loses a key.
-/

namespace GodelScheduler.Library

open KeyedStore Function

abbrev Shelves {K V : Type*} (L : Type*) [DecidableEq K] (key : V → K) := L → KeyedStore key

namespace Shelves

section

variable {K L V : Type*} [DecidableEq K] {key : V → K}

def empty (L : Type*) (key : V → K) : Shelves L key := fun _ => .empty key

def Has (s : Shelves L key) (l : L) (k : K) : Prop := ((s l).getByKey k).isSome

instance (s : Shelves L key) (l : L) (k : K) : Decidable (s.Has l k) :=
  inferInstanceAs (Decidable (_ = true))

def Apart (s : Shelves L key) : Prop := ∀ k l l', s.Has l k → s.Has l' k → l = l'

def Forall (P : V → Prop) (s : Shelves L key) : Prop := ∀ l, ∀ v ∈ (s l).list, P v

def Held (s : Shelves L key) (k : K) : Prop := ∃ l, s.Has l k

variable {s : Shelves L key}

theorem has_of_mem_list {l : L} {v : V} (h : v ∈ (s l).list) : s.Has l (key v) := by
  unfold Has
  rw [mem_list_iff.mp h]
  rfl

theorem has_iff_mem {l : L} {k : K} : s.Has l k ↔ k ∈ (s l).list.map key := by
  rw [map_key_list]
  exact AList.lookup_isSome.trans AList.mem_keys

theorem apart_empty : Apart (empty L key) := by
  intro k l l' h
  simp [Has, empty] at h

theorem forall_iff {P : V → Prop} : Forall P s ↔ ∀ l k v, (s l).getByKey k = some v → P v := by
  constructor
  · intro h l k v hv
    exact h l v (mem_list_of_getByKey hv)
  · intro h l v hv
    exact h l (key v) v (mem_list_iff.mp hv)

theorem forall_empty {P : V → Prop} : Forall P (empty L key) := by
  rw [forall_iff]
  intro l k v h
  simp [empty] at h

end

variable {K L V : Type*} [DecidableEq K] [DecidableEq L] {key : V → K}

def put (dst : L) (s : Shelves L key) (v : V) : Shelves L key :=
  Function.update s dst ((s dst).add v)

def drop (src : L) (s : Shelves L key) (k : K) : Shelves L key :=
  Function.update s src ((s src).deleteByKey k)

/-- Put the object on one shelf and drop its key from another. -/
def move (src dst : L) (s : Shelves L key) (v : V) : Shelves L key :=
  (s.put dst v).drop src (key v)

def moveAll (src dst : L) (s : Shelves L key) (vs : List V) : Shelves L key :=
  vs.foldl (move src dst) s

section

variable (s : Shelves L key) {src dst l : L} {k : K} {v : V}

theorem getByKey_put (dst l : L) (v : V) (k : K) :
    (s.put dst v l).getByKey k = if l = dst ∧ k = key v then some v else (s l).getByKey k := by
  unfold put
  by_cases hl : l = dst
  · subst hl
    rw [update_self, getByKey_add]
    simp
  · rw [update_of_ne hl]
    simp [hl]

theorem getByKey_drop (src l : L) (k' k : K) :
    (s.drop src k' l).getByKey k = if l = src ∧ k = k' then none else (s l).getByKey k := by
  unfold drop
  by_cases hl : l = src
  · subst hl
    rw [update_self, getByKey_deleteByKey]
    simp
  · rw [update_of_ne hl]
    simp [hl]

theorem mem_put {w : V} : w ∈ (s.put dst v l).list ↔
    (l = dst ∧ w = v) ∨ (w ∈ (s l).list ∧ ¬(l = dst ∧ key w = key v)) := by
  rw [mem_list_iff, mem_list_iff, getByKey_put]
  grind

theorem mem_drop {w : V} : w ∈ (s.drop src k l).list ↔ w ∈ (s l).list ∧ ¬(l = src ∧ key w = k) := by
  rw [mem_list_iff, mem_list_iff, getByKey_drop]
  grind

theorem put_of_ne (h : l ≠ dst) (v : V) : s.put dst v l = s l :=
  update_of_ne h _ _

theorem drop_of_ne (h : l ≠ src) (k : K) : s.drop src k l = s l :=
  update_of_ne h _ _

theorem move_of_ne (hsrc : l ≠ src) (hdst : l ≠ dst) (v : V) : s.move src dst v l = s l := by
  rw [move, drop_of_ne _ hsrc, put_of_ne _ hdst]

theorem move_dst (h : src ≠ dst) (v : V) : s.move src dst v dst = (s dst).add v := by
  rw [move, drop_of_ne _ h.symm, put, update_self]

theorem getByKey_move_src (h : src ≠ dst) (v : V) (k : K) :
    (s.move src dst v src).getByKey k = if k = key v then none else (s src).getByKey k := by
  rw [move, getByKey_drop, put_of_ne _ h]
  simp

theorem has_put : (s.put dst v).Has l k ↔ (l = dst ∧ k = key v) ∨ s.Has l k := by
  unfold Has
  rw [getByKey_put]
  split_ifs with h <;> simp [h]

theorem has_drop {k' : K} : (s.drop src k').Has l k ↔ ¬(l = src ∧ k = k') ∧ s.Has l k := by
  unfold Has
  rw [getByKey_drop]
  split_ifs with h <;> simp [h]

theorem moveAll_of_ne (hsrc : l ≠ src) (hdst : l ≠ dst) (vs : List V) :
    s.moveAll src dst vs l = s l := by
  induction vs generalizing s with
  | nil => rfl
  | cons v vs ih => exact (ih (s.move src dst v)).trans (move_of_ne s hsrc hdst v)

theorem moveAll_dst (h : src ≠ dst) (vs : List V) :
    s.moveAll src dst vs dst = vs.foldl KeyedStore.add (s dst) := by
  induction vs generalizing s with
  | nil => rfl
  | cons v vs ih =>
    refine (ih (s.move src dst v)).trans ?_
    rw [move_dst s h, List.foldl_cons]

theorem getByKey_moveAll_src (h : src ≠ dst) (vs : List V) (k : K) :
    (s.moveAll src dst vs src).getByKey k =
      if k ∈ vs.map key then none else (s src).getByKey k := by
  induction vs generalizing s with
  | nil => simp [moveAll]
  | cons v vs ih =>
    refine (ih (s.move src dst v)).trans ?_
    rw [getByKey_move_src s h]
    by_cases hk : k = key v <;> simp [hk]

theorem mem_of_mem_moveAll {vs : List V} {w : V} (h : w ∈ (s.moveAll src dst vs l).list) :
    w ∈ vs ∨ w ∈ (s l).list := by
  induction vs generalizing s with
  | nil => exact .inr h
  | cons v vs ih =>
    rcases ih (s.move src dst v) h with hvs | hmoved
    · exact .inl (List.mem_cons_of_mem _ hvs)
    · rcases (mem_put s).mp ((mem_drop _).mp hmoved).1 with ⟨-, rfl⟩ | ⟨hold, -⟩
      · exact .inl List.mem_cons_self
      · exact .inr hold

end

section

variable {s : Shelves L key} {src dst : L}

/-- The key may already be on the shelf it is put on. -/
theorem Apart.put (h : Apart s) {v : V} (hv : ∀ l, s.Has l (key v) → l = dst) :
    Apart (s.put dst v) := by
  intro k l l' hl hl'
  rcases (has_put s).mp hl with ⟨rfl, rfl⟩ | hs
  · rcases (has_put s).mp hl' with ⟨rfl, -⟩ | hs'
    · rfl
    · exact (hv l' hs').symm
  · rcases (has_put s).mp hl' with ⟨rfl, rfl⟩ | hs'
    · exact hv l hs
    · exact h k l l' hs hs'

theorem Apart.move (h : Apart s) {v : V} (hv : ∀ l, s.Has l (key v) → l = src) :
    Apart (s.move src dst v) := by
  intro k l l' hl hl'
  obtain ⟨hne, hl⟩ := (has_drop _).mp hl
  obtain ⟨hne', hl'⟩ := (has_drop _).mp hl'
  rcases (has_put s).mp hl with ⟨rfl, rfl⟩ | hs
  · rcases (has_put s).mp hl' with ⟨rfl, -⟩ | hs'
    · rfl
    · exact absurd ⟨hv l' hs', rfl⟩ hne'
  · rcases (has_put s).mp hl' with ⟨rfl, rfl⟩ | hs'
    · exact absurd ⟨hv l hs, rfl⟩ hne
    · exact h k l l' hs hs'

theorem Apart.drop (h : Apart s) (src : L) (k : K) : Apart (s.drop src k) := by
  intro k' l l' hl hl'
  exact h k' l l' ((has_drop s).mp hl).2 ((has_drop s).mp hl').2

/-- An object goes from one shelf to another, where its key may be too. -/
theorem Apart.drop_put (h : Apart s) {v : V} (hv : ∀ l, s.Has l (key v) → l = src ∨ l = dst) :
    Apart ((s.drop src (key v)).put dst v) := by
  apply (h.drop src (key v)).put
  intro l hl
  obtain ⟨hne, hl⟩ := (has_drop s).mp hl
  exact (hv l hl).resolve_left fun heq => hne ⟨heq, rfl⟩

theorem has_move_of_ne {v : V} {k : K} (hk : k ≠ key v) (l : L) :
    (s.move src dst v).Has l k ↔ s.Has l k := by
  unfold Shelves.move
  rw [has_drop, has_put]
  simp [hk]

theorem Apart.moveAll (h : Apart s) {vs : List V} (hnd : (vs.map key).Nodup)
    (hvs : ∀ v ∈ vs, s.Has src (key v)) : Apart (s.moveAll src dst vs) := by
  induction vs generalizing s with
  | nil => exact h
  | cons v vs ih =>
    rw [nodup_map_cons] at hnd
    have hv : ∀ l, s.Has l (key v) → l = src :=
      fun l hl => h _ l src hl (hvs v List.mem_cons_self)
    apply ih (h.move hv) hnd.2
    intro w hw
    have hne : key w ≠ key v := hnd.1 _ hw
    exact (has_move_of_ne hne src).mpr (hvs w (List.mem_cons_of_mem _ hw))

end

section

variable {s : Shelves L key} {src dst l : L} {k : K}

theorem has_move_of_src_ne (hl : l ≠ src) (h : s.Has l k) (v : V) : (s.move src dst v).Has l k :=
  (has_drop _).mpr ⟨fun hc => hl hc.1, (has_put _).mpr (.inr h)⟩

theorem has_moveAll_of_src_ne (hl : l ≠ src) (h : s.Has l k) (vs : List V) :
    (s.moveAll src dst vs).Has l k := by
  induction vs generalizing s with
  | nil => exact h
  | cons v vs ih => exact ih (has_move_of_src_ne hl h v)

theorem Held.put (h : s.Held k) (dst : L) (v : V) : (s.put dst v).Held k := by
  obtain ⟨l, hl⟩ := h
  exact ⟨l, (has_put _).mpr (.inr hl)⟩

theorem Held.move (hne : src ≠ dst) (h : s.Held k) (v : V) : (s.move src dst v).Held k := by
  obtain ⟨l, hl⟩ := h
  by_cases hk : k = key v
  · exact ⟨dst, (has_drop _).mpr ⟨fun hc => hne hc.1.symm, (has_put _).mpr (.inl ⟨rfl, hk⟩)⟩⟩
  · exact ⟨l, (has_move_of_ne hk l).mpr hl⟩

theorem held_of_held_put {v : V} (h : (s.put dst v).Held k) : k = key v ∨ s.Held k := by
  obtain ⟨l, hl⟩ := h
  rcases (has_put _).mp hl with ⟨-, hk⟩ | hl
  · exact .inl hk
  · exact .inr ⟨l, hl⟩

theorem held_of_held_move {v : V} (h : (s.move src dst v).Held k) : k = key v ∨ s.Held k := by
  obtain ⟨l, hl⟩ := h
  exact held_of_held_put ⟨l, ((has_drop _).mp hl).2⟩

theorem held_put_iff {v : V} (hv : s.Held (key v)) : (s.put dst v).Held k ↔ s.Held k := by
  constructor
  · intro h
    rcases held_of_held_put h with rfl | h
    · exact hv
    · exact h
  · intro h
    exact h.put dst v

theorem held_move_iff (hne : src ≠ dst) {v : V} (hv : s.Held (key v)) :
    (s.move src dst v).Held k ↔ s.Held k := by
  constructor
  · intro h
    rcases held_of_held_move h with rfl | h
    · exact hv
    · exact h
  · intro h
    exact h.move hne v

theorem held_moveAll_iff (hne : src ≠ dst) {vs : List V} (hvs : ∀ v ∈ vs, s.Held (key v)) :
    (s.moveAll src dst vs).Held k ↔ s.Held k := by
  induction vs generalizing s with
  | nil => exact Iff.rfl
  | cons v vs ih =>
    have hv := hvs v List.mem_cons_self
    refine (ih ?_).trans (held_move_iff hne hv)
    intro w hw
    exact (hvs w (List.mem_cons_of_mem _ hw)).move hne v

end

section

variable {P : V → Prop} {s : Shelves L key} (h : Forall P s)

include h

theorem Forall.put (dst : L) {v : V} (hv : P v) : Forall P (s.put dst v) := by
  intro l w hw
  rcases (mem_put s).mp hw with ⟨-, rfl⟩ | ⟨hw, -⟩
  · exact hv
  · exact h l w hw

theorem Forall.drop (src : L) (k : K) : Forall P (s.drop src k) :=
  fun l w hw => h l w ((mem_drop s).mp hw).1

theorem Forall.move (src dst : L) {v : V} (hv : P v) : Forall P (s.move src dst v) :=
  (h.put dst hv).drop src _

theorem Forall.moveAll (src dst : L) {vs : List V} (hvs : ∀ v ∈ vs, P v) :
    Forall P (s.moveAll src dst vs) :=
  fun l w hw => (mem_of_mem_moveAll s hw).elim (hvs w) (h l w)

end

end Shelves

end GodelScheduler.Library
