import Mathlib.Data.List.Perm.Subperm
import Mathlib.Logic.Function.Basic
import Mathlib.Tactic

/-!
# Workers that run until they are stopped

The pieces of a job are cut into chunks, one for each worker. A worker takes the pieces of
its chunk one after the other and looks at a stop flag before each of them. Workers run in
any interleaving: a schedule lists whose turn it is, and a worker's turn is either to look
at the flag and take a piece, or to work on the piece it has taken. The flag may therefore
be set between the two.

Whatever the schedule, the result is that of working on some of the pieces one after the
other, and on all of them if the flag is not set at the end (`parallelizeUntil_spec`).
Where each piece has a slot of its own, `Round.run_spec` says what becomes of the slots.
-/

namespace GodelScheduler.Library

open List

structure Worker where
  todo : List ℕ
  /-- The piece it has taken and not yet worked on. -/
  taken : Option ℕ := none

def Worker.pending (worker : Worker) : List ℕ := worker.taken.toList ++ worker.todo

structure Pool (S : Type*) where
  workers : List Worker
  shared : S

def Pool.pending {S : Type*} (p : Pool S) : List ℕ := p.workers.flatMap Worker.pending

section

variable {S : Type*} (stop : S → Bool) (work : ℕ → S → S)

def Worker.turn (worker : Worker) (s : S) : Worker × S :=
  match worker.taken with
  | some i => (⟨worker.todo, none⟩, work i s)
  | none =>
    if stop s then (⟨[], none⟩, s)
    else
      match worker.todo with
      | [] => (⟨[], none⟩, s)
      | i :: rest => (⟨rest, some i⟩, s)

def Pool.turn (p : Pool S) (w : ℕ) : Pool S :=
  match p.workers[w]? with
  | none => p
  | some worker =>
    let (worker, s) := worker.turn stop work p.shared
    ⟨p.workers.set w worker, s⟩

/-- Work on pieces until the flag is set. -/
def drain : List ℕ → S → S
  | [], s => s
  | i :: rest, s => if stop s then s else drain rest (work i s)

/-- The worker alone, until it is done. -/
def Worker.finish (s : S) (worker : Worker) : S :=
  drain stop work worker.todo (worker.taken.toList.foldl (fun s i => work i s) s)

/-- The indices of a chunk that are pieces. -/
def chunkOf (workers pieces i : ℕ) : List ℕ :=
  let chunk := (pieces + workers - 1) / workers
  (List.range' (i * chunk) chunk).filter (· < pieces)

def Pool.start (workers pieces : ℕ) (s : S) : Pool S :=
  ⟨(List.range workers).map fun i => { todo := chunkOf workers pieces i }, s⟩

/-- The turns of the schedule; the workers that are not done after them finish in their order. -/
def parallelizeUntil (schedule : List ℕ) (workers pieces : ℕ) (s : S) : S :=
  let p := schedule.foldl (Pool.turn stop work) (Pool.start workers pieces s)
  p.workers.foldl (Worker.finish stop work) p.shared

end

section

variable {workers pieces : ℕ}

theorem flatMap_range' (workers chunk : ℕ) :
    (List.range workers).flatMap (fun i => List.range' (i * chunk) chunk) =
      List.range (workers * chunk) := by
  induction workers with
  | zero => simp
  | succ workers ih =>
    rw [range_succ, flatMap_append, ih, Nat.succ_mul, range_add]
    simp [List.range'_eq_map_range]

theorem flatMap_chunkOf (hworkers : 0 < workers) :
    (List.range workers).flatMap (chunkOf workers pieces) = List.range pieces := by
  have henough : pieces ≤ workers * ((pieces + workers - 1) / workers) := by
    have hmod := Nat.mod_lt (pieces + workers - 1) hworkers
    have hdiv := Nat.div_add_mod (pieces + workers - 1) workers
    omega
  unfold chunkOf
  rw [← filter_flatMap, flatMap_range']
  obtain ⟨extra, hextra⟩ := Nat.exists_eq_add_of_le henough
  rw [hextra, range_add, filter_append, filter_eq_self.mpr (by simp),
    filter_eq_nil_iff.mpr (by simp), append_nil]

theorem lt_of_mem_chunkOf (hworkers : 0 < workers) {w i : ℕ} (h : i ∈ chunkOf workers pieces w) :
    w < workers := by
  have henough := Nat.div_add_mod (pieces + workers - 1) workers
  have hmod := Nat.mod_lt (pieces + workers - 1) hworkers
  simp only [chunkOf, mem_filter, mem_range'_1, decide_eq_true_eq] at h
  obtain ⟨⟨hle, -⟩, hlt⟩ := h
  by_contra hw
  have hmul := Nat.mul_le_mul_right ((pieces + workers - 1) / workers) (not_lt.mp hw)
  omega

theorem nodup_chunkOf (w : ℕ) : (chunkOf workers pieces w).Nodup :=
  (nodup_range').filter _

end

section

variable {S : Type*} {stop : S → Bool} {work : ℕ → S → S} {p : Pool S} {w : ℕ}

theorem Pool.turn_turn {i : ℕ} {rest : List ℕ} (hworker : p.workers[w]? = some ⟨i :: rest, none⟩)
    (hstop : stop p.shared = false) :
    (p.turn stop work w).turn stop work w = ⟨p.workers.set w ⟨rest, none⟩, work i p.shared⟩ := by
  obtain ⟨hw, -⟩ := List.getElem?_eq_some_iff.mp hworker
  have htake : p.turn stop work w = ⟨p.workers.set w ⟨rest, some i⟩, p.shared⟩ := by
    rw [Pool.turn, hworker]
    simp [Worker.turn, hstop]
  rw [htake, Pool.turn, List.getElem?_set_self hw]
  simp [Worker.turn]

variable {I : Pool S → Prop} (hturn : ∀ p w, I p → I (p.turn stop work w))
include hturn

theorem drain_induction {todo : List ℕ} (h : I p) (hworker : p.workers[w]? = some ⟨todo, none⟩) :
    I ⟨p.workers.set w ⟨[], none⟩, drain stop work todo p.shared⟩ := by
  have hnext := hturn p w h
  induction todo generalizing p with
  | nil =>
    rw [Pool.turn, hworker] at hnext
    simpa [Worker.turn, drain] using hnext
  | cons i rest ih =>
    rw [drain]
    split_ifs with hstop
    · rw [Pool.turn, hworker] at hnext
      simpa [Worker.turn, hstop] using hnext
    · obtain ⟨hw, -⟩ := List.getElem?_eq_some_iff.mp hworker
      have htwo := hturn _ w hnext
      rw [Pool.turn_turn hworker (Bool.eq_false_iff.mpr hstop)] at htwo
      have hrest := ih htwo (List.getElem?_set_self hw) (hturn _ w htwo)
      rwa [set_set] at hrest

theorem finish_induction {worker : Worker} (h : I p) (hworker : p.workers[w]? = some worker) :
    I ⟨p.workers.set w ⟨[], none⟩, worker.finish stop work p.shared⟩ := by
  obtain ⟨todo, taken⟩ := worker
  cases taken with
  | none => exact drain_induction hturn h hworker
  | some i =>
    obtain ⟨hw, -⟩ := List.getElem?_eq_some_iff.mp hworker
    have hnext := hturn p w h
    rw [Pool.turn, hworker] at hnext
    have hrest := drain_induction hturn hnext (List.getElem?_set_self hw)
    rwa [set_set] at hrest

theorem finishAll_induction {workers : List Worker} {s : S} (done : List Worker)
    (h : I ⟨done ++ workers, s⟩) :
    I ⟨done ++ workers.map fun _ => ⟨[], none⟩, workers.foldl (Worker.finish stop work) s⟩ := by
  induction workers generalizing done s with
  | nil => exact h
  | cons worker workers ih =>
    have hworker : (done ++ worker :: workers)[done.length]? = some worker := by simp
    have hnext := finish_induction hturn h hworker
    have hrest := ih (done ++ [⟨[], none⟩]) (by simpa using hnext)
    simpa using hrest

theorem parallelizeUntil_induction {workers pieces : ℕ} {s : S} (schedule : List ℕ)
    (hstart : I (Pool.start workers pieces s)) :
    ∃ p, I p ∧ p.pending = [] ∧
      p.shared = parallelizeUntil stop work schedule workers pieces s := by
  have hscheduled := List.foldlRecOn schedule _ hstart fun p hp w _ => hturn p w hp
  exact ⟨_, finishAll_induction hturn [] hscheduled, by simp [Pool.pending, Worker.pending], rfl⟩

end

section

variable {S : Type*} {stop : S → Bool} {work : ℕ → S → S} {s₀ s : S} {pieces : ℕ}
  {done pending pending' : List ℕ}

variable (stop work s₀ pieces) in
/-- The pieces that were worked on and those that are pending; none is dropped before the flag is
set. -/
structure Progress (done pending : List ℕ) (s : S) : Prop where
  shared : s = done.foldl (fun s i => work i s) s₀
  apart : (done ++ pending).Subperm (List.range pieces)
  all : stop s = false → (done ++ pending).Perm (List.range pieces)

namespace Progress

theorem perm (h : Progress stop work s₀ pieces done pending s) (hperm : pending.Perm pending') :
    Progress stop work s₀ pieces done pending' s where
  shared := h.shared
  apart := ((hperm.append_left done).subperm_right).mp h.apart
  all hstop := (hperm.append_left done).symm.trans (h.all hstop)

/-- The workers besides one of them keep what is pending for them. -/
theorem exists_others {workers : List Worker} {w : ℕ} {worker : Worker}
    (h : workers[w]? = some worker) :
    ∃ others, (workers.flatMap Worker.pending).Perm (worker.pending ++ others) ∧
      ∀ worker', ((workers.set w worker').flatMap Worker.pending).Perm
        (worker'.pending ++ others) := by
  obtain ⟨hw, hself⟩ := List.getElem?_eq_some_iff.mp h
  have hperm : ∀ worker', ((workers.set w worker').flatMap Worker.pending).Perm
      (worker'.pending ++ ((workers.take w).flatMap Worker.pending ++
        (workers.drop (w + 1)).flatMap Worker.pending)) := by
    intro worker'
    rw [set_eq_take_append_cons_drop, if_pos hw, flatMap_append, flatMap_cons]
    exact perm_append_comm_assoc _ _ _
  have hkeep := hperm worker
  rw [← hself, set_getElem_self, hself] at hkeep
  exact ⟨_, hkeep, hperm⟩

/-- After the flag is set pieces may be dropped. -/
theorem drop (h : Progress stop work s₀ pieces done pending s) (hstop : stop s = true)
    (hsub : pending'.Sublist pending) : Progress stop work s₀ pieces done pending' s where
  shared := h.shared
  apart := (hsub.append_left done).subperm.trans h.apart
  all hclear := by
    rw [hstop] at hclear
    cases hclear

variable (hkeep : ∀ i s, stop s = true → stop (work i s) = true)
include hkeep

theorem step {i : ℕ} (h : Progress stop work s₀ pieces done (i :: pending) s) :
    Progress stop work s₀ pieces (done ++ [i]) pending (work i s) where
  shared := by
    rw [foldl_append, ← h.shared]
    rfl
  apart := by
    rw [append_assoc]
    exact h.apart
  all hclear := by
    rw [append_assoc]
    apply h.all
    rw [Bool.eq_false_iff] at hclear ⊢
    exact fun hstop => hclear (hkeep i s hstop)

/-- One turn of a worker, whatever is pending for the others. -/
theorem worker_turn (worker : Worker) (others : List ℕ)
    (h : Progress stop work s₀ pieces done (worker.pending ++ others) s) :
    ∃ done', Progress stop work s₀ pieces done'
      ((worker.turn stop work s).1.pending ++ others) (worker.turn stop work s).2 := by
  obtain ⟨todo, taken⟩ := worker
  cases taken with
  | some i => exact ⟨done ++ [i], h.step hkeep⟩
  | none =>
    unfold Worker.turn
    split_ifs with hstop
    · exact ⟨done, h.drop hstop (sublist_append_right _ _)⟩
    · cases todo with
      | nil => exact ⟨done, h⟩
      | cons i rest => exact ⟨done, h⟩

theorem pool_turn (p : Pool S) (w : ℕ) (h : Progress stop work s₀ pieces done p.pending p.shared) :
    ∃ done', Progress stop work s₀ pieces done' (p.turn stop work w).pending
      (p.turn stop work w).shared := by
  unfold Pool.turn
  split
  · exact ⟨done, h⟩
  · next worker hworker =>
    obtain ⟨others, hself, hothers⟩ := exists_others hworker
    obtain ⟨done', h'⟩ := worker_turn hkeep worker others (h.perm hself)
    exact ⟨done', h'.perm (hothers _).symm⟩

end Progress

variable {workers : ℕ}

theorem progress_start (hworkers : 0 < workers) (s : S) :
    Progress stop work s pieces [] (Pool.start workers pieces s).pending s := by
  have hpending : (Pool.start workers pieces s).pending = List.range pieces := by
    rw [Pool.pending, Pool.start, flatMap_map]
    exact flatMap_chunkOf hworkers
  rw [hpending]
  exact ⟨rfl, List.Subperm.refl _, fun _ => List.Perm.refl _⟩

variable (stop work) in
/-- Some of the pieces were worked on one after the other, and all of them if the flag is not set
at the end. -/
theorem parallelizeUntil_spec (hworkers : 0 < workers)
    (hkeep : ∀ i s, stop s = true → stop (work i s) = true) (schedule : List ℕ) (pieces : ℕ)
    (s : S) :
    ∃ done : List ℕ, done.Nodup ∧ (∀ i ∈ done, i < pieces) ∧
      parallelizeUntil stop work schedule workers pieces s =
        done.foldl (fun s i => work i s) s ∧
      (stop (parallelizeUntil stop work schedule workers pieces s) = false →
        ∀ i < pieces, i ∈ done) := by
  obtain ⟨p, ⟨done, h⟩, hpending, hshared⟩ := parallelizeUntil_induction
    (I := fun p => ∃ done, Progress stop work s pieces done p.pending p.shared)
    (fun p w ⟨_, h⟩ => h.pool_turn hkeep p w) schedule ⟨[], progress_start hworkers s⟩
  rw [hpending, hshared] at h
  refine ⟨done, ?_, fun i hi => ?_, h.shared, fun hclear i hi => ?_⟩
  · have hsub := h.apart
    rw [append_nil] at hsub
    obtain ⟨l, hperm, hsub⟩ := hsub
    exact hperm.nodup_iff.mp (hsub.nodup nodup_range)
  · exact mem_range.mp (h.apart.subset (mem_append_left _ hi))
  · have hmem := (h.all hclear).mem_iff.mpr (mem_range.mpr hi)
    rwa [append_nil] at hmem

end

section

variable {S : Type*} {stop : S → Bool} {work : ℕ → S → S} {workers pieces : ℕ} {P : S → Prop}
  {worked : S → ℕ → Prop} {allowed : ℕ → Prop} {s : S}

variable (stop work workers pieces P worked allowed) in
/-- A piece is taken only while the flag is not set, and after the pieces before it in its chunk
were worked on. If only allowed pieces are taken in this way, and they keep a property of the
state, the property holds throughout. -/
structure TakenInOrder : Prop where
  worked_self : ∀ i s, worked (work i s) i
  worked_keep : ∀ i j s, worked s j → worked (work i s) j
  take : ∀ s w before i after, P s → stop s = false →
    chunkOf workers pieces w = before ++ i :: after → (∀ j ∈ before, worked s j) → allowed i
  keep : ∀ i s, allowed i → P s → P (work i s)

variable (workers pieces worked allowed) in
/-- The worker has taken an allowed piece, if any, and what is before its pending pieces was worked
on. -/
def Worker.InOrder (s : S) (w : ℕ) (worker : Worker) : Prop :=
  (∀ i ∈ worker.taken, allowed i) ∧
    (worker.todo ≠ [] → ∃ before, chunkOf workers pieces w = before ++ worker.pending ∧
      ∀ j ∈ before, worked s j)

variable (workers pieces P worked allowed) in
def Pool.InOrder (p : Pool S) : Prop :=
  P p.shared ∧ ∀ (w : ℕ) (worker : Worker), p.workers[w]? = some worker →
    worker.InOrder workers pieces worked allowed p.shared w

theorem Worker.InOrder.mono {s' : S} {w : ℕ} {worker : Worker}
    (h : worker.InOrder workers pieces worked allowed s w)
    (hworked : ∀ j, worked s j → worked s' j) :
    worker.InOrder workers pieces worked allowed s' w := by
  refine ⟨h.1, fun htodo => ?_⟩
  obtain ⟨before, hchunk, hbefore⟩ := h.2 htodo
  exact ⟨before, hchunk, fun j hj => hworked j (hbefore j hj)⟩

namespace TakenInOrder

variable (h : TakenInOrder stop work workers pieces P worked allowed) {w : ℕ} {worker : Worker}
include h

theorem inOrder_worked {todo : List ℕ} {i : ℕ}
    (hworker : Worker.InOrder workers pieces worked allowed s w ⟨todo, some i⟩) :
    Worker.InOrder workers pieces worked allowed (work i s) w ⟨todo, none⟩ := by
  refine ⟨by simp, fun htodo => ?_⟩
  obtain ⟨before, hchunk, hbefore⟩ := hworker.2 htodo
  refine ⟨before ++ [i], by rw [hchunk]; simp [Worker.pending], fun j hj => ?_⟩
  rcases mem_append.mp hj with hj | hj
  · exact h.worked_keep i j s (hbefore j hj)
  · rw [mem_singleton.mp hj]
    exact h.worked_self i s

theorem allowed_head {rest : List ℕ} {i : ℕ} (hstop : stop s = false) (hP : P s)
    (hworker : Worker.InOrder workers pieces worked allowed s w ⟨i :: rest, none⟩) : allowed i := by
  obtain ⟨before, hchunk, hbefore⟩ := hworker.2 (by simp)
  exact h.take s w before i rest hP hstop hchunk hbefore

theorem worker_turn (hP : P s) (hworker : worker.InOrder workers pieces worked allowed s w) :
    P (worker.turn stop work s).2 ∧
      (worker.turn stop work s).1.InOrder workers pieces worked allowed
        (worker.turn stop work s).2 w ∧ ∀ j, worked s j → worked (worker.turn stop work s).2 j := by
  obtain ⟨todo, taken⟩ := worker
  cases taken with
  | some i =>
    exact ⟨h.keep i s (hworker.1 i rfl) hP, h.inOrder_worked hworker,
      fun j hj => h.worked_keep i j s hj⟩
  | none =>
    unfold Worker.turn
    split_ifs with hstop
    · exact ⟨hP, ⟨by simp, by simp⟩, fun _ => id⟩
    · cases todo with
      | nil => exact ⟨hP, hworker, fun _ => id⟩
      | cons i rest =>
        refine ⟨hP, ⟨?_, fun _ => hworker.2 (by simp)⟩, fun _ => id⟩
        rintro _ ⟨⟩
        exact h.allowed_head (Bool.eq_false_iff.mpr hstop) hP hworker

theorem pool_turn (p : Pool S) (w : ℕ) (hp : p.InOrder workers pieces P worked allowed) :
    (p.turn stop work w).InOrder workers pieces P worked allowed := by
  unfold Pool.turn
  split
  · exact hp
  · next worker hworker =>
    obtain ⟨hP, hall⟩ := hp
    obtain ⟨hP', hself, hworked⟩ := h.worker_turn hP (hall w worker hworker)
    refine ⟨hP', fun k worker' hk => ?_⟩
    rw [List.getElem?_set] at hk
    split_ifs at hk with hkw hlt
    · subst hkw
      obtain rfl := Option.some.inj hk
      exact hself
    · exact (hall k worker' hk).mono hworked

theorem parallelizeUntil (schedule : List ℕ) (hP : P s) :
    P (parallelizeUntil stop work schedule workers pieces s) := by
  have hstart : (Pool.start workers pieces s).InOrder workers pieces P worked allowed := by
    refine ⟨hP, fun k worker hk => ?_⟩
    rw [Pool.start, List.getElem?_map] at hk
    obtain ⟨k', hk', rfl⟩ := Option.map_eq_some_iff.mp hk
    obtain ⟨hlt, rfl⟩ := List.getElem?_eq_some_iff.mp hk'
    rw [getElem_range]
    exact ⟨by simp, fun _ => ⟨[], rfl, by simp⟩⟩
  obtain ⟨p, hp, -, hshared⟩ := parallelizeUntil_induction h.pool_turn schedule hstart
  exact hshared ▸ hp.1

end TakenInOrder

end

section

variable {S : Type*} {stop : S → Bool} {work : ℕ → S → S} {workers pieces : ℕ} {Q : S → Prop}
  {s : S}

theorem turn_keeps (hQ : ∀ i s, Q s → Q (work i s)) (p : Pool S) (w : ℕ) (h : Q p.shared) :
    Q (p.turn stop work w).shared := by
  unfold Pool.turn Worker.turn
  split
  · exact h
  · next worker _ =>
    cases worker.taken with
    | some i => exact hQ i _ h
    | none =>
      split_ifs
      · exact h
      · cases worker.todo with
        | nil => exact h
        | cons i rest => exact h

variable (stop work) in
/-- A worker works on the first pieces of its chunk before any other worker has a turn. -/
theorem foldl_turn_replicate {w : ℕ} {before after : List ℕ} {p : Pool S}
    (hworker : p.workers[w]? = some ⟨before ++ after, none⟩)
    (hclear : ∀ first rest, before = first ++ rest → rest ≠ [] →
      stop (first.foldl (fun s i => work i s) p.shared) = false) :
    ((List.replicate (2 * before.length) w).foldl (Pool.turn stop work) p).shared =
      before.foldl (fun s i => work i s) p.shared := by
  induction before generalizing p with
  | nil => rfl
  | cons i before ih =>
    obtain ⟨hw, -⟩ := List.getElem?_eq_some_iff.mp hworker
    have hstop : stop p.shared = false := hclear [] (i :: before) rfl (by simp)
    rw [length_cons, Nat.mul_succ, replicate_succ, replicate_succ, foldl_cons,
      foldl_cons, Pool.turn_turn hworker hstop]
    refine ih (List.getElem?_set_self hw) fun first rest hcut hne => ?_
    exact hclear (i :: first) rest (by rw [hcut, cons_append]) hne

/-- Some schedule lets a piece be worked on right after those before it in its chunk, unless they
set the flag. -/
theorem exists_schedule (hQ : ∀ i s, Q s → Q (work i s)) {w i : ℕ} {before after : List ℕ}
    (hw : w < workers) (hchunk : chunkOf workers pieces w = before ++ i :: after)
    (hclear : ∀ first rest, before = first ++ rest →
      stop (first.foldl (fun s i => work i s) s) = false)
    (h : Q (work i (before.foldl (fun s i => work i s) s))) :
    ∃ schedule, Q (parallelizeUntil stop work schedule workers pieces s) := by
  have hworker : (Pool.start workers pieces s).workers[w]? =
      some ⟨(before ++ [i]) ++ after, none⟩ := by
    rw [Pool.start, List.getElem?_map, List.getElem?_range hw, Option.map_some, hchunk,
      append_assoc]
    rfl
  have hshared := foldl_turn_replicate stop work hworker
    fun first rest hcut hne => by
      obtain ⟨rest', hrest'⟩ : ∃ rest', before = first ++ rest' := by
        refine ⟨rest.dropLast, ?_⟩
        rw [← dropLast_append_of_ne_nil hne, ← hcut, dropLast_concat]
      exact hclear first rest' hrest'
  rw [foldl_append] at hshared
  refine ⟨List.replicate (2 * (before ++ [i]).length) w, ?_⟩
  apply finishAll_induction (turn_keeps hQ) []
  exact hshared ▸ h

end

section

/-- Pieces with a slot each. A visit of a slot changes it and may select the piece; enough selected
pieces set the flag. -/
structure Round (α : Type*) where
  slots : ℕ → α
  selected : List ℕ
  stop : Bool

namespace Round

variable {α : Type*} (visit : α → α × Bool) (expected : ℤ)

def check (i : ℕ) (r : Round α) : Round α :=
  let (slot, fits) := visit (r.slots i)
  let slots := Function.update r.slots i slot
  if fits then
    let selected := r.selected ++ [i]
    ⟨slots, selected, r.stop || decide (expected ≤ selected.length)⟩
  else ⟨slots, r.selected, r.stop⟩

def run (schedule : List ℕ) (workers pieces : ℕ) (r : Round α) : Round α :=
  parallelizeUntil stop (check visit expected) schedule workers pieces r

variable {visit expected} {r : Round α} {i : ℕ}

variable (visit expected r i) in
theorem slots_check :
    (check visit expected i r).slots = Function.update r.slots i (visit (r.slots i)).1 := by
  unfold check
  dsimp only
  split_ifs <;> rfl

variable (expected) in
theorem check_of_fits (h : (visit (r.slots i)).2 = true) :
    (check visit expected i r).selected = r.selected ++ [i] ∧
      (check visit expected i r).stop =
        (r.stop || decide (expected ≤ (r.selected.length + 1 : ℤ))) := by
  unfold check
  dsimp only
  rw [if_pos h]
  simp

variable (expected) in
theorem check_of_not_fits (h : (visit (r.slots i)).2 = false) :
    (check visit expected i r).selected = r.selected ∧
      (check visit expected i r).stop = r.stop := by
  unfold check
  dsimp only
  rw [if_neg (by simp [h])]
  simp

theorem stop_check (i : ℕ) (r : Round α) (h : r.stop = true) :
    (check visit expected i r).stop = true := by
  cases hfits : (visit (r.slots i)).2 with
  | true => rw [(check_of_fits expected hfits).2, h, Bool.true_or]
  | false => rw [(check_of_not_fits expected hfits).2, h]

theorem slots_foldl_check (r : Round α) {done : List ℕ} (h : done.Nodup) :
    (done.foldl (fun r i => check visit expected i r) r).slots =
      fun i => if i ∈ done then (visit (r.slots i)).1 else r.slots i := by
  induction done generalizing r with
  | nil => simp
  | cons i done ih =>
    obtain ⟨hi, hdone⟩ := nodup_cons.mp h
    rw [foldl_cons, ih _ hdone, slots_check]
    funext j
    by_cases hji : j = i
    · subst hji
      rw [if_neg hi, Function.update_self, if_pos mem_cons_self]
    · simp only [Function.update_of_ne hji, mem_cons, hji, false_or]

variable (visit expected) in
theorem foldl_check (r : Round α) {done : List ℕ} (h : done.Nodup) :
    let new := done.filter fun i => (visit (r.slots i)).2
    let r' := done.foldl (fun r i => check visit expected i r) r
    r'.selected = r.selected ++ new ∧
      (r'.stop = true ↔ r.stop = true ∨ new ≠ [] ∧ expected ≤ r'.selected.length) := by
  induction done generalizing r with
  | nil => simp
  | cons i done ih =>
    obtain ⟨hi, hdone⟩ := nodup_cons.mp h
    have hsame : done.filter (fun j => (visit ((check visit expected i r).slots j)).2) =
        done.filter fun j => (visit (r.slots j)).2 := by
      refine filter_congr fun j hj => ?_
      rw [slots_check, Function.update_of_ne]
      rintro rfl
      exact hi hj
    obtain ⟨hselected, hstop⟩ := ih (check visit expected i r) hdone
    rw [hsame] at hselected hstop
    dsimp only at hselected hstop ⊢
    rw [foldl_cons, hstop, hselected]
    cases hfits : (visit (r.slots i)).2 with
    | true =>
      obtain ⟨hfirst, hfirstStop⟩ := check_of_fits expected hfits
      rw [hfirst, hfirstStop, filter_cons, if_pos hfits, append_assoc,
        singleton_append]
      simp only [true_and, Bool.or_eq_true, decide_eq_true_eq, length_append,
        length_cons, ne_eq, reduceCtorEq, not_false_eq_true]
      generalize done.filter (fun j => (visit (r.slots j)).2) = new
      cases new with
      | nil => simp
      | cons j new =>
        simp only [reduceCtorEq, not_false_eq_true, true_and, length_cons]
        constructor
        · rintro ((hstop | hfirst) | hmore)
          · exact .inl hstop
          · right; push_cast; omega
          · right; exact hmore
        · rintro (hstop | hmore)
          · exact .inl (.inl hstop)
          · right; exact hmore
    | false =>
      obtain ⟨hfirst, hfirstStop⟩ := check_of_not_fits expected hfits
      rw [hfirst, hfirstStop, filter_cons, if_neg (by simp [hfits])]
      exact ⟨rfl, Iff.rfl⟩

variable {workers : ℕ}

theorem run_spec (visit : α → α × Bool) (expected : ℤ) (schedule : List ℕ) (hworkers : 0 < workers)
    (pieces : ℕ) (r : Round α) :
    ∃ done : List ℕ, (∀ i ∈ done, i < pieces) ∧
      ((run visit expected schedule workers pieces r).stop = false → ∀ i < pieces, i ∈ done) ∧
      (run visit expected schedule workers pieces r).slots =
        (fun i => if i ∈ done then (visit (r.slots i)).1 else r.slots i) ∧
      (run visit expected schedule workers pieces r).selected =
        r.selected ++ (done.filter fun i => (visit (r.slots i)).2) ∧
      ((run visit expected schedule workers pieces r).stop = true ↔ r.stop = true ∨
        (done.filter fun i => (visit (r.slots i)).2) ≠ [] ∧
          expected ≤ (run visit expected schedule workers pieces r).selected.length) := by
  obtain ⟨done, hnodup, hpieces, hrun, hall⟩ := parallelizeUntil_spec stop
    (check visit expected) hworkers stop_check schedule pieces r
  rw [← run] at hrun hall
  obtain ⟨hselected, hstop⟩ := foldl_check visit expected r hnodup
  rw [← hrun] at hselected hstop
  refine ⟨done, hpieces, hall, ?_, hselected, hstop⟩
  rw [hrun, slots_foldl_check r hnodup]

/-- What every visit of a slot keeps holds of all slots, and what every selection tells of all
selected pieces. -/
theorem run_invariant {P : ℕ → α → Prop} {Q : ℕ → Prop} (hvisit : ∀ i a, P i a → P i (visit a).1)
    (hselect : ∀ i a, P i a → (visit a).2 = true → Q i) (schedule : List ℕ) (hworkers : 0 < workers)
    (pieces : ℕ) {r : Round α} (hslots : ∀ i, P i (r.slots i)) (hselected : ∀ i ∈ r.selected, Q i) :
    (∀ i, P i ((run visit expected schedule workers pieces r).slots i)) ∧
      ∀ i ∈ (run visit expected schedule workers pieces r).selected, Q i := by
  obtain ⟨done, -, -, hrun, hnew, -⟩ := run_spec visit expected schedule hworkers pieces r
  rw [hrun, hnew]
  constructor
  · intro i
    dsimp only
    split_ifs
    · exact hvisit i _ (hslots i)
    · exact hslots i
  · intro i hi
    rcases mem_append.mp hi with hi | hi
    · exact hselected i hi
    · exact hselect i _ (hslots i) (mem_filter.mp hi).2

/-- If one piece is enough, the flag tells whether one was selected; if none was, all have been
visited. -/
theorem run_one_spec (visit : α → α × Bool) (schedule : List ℕ) (hworkers : 0 < workers)
    (pieces : ℕ) (slots : ℕ → α) {fits : ℕ → Bool}
    (hfits : ∀ i < pieces, (visit (slots i)).2 = fits i) :
    let r := run visit 1 schedule workers pieces ⟨slots, [], false⟩
    (∀ i, r.slots i = (visit (slots i)).1 ∨ r.slots i = slots i) ∧
      (r.stop = true ↔ r.selected ≠ []) ∧ (∀ i ∈ r.selected, fits i = true) ∧
      (r.selected = [] → ∀ i < pieces, fits i = false ∧ r.slots i = (visit (slots i)).1) := by
  obtain ⟨done, hpieces, hall, hslots, hselected, hstop⟩ :=
    run_spec visit 1 schedule hworkers pieces ⟨slots, [], false⟩
  generalize run visit 1 schedule workers pieces ⟨slots, [], false⟩ = r at *
  dsimp only at hslots hselected hstop
  rw [nil_append, filter_congr fun i hi => hfits i (hpieces i hi)] at hselected
  have hflag : r.stop = true ↔ r.selected ≠ [] := by
    rw [hstop, filter_congr fun i hi => hfits i (hpieces i hi), ← hselected]
    constructor
    · rintro (⟨⟨⟩⟩ | ⟨hne, -⟩)
      exact hne
    · intro hne
      have hlength := length_pos_iff.mpr hne
      exact .inr ⟨hne, by omega⟩
  refine ⟨fun i => ?_, hflag, fun i hi => ?_, fun hnil i hi => ?_⟩
  · rw [hslots]
    exact ite_eq_or_eq ..
  · rw [hselected] at hi
    exact (mem_filter.mp hi).2
  · have hdone : i ∈ done := hall (Bool.eq_false_iff.mpr fun hset => hflag.mp hset hnil) i hi
    rw [hselected] at hnil
    exact ⟨Bool.eq_false_iff.mpr (filter_eq_nil_iff.mp hnil i hdone),
      by rw [hslots]; exact if_pos hdone⟩

end Round

end

end GodelScheduler.Library
