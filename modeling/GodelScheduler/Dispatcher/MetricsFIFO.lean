import GodelScheduler.Library.LazyQueue
import GodelScheduler.Library.MapRange
import GodelScheduler.Library.Runs

/-!
# The dispatcher's FIFO

`MetricsFIFO` keeps the stored items by key and a queue of keys. Deleting an item
leaves its index in the queue, where `pop` skips it; only a long queue is cleaned.
Next to the FIFO runs the line of the keys in the order in which they came in to
stay. A deleted item that is added again goes to the end of the line, but in the
queue it has the place of an index that is left of it, and `pops_in_order_iff` says
that this is the only way out of order.

Metrics are left out, and a `pop` that waits is one that is called again later.
-/

namespace GodelScheduler.Dispatcher

open Library GoMap List AList

variable {α : Type}

/-- The error of a key function, with the object at fault. -/
structure KeyError (α : Type) where
  obj : α
  err : String
  deriving DecidableEq

inductive Popped (α : Type)
  | item (obj : α)
  | errFIFOClosed
  /-- Nothing is stored and the queue is open. -/
  | wait
  deriving DecidableEq

structure MetricsFIFO (α : Type) where
  items : GoMap String α := ∅
  queue : List String := []
  closed : Bool := false

namespace MetricsFIFO

def danglingIndicesThreshold : ℤ := 100

section

-- the update handler gives the new object as it is after it has been told about the old one
variable (keyFunc : α → Except String String) (updateHandler : α → α → α) (f : MetricsFIFO α)

def update (obj : α) : MetricsFIFO α × Option (KeyError α) :=
  match keyFunc obj with
  | .error err => (f, some ⟨obj, err⟩)
  | .ok id =>
    match f.items.lookup id with
    | some existed => ({ f with items := f.items.insert id (updateHandler existed obj) }, none)
    | none => ({ f with items := f.items.insert id obj, queue := f.queue ++ [id] }, none)

def add (obj : α) : MetricsFIFO α × Option (KeyError α) :=
  f.update keyFunc updateHandler obj

/-- The first index whose item is stored, its item and the indexes after it. -/
def takeFirst (items : GoMap String α) : List String → Option (String × α × List String)
  | [] => none
  | id :: queue =>
    match items.lookup id with
    | none => takeFirst items queue
    | some item => some (id, item, queue)

def pop : MetricsFIFO α × Popped α :=
  match takeFirst f.items f.queue with
  | none => ({ f with queue := [] }, if f.closed then .errFIFOClosed else .wait)
  | some (id, item, queue) => ({ f with items := f.items.erase id, queue }, .item item)

def removeDanglingIndices : MetricsFIFO α :=
  { f with queue := f.queue.filter fun id => id ∈ f.items }

def delete (obj : α) : MetricsFIFO α × Option (KeyError α) :=
  match keyFunc obj with
  | .error err => (f, some ⟨obj, err⟩)
  | .ok id =>
    match f.items.lookup id with
    | none => (f, none)
    | some _ =>
      let f :=
        if (f.queue.length : ℤ) - GoMap.len f.items > danglingIndicesThreshold then
          f.removeDanglingIndices
        else f
      ({ f with items := f.items.erase id }, none)

def close : MetricsFIFO α := { f with closed := true }

end

inductive Op (α : Type)
  | add (obj : α)
  | update (obj : α)
  | delete (obj : α)
  | pop
  | close

section

variable (keyFunc : α → Except String String) (updateHandler : α → α → α)

def apply (f : MetricsFIFO α) : Op α → MetricsFIFO α
  | .add obj => (f.add keyFunc updateHandler obj).1
  | .update obj => (f.update keyFunc updateHandler obj).1
  | .delete obj => (f.delete keyFunc obj).1
  | .pop => f.pop.1
  | .close => f.close

/-- The FIFO and the keys of the stored items, those present the longest first. -/
structure Observed (α : Type) where
  fifo : MetricsFIFO α := {}
  line : List String := []

variable (s : Observed α)

/-- Keys that are no longer stored leave the line, and a key that is new joins it at the end. -/
def Observed.observe (fifo : MetricsFIFO α) : Observed α where
  fifo := fifo
  line := (s.line.filter fun id => id ∈ fifo.items) ++ fifo.items.keys.filter fun id => id ∉ s.line

def step (op : Op α) : Observed α :=
  s.observe (s.fifo.apply keyFunc updateHandler op)

/-- `pop` takes out the item whose key has been present the longest, if anything is stored. -/
def PopsOldest : Prop :=
  match s.line with
  | [] => ∀ item, s.fifo.pop.2 ≠ .item item
  | id :: _ => ∃ item, s.fifo.items.lookup id = some item ∧ s.fifo.pop.2 = .item item ∧
    s.fifo.pop.1.items = s.fifo.items.erase id

/-- From here on `pop` after `pop` takes out the oldest item. -/
def PopsInOrder : Prop :=
  ∀ n, PopsOldest (run (step keyFunc updateHandler) s (List.replicate n .pop))

/-- Every stored key has an index before any index that is left of the key. -/
def AllBefore (f : MetricsFIFO α) (id : String) : Prop :=
  ∀ id' ∈ f.items, id' ∈ f.queue.takeWhile (· ≠ id)

/-- A key that is not stored is added only if every stored key is before its old indexes. -/
def ReaddedLast : Op α → Prop
  | .add obj | .update obj =>
    ∀ id, keyFunc obj = .ok id → id ∉ s.fifo.items → s.fifo.AllBefore id
  | .delete _ | .pop | .close => True

end

/-- The order in which `pop` after `pop` takes out the keys. -/
def order (f : MetricsFIFO α) : List String := turns f.queue f.items.keys.toFinset

/-- The line holds the stored keys, and each has an index. -/
structure Tracked (s : Observed α) : Prop where
  nodup : s.line.Nodup
  mem_line : ∀ id, id ∈ s.line ↔ id ∈ s.fifo.items
  queued : ∀ id ∈ s.fifo.items, id ∈ s.fifo.queue

section Steps

variable {keyFunc : α → Except String String} {updateHandler : α → α → α}
  {f : MetricsFIFO α} {s : Observed α}

theorem takeFirst_eq_none {items : GoMap String α} {queue : List String}
    (h : takeFirst items queue = none) : turns queue items.keys.toFinset = [] := by
  induction queue with
  | nil => rfl
  | cons id queue ih =>
    rw [takeFirst] at h
    cases hlookup : items.lookup id with
    | none =>
      rw [hlookup] at h
      rw [turns, if_neg, ih h]
      rw [mem_toFinset, ← AList.mem_keys]
      exact AList.lookup_eq_none.mp hlookup
    | some item =>
      rw [hlookup] at h
      cases h

/-- What `pop` takes out: the first of the order, with its item. -/
theorem takeFirst_eq_some {items : GoMap String α} {queue queue' : List String} {id : String}
    {item : α} (h : takeFirst items queue = some (id, item, queue')) :
    items.lookup id = some item ∧
      turns queue items.keys.toFinset = id :: turns queue' (items.erase id).keys.toFinset ∧
      ∀ id' ∈ items.erase id, id' ∈ queue → id' ∈ queue' := by
  induction queue with
  | nil => cases h
  | cons a queue ih =>
    rw [takeFirst] at h
    cases hlookup : items.lookup a with
    | none =>
      rw [hlookup] at h
      have hout : a ∉ items := AList.lookup_eq_none.mp hlookup
      obtain ⟨hitem, hturns, hqueue⟩ := ih h
      refine ⟨hitem, ?_, fun id' hid' hmem => hqueue id' hid' ?_⟩
      · rw [turns, if_neg (by rwa [mem_toFinset, ← AList.mem_keys]), hturns]
      · refine (mem_cons.mp hmem).resolve_left ?_
        rintro rfl
        exact hout (mem_erase.mp hid').2
    | some item' =>
      rw [hlookup] at h
      obtain ⟨rfl, rfl, rfl⟩ : a = id ∧ item' = item ∧ queue = queue' := by
        simpa using Option.some.inj h
      have hin : a ∈ items := mem_iff_lookup.mpr ⟨item', hlookup⟩
      refine ⟨hlookup, ?_, fun id' hid' hmem => (mem_cons.mp hmem).resolve_left ?_⟩
      · rw [turns, if_pos (by rwa [mem_toFinset, ← AList.mem_keys]), toFinset_keys_erase]
      · exact (mem_erase.mp hid').1

section

variable {f' : MetricsFIFO α} {id : String} {item : α}

theorem Tracked.observe (h : Tracked s) (hqueued : ∀ id ∈ f'.items, id ∈ f'.queue) :
    Tracked (s.observe f') where
  nodup := by
    refine nodup_append'.mpr
      ⟨h.nodup.filter _, (AList.keys_nodup f'.items).filter _, fun a ha ha' => ?_⟩
    exact absurd (mem_filter.mp ha).1 (by simpa using (mem_filter.mp ha').2)
  mem_line a := by
    simp only [Observed.observe, mem_append, mem_filter, ← AList.mem_keys,
      decide_eq_true_eq]
    tauto
  queued := hqueued

/-- Without new items the line only loses those that are gone. -/
theorem Tracked.line_of_subset (h : Tracked s) (hsub : ∀ id ∈ f'.items, id ∈ s.fifo.items) :
    (s.observe f').line = s.line.filter fun a => a ∈ f'.items := by
  have hnew : (f'.items.keys.filter fun a => a ∉ s.line) = [] :=
    filter_eq_nil_iff.mpr fun a ha => by
      simpa using (h.mem_line a).mpr (hsub a (AList.mem_keys.mpr ha))
  rw [Observed.observe, hnew, append_nil]

theorem Tracked.line_of_keys (h : Tracked s) (hkeys : ∀ id, id ∈ f'.items ↔ id ∈ s.fifo.items) :
    (s.observe f').line = s.line := by
  rw [h.line_of_subset fun id => (hkeys id).mp, filter_eq_self]
  exact fun a ha => by simpa [hkeys] using (h.mem_line a).mp ha

theorem Tracked.line_of_erase (h : Tracked s) (hitems : f'.items = s.fifo.items.erase id) :
    (s.observe f').line = s.line.filter (· ≠ id) := by
  rw [h.line_of_subset fun a ha => (mem_erase.mp (hitems ▸ ha)).2]
  exact filter_congr fun a ha => by simp [hitems, (h.mem_line a).mp ha]

theorem Tracked.line_of_insert (h : Tracked s) (hid : id ∉ s.fifo.items)
    (hitems : f'.items = s.fifo.items.insert id item) : (s.observe f').line = s.line ++ [id] := by
  have hstay : (s.line.filter fun a => a ∈ f'.items) = s.line :=
    filter_eq_self.mpr fun a ha => by simp [hitems, (h.mem_line a).mp ha]
  have hnew : (f'.items.keys.filter fun a => a ∉ s.line) = [id] := by
    have hrest : ((s.fifo.items.keys.erase id).filter fun a => a ∉ s.line) = [] :=
      filter_eq_nil_iff.mpr fun a ha => by
        have hin : a ∈ s.fifo.items := AList.mem_keys.mpr (mem_of_mem_erase ha)
        simpa [h.mem_line] using hin
    rw [hitems, keys_insert, filter_cons_of_pos (by simpa [h.mem_line] using hid), hrest]
  rw [Observed.observe, hstay, hnew]

end

theorem order_of_keys {f' : MetricsFIFO α} (hkeys : ∀ id, id ∈ f'.items ↔ id ∈ f.items)
    (hqueue : f'.queue = f.queue) : f'.order = f.order := by
  rw [order, order, hqueue]
  refine turns_congr fun a _ => ?_
  rw [mem_toFinset, mem_toFinset, ← AList.mem_keys, ← AList.mem_keys, hkeys]

theorem order_removeDanglingIndices : f.removeDanglingIndices.order = f.order := by
  refine turns_filter fun a ha => ?_
  rw [mem_toFinset, ← AList.mem_keys] at ha
  exact decide_eq_true ha

theorem mem_queue_removeDanglingIndices {id : String} (hid : id ∈ f.items) (h : id ∈ f.queue) :
    id ∈ f.removeDanglingIndices.queue :=
  mem_filter.mpr ⟨h, decide_eq_true hid⟩

variable (keyFunc updateHandler f) in
/-- What `update` does to the keys and the queue. -/
theorem update_cases (obj : α) :
    ((∀ id, id ∈ (f.update keyFunc updateHandler obj).1.items ↔ id ∈ f.items) ∧
      (f.update keyFunc updateHandler obj).1.queue = f.queue ∧
      ∀ id, keyFunc obj = .ok id → id ∈ f.items) ∨
    ∃ id, keyFunc obj = .ok id ∧ id ∉ f.items ∧
      (f.update keyFunc updateHandler obj).1.items = f.items.insert id obj ∧
      (f.update keyFunc updateHandler obj).1.queue = f.queue ++ [id] := by
  unfold update
  cases keyFunc obj with
  | error err => exact .inl ⟨fun _ => Iff.rfl, rfl, nofun⟩
  | ok id =>
    dsimp only
    cases hlookup : f.items.lookup id with
    | none => exact .inr ⟨id, rfl, AList.lookup_eq_none.mp hlookup, rfl, rfl⟩
    | some existed =>
      have hin : id ∈ f.items := mem_iff_lookup.mpr ⟨existed, hlookup⟩
      refine .inl ⟨fun a => ?_, rfl, fun a ha => Except.ok.inj ha ▸ hin⟩
      rw [mem_insert, or_iff_right_of_imp]
      rintro rfl
      exact hin

variable (keyFunc f) in
/-- What `delete` does: nothing, or one key is no longer stored and only loses its turn. -/
theorem delete_cases (obj : α) :
    (f.delete keyFunc obj).1 = f ∨
    ∃ id, (f.delete keyFunc obj).1.items = f.items.erase id ∧
      (f.delete keyFunc obj).1.order = f.order.filter (· ≠ id) ∧
      ∀ a ∈ f.items, a ∈ f.queue → a ∈ (f.delete keyFunc obj).1.queue := by
  unfold delete
  cases keyFunc obj with
  | error err => exact .inl rfl
  | ok id =>
    dsimp only
    cases f.items.lookup id with
    | none => exact .inl rfl
    | some item =>
      refine .inr ⟨id, ?_⟩
      dsimp only [order]
      rw [toFinset_keys_erase, turns_erase]
      split_ifs
      · refine ⟨rfl, ?_, fun a ha hqueue => mem_queue_removeDanglingIndices ha hqueue⟩
        exact congrArg (List.filter _) order_removeDanglingIndices
      · exact ⟨rfl, rfl, fun _ _ hqueue => hqueue⟩

variable (f) in
/-- What `pop` does: it finds nothing, or takes out the first of the order. -/
theorem pop_cases :
    (f.pop.1.items = f.items ∧ f.pop.1.order = [] ∧ f.order = [] ∧ ∀ item, f.pop.2 ≠ .item item) ∨
    ∃ id item, f.items.lookup id = some item ∧ f.pop.2 = .item item ∧
      f.pop.1.items = f.items.erase id ∧ f.order = id :: f.pop.1.order ∧
      ∀ a ∈ f.pop.1.items, a ∈ f.queue → a ∈ f.pop.1.queue := by
  unfold pop
  rcases hfirst : takeFirst f.items f.queue with _ | ⟨id, item, queue⟩
  · refine .inl ⟨rfl, rfl, takeFirst_eq_none hfirst, fun item => ?_⟩
    split_ifs <;> nofun
  · obtain ⟨hitem, hturns, hqueue⟩ := takeFirst_eq_some hfirst
    exact .inr ⟨id, item, hitem, rfl, rfl, hturns, hqueue⟩

theorem mem_order (hqueued : ∀ id ∈ f.items, id ∈ f.queue) (id : String) :
    id ∈ f.order ↔ id ∈ f.items := by
  rw [order, mem_turns, mem_toFinset, ← AList.mem_keys]
  exact and_iff_right_of_imp (hqueued id)

theorem filter_order {id : String} {rest : List String} (h : f.order = id :: rest) :
    f.order.filter (· ≠ id) = rest := by
  have hnodup : f.order.Nodup := nodup_turns
  rw [h] at hnodup ⊢
  rw [filter_cons_of_neg (by simp), filter_eq_self]
  intro a ha
  simpa using ne_of_mem_of_not_mem ha (nodup_cons.mp hnodup).1

theorem queued_update (hqueued : ∀ id ∈ f.items, id ∈ f.queue) (obj : α) :
    ∀ id ∈ (f.update keyFunc updateHandler obj).1.items,
      id ∈ (f.update keyFunc updateHandler obj).1.queue := by
  intro a ha
  rcases update_cases keyFunc updateHandler f obj with
    ⟨hkeys, hqueue, -⟩ | ⟨id, -, -, hitems, hqueue⟩
  · rw [hqueue]
    exact hqueued a ((hkeys a).mp ha)
  · rw [hitems, mem_insert] at ha
    rw [hqueue, mem_append, mem_singleton]
    exact ha.symm.imp_left (hqueued a)

theorem Tracked.step (h : Tracked s) (op : Op α) :
    Tracked (MetricsFIFO.step keyFunc updateHandler s op) := by
  refine h.observe fun a ha => ?_
  cases op with
  | add obj => exact queued_update h.queued obj a ha
  | update obj => exact queued_update h.queued obj a ha
  | delete obj =>
    rcases delete_cases keyFunc s.fifo obj with hsame | ⟨id, hitems, -, hqueue⟩
    · simp only [apply, hsame] at ha ⊢
      exact h.queued a ha
    · simp only [apply] at ha ⊢
      rw [hitems, mem_erase] at ha
      exact hqueue a ha.2 (h.queued a ha.2)
  | pop =>
    rcases pop_cases s.fifo with ⟨hitems, -, hnil, -⟩ | ⟨id, item, -, -, hitems, -, hqueue⟩
    · simp only [apply] at ha
      rw [hitems, ← mem_order h.queued, hnil] at ha
      exact absurd ha not_mem_nil
    · have hin : a ∈ s.fifo.items := by
        simp only [apply, hitems, mem_erase] at ha
        exact ha.2
      exact hqueue a ha (h.queued a hin)
  | close => exact h.queued a ha

theorem order_update_iff (h : Tracked s) (hord : s.fifo.order = s.line) (obj : α) :
    (s.fifo.update keyFunc updateHandler obj).1.order =
        (s.observe (s.fifo.update keyFunc updateHandler obj).1).line ↔
      ∀ id, keyFunc obj = .ok id → id ∉ s.fifo.items → s.fifo.AllBefore id := by
  rcases update_cases keyFunc updateHandler s.fifo obj with
    ⟨hkeys, hqueue, hin⟩ | ⟨id, hkey, hid, hitems, hqueue⟩
  · refine iff_of_true ?_ fun id hkey hid => absurd (hin id hkey) hid
    rw [order_of_keys hkeys hqueue, h.line_of_keys hkeys, hord]
  · have hall : (∀ a, keyFunc obj = .ok a → a ∉ s.fifo.items → s.fifo.AllBefore a) ↔
        s.fifo.AllBefore id := by
      rw [hkey]
      refine ⟨fun hbefore => hbefore id rfl hid, fun hbefore a ha _ => ?_⟩
      exact Except.ok.inj ha ▸ hbefore
    rw [hall, h.line_of_insert hid hitems, order, hqueue, hitems, toFinset_keys_insert, ← hord,
      order, turns_concat_iff (by rwa [mem_toFinset, ← AList.mem_keys])]
    simp only [mem_toFinset, ← AList.mem_keys, AllBefore]
    exact forall₂_congr fun a ha => forall_prop_of_true (h.queued a ha)

theorem order_pop (h : Tracked s) (hord : s.fifo.order = s.line) :
    s.fifo.pop.1.order = (s.observe s.fifo.pop.1).line := by
  rcases pop_cases s.fifo with ⟨hitems, hafter, hbefore, -⟩ | ⟨id, item, -, -, hitems, hfirst, -⟩
  · rw [hafter, h.line_of_keys fun a => by rw [hitems], ← hord, hbefore]
  · rw [h.line_of_erase hitems, ← hord, filter_order hfirst]

/-- One operation keeps the order of the queue that of the line just when it adds no key in the
place of an old index. -/
theorem order_step_iff (h : Tracked s) (hord : s.fifo.order = s.line) (op : Op α) :
    (step keyFunc updateHandler s op).fifo.order = (step keyFunc updateHandler s op).line ↔
      ReaddedLast keyFunc s op := by
  cases op with
  | add obj => exact order_update_iff h hord obj
  | update obj => exact order_update_iff h hord obj
  | delete obj =>
    refine iff_of_true ?_ trivial
    simp only [step, apply]
    rcases delete_cases keyFunc s.fifo obj with hsame | ⟨id, hitems, horder, -⟩
    · rw [hsame, h.line_of_keys fun _ => Iff.rfl]
      exact hord
    · rw [h.line_of_erase hitems, ← hord]
      exact horder
  | pop => exact iff_of_true (order_pop h hord) trivial
  | close =>
    refine iff_of_true ?_ trivial
    exact hord.trans (h.line_of_keys fun _ => Iff.rfl).symm

theorem popsOldest_of_order (hord : s.fifo.order = s.line) : PopsOldest s := by
  unfold PopsOldest
  rw [← hord]
  rcases pop_cases s.fifo with ⟨-, -, hnil, hitem⟩ | ⟨id, item, hlookup, hpop, hitems, hfirst, -⟩
  · rw [hnil]
    exact hitem
  · rw [hfirst]
    exact ⟨item, hlookup, hpop, hitems⟩

variable (keyFunc updateHandler) in
/-- Every further `pop` takes out the oldest item just when queue and line have one order. -/
theorem popsInOrder_iff (h : Tracked s) :
    PopsInOrder keyFunc updateHandler s ↔ s.fifo.order = s.line := by
  constructor
  · intro hpops
    -- by induction on the line, whose first key the next `pop` takes out
    induction hline : s.line generalizing s with
    | nil =>
      refine eq_nil_iff_forall_not_mem.mpr fun id hid => ?_
      rw [mem_order h.queued, ← h.mem_line, hline] at hid
      exact absurd hid not_mem_nil
    | cons id rest ih =>
      have hnow := hpops 0
      simp only [replicate_zero, run_nil, PopsOldest, hline] at hnow
      obtain ⟨item, hlookup, hpop, hitems⟩ := hnow
      rcases pop_cases s.fifo with ⟨-, -, -, hno⟩ | ⟨id', item', hlookup', -, hitems', hfirst, -⟩
      · exact absurd hpop (hno item)
      · have hsame : id' = id := by
          by_contra hne
          have hin : id ∈ s.fifo.items.erase id' :=
            mem_erase.mpr ⟨Ne.symm hne, mem_iff_lookup.mpr ⟨item, hlookup⟩⟩
          rw [← hitems', hitems] at hin
          exact (mem_erase.mp hin).1 rfl
        subst hsame
        have hrest : (step keyFunc updateHandler s .pop).line = rest := by
          have hnodup := h.nodup
          refine (h.line_of_erase hitems).trans ?_
          rw [hline] at hnodup ⊢
          rw [filter_cons_of_neg (by simp), filter_eq_self]
          intro a ha
          simpa using ne_of_mem_of_not_mem ha (nodup_cons.mp hnodup).1
        rw [hfirst]
        exact congrArg _ (ih (h.step .pop) (fun n => hpops (n + 1)) hrest)
  · intro hord n
    induction n generalizing s with
    | zero => exact popsOldest_of_order hord
    | succ n ih => exact ih (h.step .pop) (order_pop h hord)

end Steps

/-- Over every run from the empty FIFO, every `pop` after any of its states takes out the item
present the longest just when a key is added anew only while every stored key has an index
before the indexes left of it. -/
theorem pops_in_order_iff (keyFunc : α → Except String String) (updateHandler : α → α → α)
    (ops : List (Op α)) :
    Always (step keyFunc updateHandler) (PopsInOrder keyFunc updateHandler) {} ops ↔
      Along (step keyFunc updateHandler) (ReaddedLast keyFunc) {} ops := by
  have hempty : Tracked ({} : Observed α) :=
    ⟨nodup_nil, fun _ => iff_of_false not_mem_nil (notMem_empty _),
      fun _ hid => absurd hid (notMem_empty _)⟩
  refine always_iff_along (I := fun s => Tracked s ∧ s.fifo.order = s.line) ?_ ?_ ?_
    ⟨hempty, rfl⟩ (along_true _ ops)
  · rintro s ⟨htracked, hord⟩
    exact (popsInOrder_iff keyFunc updateHandler htracked).mpr hord
  · rintro s op ⟨htracked, hord⟩ - hlast
    exact ⟨htracked.step op, (order_step_iff htracked hord op).mpr hlast⟩
  · rintro s op ⟨htracked, hord⟩ - hpops
    have hafter := (popsInOrder_iff keyFunc updateHandler (htracked.step op)).mp hpops
    exact (order_step_iff htracked hord op).mp hafter

/-- An item is deleted and added again while another one is waiting: it is popped first. -/
theorem readded_item_popped_first :
    let s : Observed String := run (step .ok fun _ new => new) {}
      [.add "a", .add "b", .delete "a", .add "a"]
    s.line = ["b", "a"] ∧ s.fifo.queue = ["a", "b", "a"] ∧ s.fifo.pop.2 = .item "a" ∧
      ¬ PopsOldest s := by
  intro s
  have hline : s.line = ["b", "a"] := by decide
  have hpop : s.fifo.pop.2 = .item "a" := by decide
  have hb : s.fifo.items.lookup "b" = some "b" := by decide
  refine ⟨hline, by decide, hpop, fun hold => ?_⟩
  rw [PopsOldest, hline] at hold
  obtain ⟨item, hlookup, hitem, -⟩ := hold
  rw [hb] at hlookup
  rw [hpop, ← Option.some.inj hlookup] at hitem
  exact absurd hitem (by decide)

/-- Every stored key has an index, so `pop` finds an item as long as one is stored. -/
theorem Tracked.len_pop {s : Observed α} (h : Tracked s) :
    ((∃ item, s.fifo.pop.2 = .item item) ↔ 0 < s.fifo.items.len) ∧
      s.fifo.pop.1.items.len = s.fifo.items.len - 1 := by
  rcases pop_cases s.fifo with ⟨hitems, -, hnil, hnone⟩ | ⟨id, item, hlookup, hpop, hitems, -, -⟩
  · have hempty : s.fifo.items.len = 0 := by
      refine length_eq_zero_iff.mpr (eq_nil_iff_forall_not_mem.mpr fun id hid => ?_)
      rw [← AList.mem_keys, ← mem_order h.queued, hnil] at hid
      exact not_mem_nil hid
    rw [hitems, hempty]
    exact ⟨iff_of_false (fun ⟨item, hitem⟩ => hnone item hitem) (lt_irrefl 0), rfl⟩
  · have hlen := len_erase_add_one hlookup
    rw [hitems]
    exact ⟨iff_of_true ⟨item, hpop⟩ (by omega), by omega⟩

/-- Nothing is stranded: after every run, `pop` takes out an item as often as items are stored. -/
theorem pop_drains (keyFunc : α → Except String String) (updateHandler : α → α → α)
    (ops : List (Op α)) (n : ℕ) :
    let s := run (step keyFunc updateHandler) {} ops
    let after := run (step keyFunc updateHandler) s (List.replicate n .pop)
    ((∃ item, after.fifo.pop.2 = .item item) ↔ n < s.fifo.items.len) ∧
      after.fifo.items.len = s.fifo.items.len - n := by
  intro s
  have hs : Tracked s := by
    refine run_invariant (fun s op h => h.step op)
      ⟨nodup_nil, fun id => ?_, fun id hid => ?_⟩ ops
    · exact iff_of_false not_mem_nil (notMem_empty _)
    · exact absurd hid (notMem_empty _)
  clear_value s
  induction n generalizing s with
  | zero => exact ⟨hs.len_pop.1, rfl⟩
  | succ n ih =>
    have hlen : (step keyFunc updateHandler s .pop).fifo.items.len = s.fifo.items.len - 1 :=
      hs.len_pop.2
    have hrest := ih (step keyFunc updateHandler s .pop) (hs.step .pop)
    rw [hlen] at hrest
    refine ⟨hrest.1.trans ?_, hrest.2.trans ?_⟩
    · omega
    · omega

section

variable (keyFunc : α → Except String String) (updateHandler : α → α → α)

/-- The indexes beyond one for each stored item. -/
def surplus (f : MetricsFIFO α) : ℤ := f.queue.length - GoMap.len f.items

/-- An item is deleted while the stored keys have few indexes too many, if the queue is cleaned. -/
def CleansEnough (f : MetricsFIFO α) : Op α → Prop
  | .delete obj => (∃ id ∈ f.items, keyFunc obj = .ok id) → f.surplus > danglingIndicesThreshold →
    f.removeDanglingIndices.surplus ≤ danglingIndicesThreshold
  | .add _ | .update _ | .pop | .close => True

variable {keyFunc updateHandler} {f : MetricsFIFO α}

theorem surplus_update (obj : α) : (f.update keyFunc updateHandler obj).1.surplus = f.surplus := by
  unfold surplus
  rcases update_cases keyFunc updateHandler f obj with
    ⟨hkeys, hqueue, -⟩ | ⟨id, -, hid, hitems, hqueue⟩
  · rw [hqueue, len_congr hkeys]
  · rw [hqueue, hitems, len_insert_of_notMem hid, length_append, length_singleton]
    omega

theorem length_takeFirst {items : GoMap String α} {queue queue' : List String} {id : String}
    {item : α} (h : takeFirst items queue = some (id, item, queue')) :
    queue'.length < queue.length := by
  induction queue with
  | nil => cases h
  | cons a queue ih =>
    rw [takeFirst] at h
    rw [length_cons]
    split at h
    · exact (ih h).trans (Nat.lt_succ_self _)
    · cases h
      exact Nat.lt_succ_self _

theorem surplus_pop_le : f.pop.1.surplus ≤ f.surplus := by
  unfold surplus pop
  rcases hfirst : takeFirst f.items f.queue with _ | ⟨id, item, queue⟩
  · simp
  · have hlen := len_erase_add_one (takeFirst_eq_some hfirst).1
    have hqueue := length_takeFirst hfirst
    dsimp only
    omega

/-- A delete leaves the index of the item behind, on a queue that may have been cleaned. -/
theorem surplus_delete_le_iff (h : f.surplus ≤ danglingIndicesThreshold + 1) (obj : α) :
    (f.delete keyFunc obj).1.surplus ≤ danglingIndicesThreshold + 1 ↔
      f.CleansEnough keyFunc (.delete obj) := by
  rw [delete, CleansEnough]
  cases hkey : keyFunc obj with
  | error err =>
    refine iff_of_true h ?_
    rintro ⟨id, -, hid⟩
    cases hid
  | ok id =>
    dsimp only
    cases hlookup : f.items.lookup id with
    | none =>
      refine iff_of_true h ?_
      rintro ⟨_, hin, ⟨⟩⟩
      exact absurd hin (AList.lookup_eq_none.mp hlookup)
    | some item =>
      have hlen := len_erase_add_one hlookup
      rw [forall_prop_of_true ⟨id, mem_iff_lookup.mpr ⟨item, hlookup⟩, rfl⟩]
      split_ifs with hlong
      · simp only [surplus, removeDanglingIndices]
        rw [forall_prop_of_true hlong]
        omega
      · refine iff_of_true ?_ fun hnot => absurd hnot hlong
        simp only [surplus]
        omega

end

/-- Over every run from the empty FIFO, the queue has at most the threshold and one more indexes
beyond the stored items just when each delete that cleans the queue finds the stored keys with
at most the threshold of indexes too many: those of a key added anew are not dangling. -/
theorem surplus_bounded_iff (keyFunc : α → Except String String) (updateHandler : α → α → α)
    (ops : List (Op α)) :
    Always (apply keyFunc updateHandler) (fun f => f.surplus ≤ danglingIndicesThreshold + 1) {}
        ops ↔
      Along (apply keyFunc updateHandler) (CleansEnough keyFunc) {} ops := by
  have hstep : ∀ (f : MetricsFIFO α) op, f.surplus ≤ danglingIndicesThreshold + 1 →
      ((f.apply keyFunc updateHandler op).surplus ≤ danglingIndicesThreshold + 1 ↔
        f.CleansEnough keyFunc op) := by
    intro f op h
    cases op with
    | add obj => exact iff_of_true ((surplus_update obj).trans_le h) trivial
    | update obj => exact iff_of_true ((surplus_update obj).trans_le h) trivial
    | delete obj => exact surplus_delete_le_iff h obj
    | pop => exact iff_of_true (surplus_pop_le.trans h) trivial
    | close => exact iff_of_true h trivial
  exact always_iff_along (fun _ h => h) (fun f op h _ => (hstep f op h).mpr)
    (fun f op h _ => (hstep f op h).mp) (by simp [surplus, danglingIndicesThreshold])
    (along_true _ ops)

/-- An item that is added and deleted over and over leaves an index each time. -/
theorem readded_item_leaks :
    (run (apply .ok fun _ new => new) ({} : MetricsFIFO String)
      (List.replicate 102 [.add "a", .delete "a"]).flatten).surplus =
      danglingIndicesThreshold + 2 := by
  decide +kernel

end MetricsFIFO

end GodelScheduler.Dispatcher
