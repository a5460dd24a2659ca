import Mathlib.Data.List.Basic
import Mathlib.Tactic

/-!
# Runs of a deterministic step function

An operation carries every choice its step depends on, so a run is determined
by its operations. `Along` constrains the steps of a run, `Always` the states
it reaches. A loop over a list is a run whose invariant may name the elements
already visited.
-/

namespace GodelScheduler.Library

open List

section

variable {S O : Type*} (step : S → O → S)

def run (s : S) (ops : List O) : S := ops.foldl step s

@[simp] theorem run_nil (s : S) : run step s [] = s := rfl

@[simp] theorem run_cons (s : S) (o : O) (ops : List O) :
    run step s (o :: ops) = run step (step s o) ops := rfl

theorem run_append (s : S) (ops ops' : List O) :
    run step s (ops ++ ops') = run step (run step s ops) ops' :=
  foldl_append

/-- Every step of the run meets `C` in the state it starts from. -/
def Along (C : S → O → Prop) : S → List O → Prop
  | _, [] => True
  | s, o :: ops => C s o ∧ Along C (step s o) ops

/-- Every state of the run, the first and the last included, has `P`. -/
def Always (P : S → Prop) : S → List O → Prop
  | s, [] => P s
  | s, o :: ops => P s ∧ Always P (step s o) ops

instance Along.decidable (C : S → O → Prop) [∀ s o, Decidable (C s o)] :
    ∀ s ops, Decidable (Along step C s ops)
  | _, [] => inferInstanceAs (Decidable True)
  | s, o :: ops =>
    have := Along.decidable C (step s o) ops
    inferInstanceAs (Decidable (C s o ∧ Along step C (step s o) ops))

variable {step} {P Q : S → Prop} {C : S → O → Prop} {ops : List O} {s : S}

theorem Always.mono (h : ∀ s, P s → Q s) (hP : Always step P s ops) : Always step Q s ops := by
  induction ops generalizing s with
  | nil => exact h s hP
  | cons o ops ih => exact ⟨h s hP.1, ih hP.2⟩

theorem Always.last (h : Always step P s ops) : P (run step s ops) := by
  induction ops generalizing s with
  | nil => exact h
  | cons o ops ih => exact ih h.2

theorem Always.first (h : Always step P s ops) : P s := by
  cases ops with
  | nil => exact h
  | cons o ops => exact h.1

theorem Along.mono {D : S → O → Prop} (h : ∀ s o, C s o → D s o) (hC : Along step C s ops) :
    Along step D s ops := by
  induction ops generalizing s with
  | nil => trivial
  | cons o ops ih => exact ⟨h s o hC.1, ih hC.2⟩

theorem along_append (ops ops' : List O) :
    Along step C s (ops ++ ops') ↔ Along step C s ops ∧ Along step C (run step s ops) ops' := by
  induction ops generalizing s with
  | nil => simp [Along]
  | cons o ops ih =>
    change C s o ∧ Along step C (step s o) (ops ++ ops') ↔ _
    rw [ih, ← and_assoc]
    rfl

theorem always_of_step (hstep : ∀ s o, P s → C s o → P (step s o))
    (hs : P s) (hC : Along step C s ops) : Always step P s ops := by
  induction ops generalizing s with
  | nil => exact hs
  | cons o ops ih => exact ⟨hs, ih (hstep s o hs hC.1) hC.2⟩

theorem run_invariant (hstep : ∀ s o, P s → P (step s o)) (hs : P s) (ops : List O) :
    P (run step s ops) := by
  induction ops generalizing s with
  | nil => exact hs
  | cons o ops ih => exact ih (hstep s o hs)

theorem along_of_forall {D : O → Prop} (h : ∀ o ∈ ops, D o) :
    Along step (fun _ o => D o) s ops := by
  induction ops generalizing s with
  | nil => trivial
  | cons o ops ih =>
    rw [forall_mem_cons] at h
    exact ⟨h.1, ih h.2⟩

theorem along_true (s : S) (ops : List O) : Along step (fun _ _ => True) s ops :=
  along_of_forall (D := fun _ => True) fun _ _ => trivial

theorem Along.and_forall {D : O → Prop} (hC : Along step C s ops)
    (h : ∀ o ∈ ops, D o) : Along step (fun s o => C s o ∧ D o) s ops := by
  induction ops generalizing s with
  | nil => trivial
  | cons o ops ih =>
    rw [forall_mem_cons] at h
    exact ⟨⟨hC.1, h.1⟩, ih hC.2 h.2⟩

/-- Among the runs whose steps all meet `D`, those with `P` throughout are those whose steps also
meet `C`: under `C` a step keeps an invariant that contains `P`, and a step that ends in `P` has
met `C`. -/
theorem always_iff_along {I : S → Prop} {D : S → O → Prop} (hP : ∀ s, I s → P s)
    (hkeep : ∀ s o, I s → D s o → C s o → I (step s o))
    (hneed : ∀ s o, I s → D s o → P (step s o) → C s o) (hs : I s) (hD : Along step D s ops) :
    Always step P s ops ↔ Along step C s ops := by
  induction ops generalizing s with
  | nil => exact ⟨fun _ => trivial, fun _ => hP s hs⟩
  | cons o ops ih =>
    constructor
    · rintro ⟨-, h⟩
      have hC := hneed s o hs hD.1 h.first
      exact ⟨hC, (ih (hkeep s o hs hD.1 hC) hD.2).mp h⟩
    · rintro ⟨hC, h⟩
      exact ⟨hP s hs, (ih (hkeep s o hs hD.1 hC) hD.2).mpr h⟩

/-- Two conditions on steps that agree where an invariant holds agree along every run, if either
of them lets the invariant pass. -/
theorem along_iff_along {I : S → Prop} {D L : S → O → Prop}
    (hagree : ∀ s o, I s → D s o → (L s o ↔ C s o))
    (hkeep : ∀ s o, I s → D s o → C s o → I (step s o)) (hs : I s) (hD : Along step D s ops) :
    Along step L s ops ↔ Along step C s ops := by
  induction ops generalizing s with
  | nil => exact Iff.rfl
  | cons o ops ih =>
    have hstep := hagree s o hs hD.1
    constructor
    · rintro ⟨hL, h⟩
      exact ⟨hstep.mp hL, (ih (hkeep s o hs hD.1 (hstep.mp hL)) hD.2).mp h⟩
    · rintro ⟨hC, h⟩
      exact ⟨hstep.mpr hC, (ih (hkeep s o hs hD.1 hC) hD.2).mpr h⟩

end

section

variable {S O : Type*} (step : S → O → Option S)

/-- As `Along`, for runs that may end before their last operation. -/
def AlongM (C : S → O → Prop) : S → List O → Prop
  | _, [] => True
  | s, o :: ops => C s o ∧ (step s o).elim True fun s' => AlongM C s' ops

/-- As `Always`, for runs that may end before their last operation. -/
def AlwaysM (P : S → Prop) : S → List O → Prop
  | s, [] => P s
  | s, o :: ops => P s ∧ (step s o).elim True fun s' => AlwaysM P s' ops

instance AlongM.decidable (C : S → O → Prop) [∀ s o, Decidable (C s o)] :
    ∀ s ops, Decidable (AlongM step C s ops)
  | _, [] => inferInstanceAs (Decidable True)
  | s, o :: ops =>
    match h : step s o with
    | none => decidable_of_iff (C s o) (by simp [AlongM, h])
    | some s' =>
      have := AlongM.decidable C s' ops
      decidable_of_iff (C s o ∧ AlongM step C s' ops) (by simp [AlongM, h])

variable {step} {P : S → Prop} {C : S → O → Prop} {ops : List O}

theorem AlwaysM.first {s : S} (h : AlwaysM step P s ops) : P s := by
  cases ops with
  | nil => exact h
  | cons o ops => exact h.1

theorem alongM_of_forall {D : O → Prop} (h : ∀ o ∈ ops, D o) (s : S) :
    AlongM step (fun _ o => D o) s ops := by
  induction ops generalizing s with
  | nil => trivial
  | cons o ops ih =>
    rw [forall_mem_cons] at h
    refine ⟨h.1, ?_⟩
    cases step s o with
    | none => trivial
    | some s' => exact ih h.2 s'

/-- As `always_iff_along`: a step that ends the run meets `C`. -/
theorem alwaysM_iff_alongM {I : S → Prop} {D : S → O → Prop} (hP : ∀ s, I s → P s)
    (hkeep : ∀ s o s', I s → D s o → C s o → step s o = some s' → I s')
    (hneed : ∀ s o, I s → D s o → (∀ s', step s o = some s' → P s') → C s o)
    {s : S} (hs : I s) (hD : AlongM step D s ops) :
    AlwaysM step P s ops ↔ AlongM step C s ops := by
  induction ops generalizing s with
  | nil => exact ⟨fun _ => trivial, fun _ => hP s hs⟩
  | cons o ops ih =>
    obtain ⟨ho, hD⟩ := hD
    cases hstep : step s o with
    | none =>
      have hC : C s o := hneed s o hs ho fun s' hs' => by simp [hstep] at hs'
      simp [AlwaysM, AlongM, hstep, hP s hs, hC]
    | some s' =>
      rw [hstep] at hD
      simp only [AlwaysM, AlongM, hstep, Option.elim_some]
      constructor
      · rintro ⟨-, h⟩
        have hC : C s o := hneed s o hs ho fun t ht => by
          rw [hstep] at ht
          exact Option.some_inj.mp ht ▸ h.first
        exact ⟨hC, (ih (hkeep s o s' hs ho hC hstep) hD).mp h⟩
      · rintro ⟨hC, h⟩
        exact ⟨hP s hs, (ih (hkeep s o s' hs ho hC hstep) hD).mpr h⟩

theorem of_alongM (hstep : ∀ s o s', P s → C s o → step s o = some s' → P s')
    {s s' : S} (hs : P s) (hC : AlongM step C s ops) (hrun : ops.foldlM step s = some s') :
    P s' := by
  induction ops generalizing s with
  | nil =>
    cases hrun
    exact hs
  | cons o ops ih =>
    rw [foldlM_cons] at hrun
    obtain ⟨t, ht, hrun⟩ := Option.bind_eq_some_iff.mp hrun
    obtain ⟨ho, hC⟩ := hC
    rw [ht] at hC
    exact ih (hstep s o t hs ho ht) hC hrun

/-- The simulation rule: if each operation that meets a condition goes through and keeps a relation
to an abstract state, so does a run whose operations all meet it. -/
theorem exists_foldlM_of_simulates {A : Type*} {record : A → O → A} {R : S → A → Prop}
    {C : A → O → Prop}
    (hstep : ∀ s a o, R s a → C a o → ∃ s', step s o = some s' ∧ R s' (record a o)) {s : S} {a : A}
    (h : R s a) (hC : Along record C a ops) :
    ∃ s', ops.foldlM step s = some s' ∧ R s' (run record a ops) := by
  induction ops generalizing s a with
  | nil => exact ⟨s, rfl, h⟩
  | cons o ops ih =>
    obtain ⟨s₁, hs₁, h₁⟩ := hstep s a o h hC.1
    obtain ⟨s', hs', h'⟩ := ih h₁ hC.2
    exact ⟨s', by simp [hs₁, hs'], h'⟩

end

section

variable {S O : Type} {P : List O → S → Prop} {step : S → O → Option S}

/-- The invariant rule for a loop over a list that may fail, and does not: the invariant is about
the part already visited. -/
theorem exists_foldlM_of_step (l : List O) {s : S} (hs : P [] s)
    (hstep : ∀ done o rest s, l = done ++ o :: rest → P done s →
      ∃ s', step s o = some s' ∧ P (done ++ [o]) s') :
    ∃ s', l.foldlM step s = some s' ∧ P l s' := by
  suffices h : ∀ done rest, l = done ++ rest → ∀ s, P done s →
      ∃ s', rest.foldlM step s = some s' ∧ P l s' from h [] l rfl s hs
  intro done rest
  induction rest generalizing done with
  | nil =>
    intro hl s hP
    rw [append_nil] at hl
    exact ⟨s, rfl, hl ▸ hP⟩
  | cons o rest ih =>
    intro hl s hP
    obtain ⟨t, ht, hP⟩ := hstep done o rest s hl hP
    obtain ⟨s', hs', hP⟩ := ih (done ++ [o]) (by simp [hl]) t hP
    exact ⟨s', by simpa [foldlM_cons, ht] using hs', hP⟩

theorem foldl_of_step {step : S → O → S} (l : List O) {s : S} (hs : P [] s)
    (hstep : ∀ done o rest s, l = done ++ o :: rest → P done s → P (done ++ [o]) (step s o)) :
    P l (l.foldl step s) := by
  have h : ∃ s', l.foldlM (fun s o => some (step s o)) s = some s' ∧ P l s' :=
    exists_foldlM_of_step l hs fun done o rest s hl hP => ⟨_, rfl, hstep done o rest s hl hP⟩
  obtain ⟨s', hs', hP⟩ := h
  obtain rfl : l.foldl step s = s' := Option.some_inj.mp (foldlM_pure.symm.trans hs')
  exact hP

theorem notMem_done {l done rest : List O} {o : O} (hl : l = done ++ o :: rest)
    (hnodup : l.Nodup) : o ∉ done := by
  intro hdone
  exact (nodup_append.mp (hl ▸ hnodup)).2.2 o hdone o (mem_cons_self ..) rfl

theorem of_foldlM_eq_some (l : List O) {s s' : S} (hs : P [] s)
    (hstep : ∀ done o rest s s', l = done ++ o :: rest → P done s → step s o = some s' →
      P (done ++ [o]) s') (h : l.foldlM step s = some s') : P l s' := by
  suffices hgen : ∀ done rest, l = done ++ rest → ∀ s, P done s → rest.foldlM step s = some s' →
      P l s' from hgen [] l rfl s hs h
  intro done rest
  induction rest generalizing done with
  | nil =>
    intro hl s hP h
    rw [append_nil] at hl
    cases h
    exact hl ▸ hP
  | cons o rest ih =>
    intro hl s hP h
    rw [foldlM_cons] at h
    obtain ⟨t, ht, h⟩ := Option.bind_eq_some_iff.mp h
    exact ih (done ++ [o]) (by simp [hl]) t (hstep done o rest s t hl hP ht) h

end

end GodelScheduler.Library
