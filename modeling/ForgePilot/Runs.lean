import Mathlib.Data.List.Basic

/-!
# Finite runs of a labelled transition function

A label carries everything a step is given from outside: the call, its
arguments, and the outcome of every operation that may fail. A run is a list of
labels. `Reached` collects the states before, between and after the steps, and
`Along` evaluates a guard at each step in the state that step starts from.

The rules below reduce a statement about all states of a run to one step. The
exact rule is for defects: when a guard is precisely what a step needs to keep
the invariant, the runs that keep it are precisely those whose every step meets
the guard.
-/

namespace ForgePilot.Runs

open List

universe u v
variable {σ : Type u} {ℓ : Type v}

/-- The state after all labels have been performed in order. -/
def run (step : σ → ℓ → σ) (start : σ) (labels : List ℓ) : σ := labels.foldl step start

variable (step : σ → ℓ → σ) (guard : σ → ℓ → Prop) (start : σ)

@[simp] theorem run_nil : run step start [] = start := rfl

@[simp] theorem run_cons (label : ℓ) (rest : List ℓ) :
    run step start (label :: rest) = run step (step start label) rest := rfl

/-- The states of a run, its first and last included. -/
def Reached (step : σ → ℓ → σ) (start : σ) (labels : List ℓ) (state : σ) : Prop :=
  ∃ performed remaining, labels = performed ++ remaining ∧ state = run step start performed

/-- Every step of the run meets the guard in the state it starts from. -/
def Along (step : σ → ℓ → σ) (guard : σ → ℓ → Prop) : σ → List ℓ → Prop
  | _, [] => True
  | state, label :: rest => guard state label ∧ Along step guard (step state label) rest

/-- Whether a run is guarded can be evaluated where the guard can. -/
instance decidableAlong (step : σ → ℓ → σ) (guard : σ → ℓ → Prop)
    [∀ state label, Decidable (guard state label)] :
    ∀ start labels, Decidable (Along step guard start labels)
  | _, [] => inferInstanceAs (Decidable True)
  | start, label :: rest =>
      @instDecidableAnd _ _ _ (decidableAlong step guard (step start label) rest)

variable (state : σ)

/-- Without labels only the first state is reached. -/
@[simp] theorem reached_nil : Reached step start [] state ↔ state = start := by
  constructor
  · rintro ⟨performed, remaining, split, rfl⟩
    obtain ⟨rfl, rfl⟩ := append_eq_nil_iff.mp split.symm
    rfl
  · rintro rfl
    exact ⟨[], [], rfl, rfl⟩

/-- A state of a run is its first state or a state of the run after one step. -/
@[simp] theorem reached_cons (label : ℓ) (rest : List ℓ) :
    Reached step start (label :: rest) state ↔
      state = start ∨ Reached step (step start label) rest state := by
  constructor
  · rintro ⟨performed, remaining, split, rfl⟩
    cases performed with
    | nil => exact .inl rfl
    | cons first others =>
      cases split
      exact .inr ⟨others, remaining, rfl, rfl⟩
  · rintro (rfl | ⟨performed, remaining, rfl, rfl⟩)
    · exact ⟨[], label :: rest, rfl, rfl⟩
    · exact ⟨label :: performed, remaining, rfl, rfl⟩

/-- A run reaches the state after it. -/
theorem reached_run (labels : List ℓ) :
    Reached step start labels (run step start labels) := ⟨labels, [], by simp, rfl⟩

variable (first second : List ℓ)

/-- What a run reaches is reached when the run goes on. -/
theorem reached_append (reached : Reached step start first state) :
    Reached step start (first ++ second) state := by
  obtain ⟨performed, remaining, rfl, rfl⟩ := reached
  exact ⟨performed, remaining ++ second, append_assoc .., rfl⟩

/-- A run in two parts is guarded when both parts are. -/
theorem along_append : Along step guard start (first ++ second) ↔
      Along step guard start first ∧ Along step guard (run step start first) second := by
  induction first generalizing start with
  | nil => simp [Along]
  | cons label rest ih => simp only [cons_append, Along, run_cons, ih, and_assoc]

/-- Two guards hold along a run when each does. -/
theorem along_and (first second : σ → ℓ → Prop) (start : σ) (labels : List ℓ) :
    Along step (fun state label => first state label ∧ second state label) start labels ↔
      Along step first start labels ∧ Along step second start labels := by
  induction labels generalizing start with
  | nil => simp [Along]
  | cons label rest ih =>
    simp only [Along, ih]
    tauto

/-- Running two lists of labels one after the other. -/
theorem run_append : run step start (first ++ second) = run step (run step start first) second :=
  foldl_append

variable {labels : List ℓ}

/-- The states of a run that goes on by one step are the earlier ones and the last. -/
theorem reached_last {step : σ → ℓ → σ} {start state : σ} {label : ℓ}
    (reached : Reached step start (labels ++ [label]) state) :
    Reached step start labels state ∨ state = step (run step start labels) label := by
  obtain ⟨performed, remaining, split, rfl⟩ := reached
  rcases eq_nil_or_concat remaining with rfl | ⟨others, last, rfl⟩
  · rw [append_nil] at split
    rw [← split, run_append]
    exact .inr rfl
  · rw [concat_eq_append, ← append_assoc] at split
    obtain ⟨same, -⟩ := append_inj' split rfl
    exact .inl ⟨performed, others, same, rfl⟩

/-- A guard that every step meets holds along every run. -/
theorem along_of_forall {guard : σ → ℓ → Prop} (always : ∀ state label, guard state label)
    (start : σ) (labels : List ℓ) : Along step guard start labels := by
  induction labels generalizing start with
  | nil => exact trivial
  | cons label rest ih => exact ⟨always start label, ih (step start label)⟩

/-- A guard that is met by every label of a run, in any state, holds along the run. -/
theorem along_of_mem (always : ∀ label ∈ labels, ∀ state, guard state label) :
    Along step guard start labels := by
  induction labels generalizing start with
  | nil => exact trivial
  | cons label rest ih =>
    exact ⟨always label (.head _) start, ih (step start label)
      fun other listed => always other (.tail _ listed)⟩

/-- A guard that each label meets behind every earlier one holds along the run. -/
theorem along_of_pairwise (related : ℓ → ℓ → Prop)
    (behind : ∀ state label later, related label later → guard (step state label) later) (start : σ)
    (labels : List ℓ) (pairwise : labels.Pairwise related)
    (ahead : ∀ label ∈ labels, guard start label) : Along step guard start labels := by
  induction labels generalizing start with
  | nil => exact trivial
  | cons label rest ih =>
    rw [pairwise_cons] at pairwise
    exact ⟨ahead label (.head _), ih (step start label) pairwise.2 fun later member =>
      behind start label later (pairwise.1 later member)⟩

variable (invariant : σ → Prop)

/-- What the guarded steps preserve holds in every state of a guarded run. -/
theorem invariant_along (preserved : ∀ state label, invariant state → guard state label →
      invariant (step state label)) (start : σ) (labels : List ℓ) (initially : invariant start)
    (guarded : Along step guard start labels) (state : σ)
    (reached : Reached step start labels state) : invariant state := by
  induction labels generalizing start with
  | nil => exact (reached_nil ..).mp reached ▸ initially
  | cons label rest ih =>
    rcases (reached_cons ..).mp reached with rfl | later
    · exact initially
    · exact ih (step start label)
        (preserved start label initially guarded.1) guarded.2 later

/-- What the invariant and the guard give for one step holds along a guarded run. -/
theorem along_of_invariant (contract : σ → ℓ → Prop) (invariant : σ → Prop)
    (preserved : ∀ state label, invariant state → guard state label → invariant (step state label))
    (fulfilled : ∀ state label, invariant state → guard state label → contract state label)
    (start : σ) (labels : List ℓ) (initially : invariant start)
    (guarded : Along step guard start labels) : Along step contract start labels := by
  induction labels generalizing start with
  | nil => exact trivial
  | cons label rest ih =>
    exact ⟨fulfilled start label initially guarded.1, ih (step start label)
      (preserved start label initially guarded.1) guarded.2⟩

/-- When the guard is exactly what one step needs to keep the invariant, the
runs that keep it throughout are exactly the guarded ones. -/
theorem invariant_exact (exact_step : ∀ state label, invariant state →
      (guard state label ↔ invariant (step state label))) (start : σ) (labels : List ℓ)
    (initially : invariant start) :
    (∀ state, Reached step start labels state → invariant state) ↔
      Along step guard start labels := by
  constructor
  · intro throughout
    induction labels generalizing start with
    | nil => exact trivial
    | cons label rest ih =>
      have next : invariant (step start label) := throughout _ ((reached_cons ..).mpr
          (.inr ⟨[], rest, rfl, rfl⟩))
      refine ⟨(exact_step start label initially).mpr next, ih (step start label) next ?_⟩
      intro state later
      exact throughout state ((reached_cons ..).mpr (.inr later))
  · intro guarded
    exact invariant_along _ _ _
      (fun state label holds met => (exact_step state label holds).mp met)
      _ _ initially guarded

end ForgePilot.Runs
