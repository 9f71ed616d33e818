import Mathlib.Data.List.Basic

/-!
# Task protocol

The fixed protocol of `control_plane/task_protocol.py` and its validator of
phase traces. A trace is read one transition at a time; the module compares
what this loop accepts with the traces that visit the stages of a list in its
order, each in one uninterrupted, non-empty run.
-/

namespace ForgePilot.TaskProtocol

open List Option

universe u

section Stages

variable {α : Type u}

/-- One non-empty run of every stage, in the order of the list. -/
def Runs : List α → List α → Prop
  | [], trace => trace = []
  | stage :: stages, trace =>
    ∃ retries rest, trace = List.replicate (retries + 1) stage ++ rest ∧ Runs stages rest

/-- A trace standing at a stage: more of it, then the stages that remain. -/
def Continues (stage : α) (stages trace : List α) : Prop :=
  ∃ retries rest, trace = List.replicate retries stage ++ rest ∧ Runs stages rest

variable {stage first : α} {stages trace : List α}

theorem runs_cons :
    Runs (stage :: stages) (first :: trace) ↔ first = stage ∧ Continues stage stages trace := by
  constructor
  · rintro ⟨retries, rest, spelled, remaining⟩
    rw [replicate_succ, cons_append, cons.injEq] at spelled
    exact ⟨spelled.1, retries, rest, spelled.2, remaining⟩
  · rintro ⟨rfl, retries, rest, rfl, remaining⟩
    exact ⟨retries, rest, rfl, remaining⟩

/-- A stage's own phase continues it; any other phase opens the next run. -/
theorem continues_cons :
    Continues stage stages (first :: trace) ↔
      first = stage ∧ Continues stage stages trace ∨ Runs stages (first :: trace) := by
  constructor
  · rintro ⟨_ | retries, rest, spelled, remaining⟩
    · rw [replicate_zero, nil_append] at spelled
      exact Or.inr (spelled ▸ remaining)
    · rw [replicate_succ, cons_append, cons.injEq] at spelled
      exact Or.inl ⟨spelled.1, retries, rest, spelled.2, remaining⟩
  · rintro (⟨rfl, retries, rest, rfl, remaining⟩ | remaining)
    · exact ⟨retries + 1, rest, rfl, remaining⟩
    · exact ⟨0, _, rfl, remaining⟩

theorem continues_nil {stage : α} {stages : List α} : Continues stage stages [] ↔ stages = [] := by
  constructor
  · rintro ⟨retries, rest, spelled, remaining⟩
    obtain ⟨_, rfl⟩ := append_eq_nil_iff.mp spelled.symm
    cases stages with
    | nil => rfl
    | cons => obtain ⟨_, _, impossible, _⟩ := remaining; simp at impossible
  · rintro rfl
    exact ⟨0, [], rfl, rfl⟩

end Stages

inductive TaskPhase where
  | plan | execute | verify | report
deriving DecidableEq

def defaultTaskProtocol : List TaskPhase := [.plan, .execute, .verify, .report]

def isValidPhaseTransition (currentPhase : Option TaskPhase) (nextPhase : TaskPhase) : Bool :=
  match currentPhase with
  | none => nextPhase = .plan
  | some currentPhase =>
    if nextPhase = currentPhase then true
    else
      let order := defaultTaskProtocol
      order.idxOf nextPhase = order.idxOf currentPhase + 1

/-- The loop's `last` where every transition was legal, `none` where it returned. -/
def readPhases (previous last : Option TaskPhase) : List TaskPhase → Option (Option TaskPhase)
  | [] => some last
  | phase :: phases =>
    if ¬ isValidPhaseTransition previous phase then none
    else readPhases (some phase) (some phase) phases

def validatePhaseSequence (phases : List TaskPhase) (requireComplete : Bool) : Bool :=
  match readPhases none none phases with
  | none => false
  | some none => false
  | some (some last) => if requireComplete then last = .report else true

/-- The stages that a task in this phase has still to reach. -/
def remaining : TaskPhase → List TaskPhase
  | .plan => [.execute, .verify, .report]
  | .execute => [.verify, .report]
  | .verify => [.report]
  | .report => []

variable (current : TaskPhase)

theorem transition_iff (next : TaskPhase) : isValidPhaseTransition (some current) next ↔
      next = current ∨ remaining current = next :: remaining next := by
  cases current <;> cases next <;> decide

variable (phase : TaskPhase)

theorem remaining_nil : remaining phase = [] ↔ phase = .report := by
  cases phase <;> decide

variable (phases : List TaskPhase)

theorem read_cons : readPhases (some current) (some current) (phase :: phases) =
      if isValidPhaseTransition (some current) phase then
        readPhases (some phase) (some phase) phases
      else none := by
  by_cases legal : isValidPhaseTransition (some current) phase <;> simp [readPhases, legal]

theorem runs_remaining : Runs (remaining current) (phase :: phases) ↔
      remaining current = phase :: remaining phase ∧ Continues phase (remaining phase) phases := by
  cases current with
  | report => simp [remaining, Runs]
  | _ =>
    rw [remaining, runs_cons]
    constructor
    · rintro ⟨rfl, more⟩
      exact ⟨rfl, more⟩
    · rintro ⟨opened, more⟩
      obtain ⟨rfl, stages⟩ := cons.inj opened
      exact ⟨rfl, stages ▸ more⟩

/-- A legal transition is what the language of the remaining stages allows next. -/
theorem continues_transition : Continues current (remaining current) (phase :: phases) ↔
      isValidPhaseTransition (some current) phase ∧ Continues phase (remaining phase) phases := by
  rw [continues_cons, runs_remaining, transition_iff]
  constructor
  · rintro (⟨rfl, more⟩ | ⟨ahead, more⟩)
    · exact ⟨Or.inl rfl, more⟩
    · exact ⟨Or.inr ahead, more⟩
  · rintro ⟨rfl | ahead, more⟩
    · exact Or.inl ⟨rfl, more⟩
    · exact Or.inr ⟨ahead, more⟩

/-- From any phase the loop ends at `REPORT` on the traces that finish its
remaining stages. The induction is on the trace, for every phase it starts in. -/
theorem read_report_iff : readPhases (some current) (some current) phases = some (some .report) ↔
      Continues current (remaining current) phases := by
  induction phases generalizing current with
  | nil => rw [continues_nil, remaining_nil, readPhases, some.injEq, some.injEq]
  | cons phase phases ih =>
    rw [read_cons, continues_transition]
    by_cases legal : isValidPhaseTransition (some current) phase
    · rw [if_pos legal, ih]
      exact ⟨fun more => ⟨legal, more⟩, And.right⟩
    · rw [if_neg legal]
      exact ⟨nofun, fun more => absurd more.1 legal⟩

theorem read_append (phase : Option TaskPhase) (before after : List TaskPhase) :
    readPhases phase phase (before ++ after) =
      (readPhases phase phase before).bind (fun reached => readPhases reached reached after) := by
  induction before generalizing phase with
  | nil => rfl
  | cons first before ih =>
    simp only [cons_append, readPhases, ih]
    by_cases legal : isValidPhaseTransition phase first
    · rw [if_neg (not_not_intro legal), if_neg (not_not_intro legal)]
    · rw [if_pos legal, if_pos legal, bind_none]

/-- The stages a phase has still to reach are a legal way to the end. -/
theorem read_remaining :
    readPhases (some phase) (some phase) (remaining phase) = some (some .report) := by
  cases phase <;> decide

/-- After at least one phase the loop has a last one. -/
theorem read_some {phase : Option TaskPhase} {phases : List TaskPhase} (begun : phases ≠ [])
    {reached : Option TaskPhase} (read : readPhases phase phase phases = some reached) :
    ∃ last, reached = some last := by
  induction phases generalizing phase with
  | nil => exact absurd rfl begun
  | cons first phases ih =>
    rw [readPhases] at read
    split at read
    · cases read
    · cases phases with
      | nil => exact ⟨first, (some.inj read).symm⟩
      | cons => exact ih (cons_ne_nil _ _) read

/-- The whole loop ends at `REPORT` on the runs of the protocol alone. -/
theorem read_protocol_iff :
    readPhases none none phases = some (some .report) ↔ Runs defaultTaskProtocol phases := by
  cases phases with
  | nil => simp [readPhases, defaultTaskProtocol, Runs]
  | cons phase phases =>
    rw [defaultTaskProtocol, runs_cons, readPhases]
    by_cases plan : phase = .plan
    · subst plan
      rw [if_neg (by decide), read_report_iff]
      exact ⟨fun more => ⟨rfl, more⟩, And.right⟩
    · rw [if_pos (by simpa [isValidPhaseTransition] using plan)]
      exact ⟨nofun, fun more => absurd more.1 plan⟩

theorem validate_complete_iff :
    validatePhaseSequence phases true ↔ readPhases none none phases = some (some .report) := by
  rw [validatePhaseSequence]
  rcases readPhases none none phases with _ | _ | last <;> simp

theorem validate_partial_iff : validatePhaseSequence phases false ↔
      ∃ last, readPhases none none phases = some (some last) := by
  rw [validatePhaseSequence]
  rcases readPhases none none phases with _ | _ | last <;> simp

/-- The validator accepts a finished trace exactly when it runs through the
protocol, and an unfinished one exactly when it is a non-empty prefix of such a
trace. -/
theorem validate_phase_sequence_language (phases : List TaskPhase) :
    (validatePhaseSequence phases true ↔ Runs defaultTaskProtocol phases) ∧
      (validatePhaseSequence phases false ↔
        phases ≠ [] ∧ ∃ complete, Runs defaultTaskProtocol complete ∧ phases <+: complete) := by
  refine ⟨by rw [validate_complete_iff, read_protocol_iff], ?_⟩
  rw [validate_partial_iff]
  constructor
  · rintro ⟨last, read⟩
    refine ⟨?_, phases ++ remaining last, ?_, List.prefix_append _ _⟩
    · rintro rfl
      cases read
    · rw [← read_protocol_iff, read_append, read]
      exact read_remaining _
  · rintro ⟨begun, complete, finished, more, rfl⟩
    rw [← read_protocol_iff, read_append] at finished
    obtain ⟨reached, read, _⟩ := Option.bind_eq_some_iff.mp finished
    obtain ⟨last, rfl⟩ := read_some begun read
    exact ⟨last, read⟩

example : validatePhaseSequence [.plan, .plan, .execute] false = true := by decide

end ForgePilot.TaskProtocol
