import ForgePilot.Runs
import Mathlib.Data.List.Induction
import Mathlib.Logic.Function.Basic

/-!
# Processes over a shared state

Any number of processes work on one shared state. Each is in a phase of its own, and a
move names a process and what it is given from outside. A move changes the shared state
and the phase of the process that makes it; the phases of all others stay.

The rule below proves an invariant in three parts: what holds of the shared state, what a
phase relies on, and what any two phases have to do with each other. A process has to
keep its own part and not to disturb the part of any other.
-/

namespace ForgePilot.Processes

open Runs

universe u v w x
variable {σ : Type u} {φ : Type v} {ρ : Type w} {ℓ : Type x} [DecidableEq ρ]

/-- The shared state, and the phase of each process. -/
structure World (σ : Type u) (ρ : Type w) (φ : Type v) where
  shared : σ
  phases : ρ → φ

/-- A shared state and a phase for one process. -/
def World.put (world : World σ ρ φ) (name : ρ) (next : σ × φ) : World σ ρ φ :=
  ⟨next.1, Function.update world.phases name next.2⟩

variable (world : World σ ρ φ) (name : ρ)

@[simp] theorem put_shared (next : σ × φ) :
    (world.put name next).shared = next.1 := rfl

@[simp] theorem put_same (next : σ × φ) :
    (world.put name next).phases name = next.2 := Function.update_self ..

theorem put_other (name other : ρ) (next : σ × φ) (apart : other ≠ name) :
    (world.put name next).phases other = world.phases other := Function.update_of_ne apart ..

def advance (move : ρ → σ → φ → ℓ → σ × φ) (world : World σ ρ φ) (label : ρ × ℓ) : World σ ρ φ :=
  world.put label.1 (move label.1 world.shared (world.phases label.1) label.2)

/-- An assumption on a move, where the move is made. -/
def Assuming (assumed : ρ → σ → φ → ℓ → Prop) (world : World σ ρ φ) (label : ρ × ℓ) : Prop :=
  assumed label.1 world.shared (world.phases label.1) label.2

omit [DecidableEq ρ] in
/-- An assumption can be evaluated where it can be for each process. -/
instance decidableAssuming (assumed : ρ → σ → φ → ℓ → Prop)
    [∀ name shared phase label, Decidable (assumed name shared phase label)]
    (world : World σ ρ φ) (label : ρ × ℓ) : Decidable (Assuming assumed world label) :=
  inferInstanceAs (Decidable (assumed _ _ _ _))

/-- What holds of the shared state, of each phase, and of any two phases. -/
structure Sound (common : σ → Prop) (relied : ρ → σ → φ → Prop) (apart : φ → φ → Prop)
    (world : World σ ρ φ) : Prop where
  common : common world.shared
  relied : ∀ name, relied name world.shared (world.phases name)
  apart : ∀ first second, first ≠ second → apart (world.phases first) (world.phases second)

/-- A move keeps the invariant when it keeps the part of the process that makes it and does
not disturb the part of any other process. -/
theorem advance_sound {move : ρ → σ → φ → ℓ → σ × φ} (assumed : ρ → σ → φ → ℓ → Prop)
    {common : σ → Prop} {relied : ρ → σ → φ → Prop} (apart : φ → φ → Prop)
    (symmetric : ∀ first second, apart first second → apart second first)
    (own : ∀ name shared phase label, common shared → relied name shared phase →
      assumed name shared phase label →
      common (move name shared phase label).1 ∧
        relied name (move name shared phase label).1 (move name shared phase label).2)
    (others : ∀ name other shared phase otherPhase label, other ≠ name → common shared →
      relied name shared phase → relied other shared otherPhase → apart phase otherPhase →
      assumed name shared phase label →
      relied other (move name shared phase label).1 otherPhase ∧
        apart (move name shared phase label).2 otherPhase)
    {world : World σ ρ φ} {label : ρ × ℓ} (sound : Sound common relied apart world)
    (met : Assuming assumed world label) : Sound common relied apart (advance move world label) := by
  obtain ⟨name, given⟩ := label
  have kept := own name _ _ given sound.common (sound.relied name) met
  have undisturbed : ∀ other, other ≠ name →
      relied other (move name world.shared (world.phases name) given).1 (world.phases other) ∧
        apart (move name world.shared (world.phases name) given).2 (world.phases other) :=
    fun other different => others name other _ _ _ given different sound.common
      (sound.relied name) (sound.relied other) (sound.apart name other different.symm) met
  refine ⟨kept.1, fun other => ?_, fun first second different => ?_⟩
  · by_cases same : other = name
    · subst same
      simpa [advance] using kept.2
    · simpa [advance, put_other _ _ _ _ same] using (undisturbed other same).1
  · by_cases sameFirst : first = name
    · subst sameFirst
      simpa [advance, put_other _ _ _ _ different.symm] using
        (undisturbed second different.symm).2
    · by_cases sameSecond : second = name
      · subst sameSecond
        simpa [advance, put_other _ _ _ _ sameFirst] using
          symmetric _ _ (undisturbed first sameFirst).2
      · simpa [advance, put_other _ _ _ _ sameFirst, put_other _ _ _ _ sameSecond] using
          sound.apart first second different

/-- What a phase shows at the end of a run was witnessed in a state of the run, when each step
of its process shows only what was shown before it or is witnessed before or after it. -/
theorem shown_witnessed (move : ρ → σ → φ → ℓ → σ × φ) (name : ρ) (shown : φ → Prop)
    (witnessed invariant : σ → φ → Prop)
    (moved : ∀ shared phase label, invariant shared phase → shown (move name shared phase label).2 →
        shown phase ∨ witnessed shared phase ∨
          witnessed (move name shared phase label).1 (move name shared phase label).2)
    (start : World σ ρ φ) (labels : List (ρ × ℓ))
    (holds : ∀ world, Reached (advance move) start labels world →
      invariant world.shared (world.phases name))
    (initially : ¬ shown (start.phases name))
    (showing : shown ((run (advance move) start labels).phases name)) :
    ∃ world, Reached (advance move) start labels world ∧
      witnessed world.shared (world.phases name) := by
  induction labels using List.reverseRecOn with
  | nil => exact absurd showing initially
  | append_singleton earlier label ih =>
    have extended := reached_append (advance move) start
    have before := extended _ earlier [label] (reached_run ..)
    have after := reached_run (advance move) start (earlier ++ [label])
    have known : shown ((run (advance move) start earlier).phases name) →
        ∃ world, Reached (advance move) start (earlier ++ [label]) world ∧
          witnessed world.shared (world.phases name) := by
      intro showed
      obtain ⟨world, reached, seen⟩ := ih
        (fun world reached => holds world (extended world earlier [label] reached)) showed
      exact ⟨world, extended world earlier [label] reached, seen⟩
    by_cases same : name = label.1
    · subst same
      rw [run_append] at showing after
      simp only [run_cons, run_nil, advance, put_same] at showing
      rcases moved _ _ label.2 (holds _ before) showing with showed | was | is
      · exact known showed
      · exact ⟨_, before, was⟩
      · exact ⟨_, after, by simpa [advance] using is⟩
    · refine known ?_
      rw [run_append] at showing
      simpa [advance, put_other _ _ _ _ same] using showing

end ForgePilot.Processes
