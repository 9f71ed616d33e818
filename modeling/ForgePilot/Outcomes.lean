import Mathlib.Data.List.Basic

/-!
# Outcomes of fallible computations

A computation that may fail has some errors that are expected of it. Its outcome is described by two conditions on
the input: the input is accepted, or it breaks the computation, which is to fail in an unexpected way. Outcomes
compose: one computation behind another breaks when the first does, or when the first accepts and the second breaks.
-/

namespace ForgePilot

universe u v w

variable {ε : Type u} {α : Type v} {β : Type v} {ι : Type w}

/-- A good result of an accepted input, or an error; the error is expected unless the input breaks the computation. -/
structure OutcomeSpec (expected : ε → Prop) (accepted breaks : Prop) (good : α → Prop) (result : Except ε α) :
    Prop where
  ok : ∀ value, result = .ok value → accepted ∧ ¬ breaks ∧ good value
  error : ∀ failure, result = .error failure → ¬ accepted ∧ (expected failure ↔ ¬ breaks)

namespace OutcomeSpec

variable {expected : ε → Prop} {accepted breaks acceptedNext breaksNext : Prop} {good : α → Prop}
  {goodNext : β → Prop}

theorem of_ok {value : α} (holds : accepted) (whole : ¬ breaks) (fine : good value) :
    OutcomeSpec expected accepted breaks good (.ok value) where
  ok result same := by
    cases same
    exact ⟨holds, whole, fine⟩
  error failure same := nomatch same

variable {failure : ε} (refused : ¬ accepted)
include refused

theorem of_error (told : expected failure ↔ ¬ breaks) :
    OutcomeSpec expected accepted breaks good (.error failure) where
  ok value same := nomatch same
  error other same := by
    cases same
    exact ⟨refused, told⟩

/-- An error that is expected, of an input that breaks nothing. -/
theorem of_expected (whole : ¬ breaks) (told : expected failure) :
    OutcomeSpec expected accepted breaks good (.error failure) :=
  of_error refused ⟨fun _ => whole, fun _ => told⟩

/-- An error that nobody expects, of an input that breaks the computation. -/
theorem of_unexpected (broken : breaks) (untold : ¬ expected failure) :
    OutcomeSpec expected accepted breaks good (.error failure) :=
  of_error refused ⟨fun told => absurd told untold, fun whole => absurd broken whole⟩

omit refused

variable {first : Except ε α}

/-- One computation behind another. -/
theorem bind {next : α → Except ε β} (before : OutcomeSpec expected accepted breaks good first)
    (behind : ∀ value, good value → OutcomeSpec expected acceptedNext breaksNext goodNext (next value))
    :
    OutcomeSpec expected (accepted ∧ acceptedNext) (breaks ∨ accepted ∧ breaksNext) goodNext
      (first.bind next) := by
  cases first with
  | error failure =>
    obtain ⟨refused, told⟩ := before.error failure rfl
    refine of_error (fun both => refused both.1) ?_
    rw [told, not_or, not_and]
    exact ⟨fun whole => ⟨whole, fun holds => absurd holds refused⟩, And.left⟩
  | ok value =>
    obtain ⟨holds, whole, fine⟩ := before.ok value rfl
    obtain ⟨success, failed⟩ := behind value fine
    constructor
    · intro result same
      obtain ⟨holdsNext, wholeNext, fineNext⟩ := success result same
      exact ⟨⟨holds, holdsNext⟩, fun broken => broken.elim whole (fun next => wholeNext next.2), fineNext⟩
    · intro failure same
      obtain ⟨refused, told⟩ := failed failure same
      refine ⟨fun both => refused both.2, ?_⟩
      rw [told, not_or, not_and]
      exact ⟨fun wholeNext => ⟨whole, fun _ => wholeNext⟩, fun both => both.2 holds⟩

variable {result : Except ε α}

variable (outcome : OutcomeSpec expected accepted breaks good result)
include outcome

/-- The same outcome under other conditions. -/
theorem congr (sameAccepted : accepted ↔ acceptedNext) (sameBreaks : breaks ↔ breaksNext) :
    OutcomeSpec expected acceptedNext breaksNext good result := by
  rwa [← propext sameAccepted, ← propext sameBreaks]

/-- The same outcome with less said about the result. -/
theorem imp {goodLess : α → Prop} (fine : ∀ value, good value → goodLess value) :
    OutcomeSpec expected accepted breaks goodLess result where
  ok value same := let ⟨holds, whole, holdsGood⟩ := outcome.ok value same
    ⟨holds, whole, fine value holdsGood⟩
  error := outcome.error

/-- A result tells that the input was accepted. -/
theorem told :
    OutcomeSpec expected accepted breaks (fun value => accepted ∧ good value) result where
  ok value same := let ⟨holds, whole, fine⟩ := outcome.ok value same
    ⟨holds, whole, holds, fine⟩
  error := outcome.error

omit outcome

/-- The outcome of a computation whose result is used further. -/
theorem map {change : α → β} (outcome : OutcomeSpec expected accepted breaks good first)
    (fine : ∀ value, good value → goodNext (change value)) :
    OutcomeSpec expected accepted breaks goodNext (first.bind fun value => .ok (change value)) := by
  have behind (value : α) (holds : good value) :
      OutcomeSpec expected True False goodNext (.ok (change value)) := of_ok trivial id (fine value holds)
  refine (outcome.bind behind).congr ?_ ?_
  · rw [and_true]
  · rw [and_false, or_false]

include outcome in
/-- A computation is sound, its results good and its errors expected, exactly where nothing breaks it. -/
theorem sound_iff :
    ((∀ value, result = .ok value → good value) ∧ ∀ failure, result = .error failure → expected failure) ↔
      ¬ breaks := by
  constructor
  · rintro ⟨-, told⟩
    cases result with
    | ok value => exact (outcome.ok value rfl).2.1
    | error failure => exact (outcome.error failure rfl).2.mp (told failure rfl)
  · intro whole
    exact ⟨fun value same => (outcome.ok value same).2.2,
      fun failure same => (outcome.error failure same).2.mpr whole⟩

end OutcomeSpec

/-- The first item that is not accepted breaks the run over the items. -/
def FirstBreaks (accepted breaks : ι → Prop) (items : List ι) : Prop :=
  ∃ before item after, items = before ++ item :: after ∧ (∀ earlier ∈ before, accepted earlier) ∧ breaks item

/-- Nothing breaks a run over no items. -/
theorem first_breaks_nil (accepted breaks : ι → Prop) : ¬ FirstBreaks accepted breaks [] := by
  rintro ⟨before, item, after, shape, -⟩
  exact absurd shape (by simp)

theorem first_breaks_cons (accepted breaks : ι → Prop) (item : ι) (rest : List ι) :
    FirstBreaks accepted breaks (item :: rest) ↔
      breaks item ∨ accepted item ∧ FirstBreaks accepted breaks rest := by
  constructor
  · rintro ⟨before, broken, after, shape, earlier, here⟩
    cases before with
    | nil =>
      cases shape
      exact .inl here
    | cons front others =>
      cases shape
      exact .inr ⟨earlier _ (.head _), others, broken, after, rfl,
        fun other member => earlier other (.tail _ member), here⟩
  · rintro (here | ⟨first, before, broken, after, rfl, earlier, here⟩)
    · exact ⟨[], item, rest, rfl, by simp, here⟩
    · refine ⟨item :: before, broken, after, rfl, ?_, here⟩
      intro other member
      cases List.mem_cons.mp member with
      | inl same => exact same ▸ first
      | inr behind => exact earlier other behind

end ForgePilot
