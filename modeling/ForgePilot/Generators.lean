import Mathlib.Data.List.Basic

/-!
# Generators over one object

A generator works on one object, which it changes between its steps and yields now and
then. Whoever consumes it sees the object as it was when it was yielded. A step succeeds or
raises; what is raised ends the generator unless it is caught. An observer is shown the
steps and the yields in order, the steps without what they return.

`Follows` says of a generator which marks its yields carry, whether it comes to its end or
is cut short, and what is kept of the object. The rules below compose it along the
operations, so that a generator in several parts is described by the marks of its parts.
-/

namespace ForgePilot.Generators

open List

variable {ε τ α β μ : Type}

/-- What an observer is shown. -/
inductive Happening (τ : Type) where
  | step (raised : Bool)
  | yielded (item : τ)

/-- The objects that were yielded. -/
def yields : List (Happening τ) → List τ
  | [] => []
  | .step _ :: rest => yields rest
  | .yielded item :: rest => item :: yields rest

/-- Yields of one part after the other. -/
@[simp] theorem yields_append (first second : List (Happening τ)) :
    yields (first ++ second) = yields first ++ yields second := by
  induction first with
  | nil => rfl
  | cons happening rest ih => cases happening <;> simp [yields, ih]

/-- How a generator went: what was shown, the object at the end, and what came of it. -/
structure Course (ε τ α : Type) where
  happenings : List (Happening τ)
  item : τ
  outcome : Except ε α

/-- A generator, started on an object. -/
def Generator (ε τ α : Type) : Type := τ → Course ε τ α

namespace Generator

/-- Return a value. -/
protected def pure (value : α) : Generator ε τ α := fun item => ⟨[], item, .ok value⟩

/-- Go on unless something was raised. -/
protected def bind (first : Generator ε τ α) (next : α → Generator ε τ β) : Generator ε τ β :=
  fun item =>
    match (first item).outcome with
    | .ok value =>
        let rest := next value (first item).item
        ⟨(first item).happenings ++ rest.happenings, rest.item, rest.outcome⟩
    | .error error => ⟨(first item).happenings, (first item).item, .error error⟩

instance : Monad (Generator ε τ) where
  pure := Generator.pure
  bind := Generator.bind

def perform (outcome : Except ε α) : Generator ε τ α :=
  fun item => ⟨[.step (!outcome.isOk)], item, outcome⟩

/-- Read the object. -/
def get : Generator ε τ τ := fun item => ⟨[], item, .ok item⟩

def update (change : τ → τ) : Generator ε τ Unit := fun item => ⟨[], change item, .ok ()⟩

def publish : Generator ε τ Unit := fun item => ⟨[.yielded item], item, .ok ()⟩

def catching (body : Generator ε τ Unit) (handler : ε → Generator ε τ Unit) :
    Generator ε τ Unit := fun item =>
  match (body item).outcome with
  | .ok value => ⟨(body item).happenings, (body item).item, .ok value⟩
  | .error error =>
      let rest := handler error (body item).item
      ⟨(body item).happenings ++ rest.happenings, rest.item, rest.outcome⟩

/-! ## What comes of a generator -/

@[simp] theorem outcome_pure (value : α) (item : τ) :
    ((pure value : Generator ε τ α) item).outcome = .ok value := rfl

variable (outcome : Except ε α)

@[simp] theorem outcome_perform (item : τ) : (perform outcome item).outcome = outcome := rfl

@[simp] theorem item_perform (item : τ) : (perform outcome item).item = item := rfl

/-- A sequence succeeds when its first part does and what follows does on its result. -/
theorem outcome_bind (first : Generator ε τ α) (next : α → Generator ε τ β) (item : τ) (value : β) :
    ((first >>= next) item).outcome = .ok value ↔ ∃ between, (first item).outcome = .ok between ∧
        (next between (first item).item).outcome = .ok value := by
  change (Generator.bind first next item).outcome = _ ↔ _
  rw [Generator.bind]
  cases (first item).outcome with
  | ok between => simp
  | error error => simp

variable (next : α → Generator ε τ β)

/-- A sequence that starts with a step succeeds when the step does and what follows. -/
theorem outcome_step (item : τ) (value : β) :
    ((perform outcome >>= next) item).outcome = .ok value ↔
      ∃ between, outcome = .ok between ∧ (next between item).outcome = .ok value :=
  outcome_bind ..

@[simp] theorem get_bind (next : τ → Generator ε τ β) (item : τ) :
    (get >>= next) item = next item item := rfl

@[simp] theorem update_bind (change : τ → τ) (next : Unit → Generator ε τ β) (item : τ) :
    (update change >>= next) item = next () (change item) := rfl

@[simp] theorem outcome_publish_bind (next : Unit → Generator ε τ β) (item : τ) :
    ((publish >>= next) item).outcome = (next () item).outcome := rfl

@[simp] theorem item_publish_bind (next : Unit → Generator ε τ β) (item : τ) :
    ((publish >>= next) item).item = (next () item).item := rfl

variable {first : Generator ε τ α}

variable {item : τ}

/-- After a first part that succeeds, a sequence goes as what follows. -/
theorem bind_of_ok {between : α} (succeeded : (first item).outcome = .ok between) :
    (first >>= next) item = ⟨(first item).happenings ++ (next between (first item).item).happenings,
        (next between (first item).item).item, (next between (first item).item).outcome⟩ := by
  change Generator.bind first next item = _
  rw [Generator.bind]
  rw [succeeded]

/-- After a first part that raises, nothing follows. -/
theorem bind_of_error {error : ε} (raised : (first item).outcome = .error error) :
    (first >>= next) item = ⟨(first item).happenings, (first item).item, .error error⟩ := by
  change Generator.bind first next item = _
  rw [Generator.bind]
  rw [raised]

/-- A step leaves the object to what follows. -/
theorem item_step (item : τ) (left : ∀ value, (next value item).item = item) :
    ((perform outcome >>= next) item).item = item := by
  cases outcome with
  | ok value => exact left value
  | error error => rfl

/-! ## The marks of what is yielded -/

/-- The yields carry the marks in order. They are cut short exactly when a step raises and
that is not caught, and everything that is kept stays so. -/
structure Follows (mark : τ → μ) (kept : τ → Prop) (marks : List μ) (course : Course ε τ α) :
    Prop where
  item_kept : kept course.item
  yields_kept : ∀ item ∈ yields course.happenings, kept item
  completed : ∀ value, course.outcome = .ok value →
    (yields course.happenings).map mark = marks ∧ Happening.step true ∉ course.happenings
  broken : ∀ error, course.outcome = .error error →
    (yields course.happenings).map mark <+: marks ∧ Happening.step true ∈ course.happenings

variable (mark : τ → μ) (kept : τ → Prop)

/-- Started on an object for which everything is kept, a generator follows the marks. -/
def Yields (marks : List μ) (generator : Generator ε τ α) : Prop :=
  ∀ item, kept item → Follows mark kept marks (generator item)

/-- Returning a value yields nothing. -/
theorem yields_pure (value : α) : Yields mark kept [] (pure value : Generator ε τ α) := by
  intro item holds
  refine ⟨holds, ?_, ?_, ?_⟩
  · rintro other ⟨⟩
  · exact fun _ _ => ⟨rfl, not_mem_nil⟩
  · rintro error ⟨⟩

/-- A step yields nothing. -/
theorem yields_perform (outcome : Except ε α) :
    Yields mark kept [] (perform outcome : Generator ε τ α) := by
  intro item holds
  refine ⟨holds, ?_, ?_, ?_⟩
  · rintro other ⟨⟩
  · rintro value (rfl : outcome = _)
    exact ⟨rfl, by simp [perform, Except.isOk, Except.toBool]⟩
  · rintro error (rfl : outcome = _)
    exact ⟨prefix_rfl, by simp [perform, Except.isOk, Except.toBool]⟩

/-- Yielding the object carries its mark. -/
theorem follows_publish (item : τ) (holds : kept item) :
    Follows mark kept [mark item] (publish item : Course ε τ Unit) := by
  refine ⟨holds, ?_, ?_, ?_⟩
  · intro other member
    obtain rfl : other = item := mem_singleton.mp member
    exact holds
  · exact fun _ _ => ⟨rfl, by rintro (_ | ⟨_, ⟨⟩⟩)⟩
  · rintro error ⟨⟩

variable {marks others : List μ}

/-- The marks of a sequence are those of its parts, when what follows is known to start
from the object the first part left. -/
theorem follows_bind (next : α → Generator ε τ β) (begun : Follows mark kept marks (first item))
    (continued : ∀ value, (first item).outcome = .ok value →
      Follows mark kept others (next value (first item).item)) :
    Follows mark kept (marks ++ others) ((first >>= next) item) := by
  cases result : (first item).outcome with
  | error error =>
    rw [bind_of_error _ result]
    obtain ⟨shorter, raised⟩ := begun.broken error result
    refine ⟨begun.item_kept, begun.yields_kept, ?_, ?_⟩
    · rintro value ⟨⟩
    · exact fun _ _ => ⟨shorter.trans (prefix_append _ _), raised⟩
  | ok value =>
    rw [bind_of_ok _ result]
    obtain ⟨carried, quiet⟩ := begun.completed value result
    have rest := continued value result
    refine ⟨rest.item_kept, ?_, ?_, ?_⟩
    · intro other member
      rw [yields_append] at member
      exact (mem_append.mp member).elim (begun.yields_kept other) (rest.yields_kept other)
    · intro last succeeded
      obtain ⟨later, still⟩ := rest.completed last succeeded
      exact ⟨by rw [yields_append, map_append, carried, later],
        fun member => (mem_append.mp member).elim quiet still⟩
    · intro error failed
      obtain ⟨shorter, raised⟩ := rest.broken error failed
      refine ⟨?_, mem_append_right _ raised⟩
      rw [yields_append, map_append, carried]
      exact (prefix_append_right_inj _).mpr shorter

/-- The marks of a sequence are those of its parts. -/
theorem yields_bind {next : α → Generator ε τ β} (begun : Yields mark kept marks first)
    (continued : ∀ value, Yields mark kept others (next value)) :
    Yields mark kept (marks ++ others) (first >>= next) := fun item holds =>
  follows_bind _ _ _ (begun item holds)
    (fun value _ => continued value _ (begun item holds).item_kept)

/-- After a step, what follows yields. -/
theorem yields_step (outcome : Except ε α) (next : α → Generator ε τ β) (marks : List μ)
    (continued : ∀ value, Yields mark kept marks (next value)) :
    Yields mark kept marks (perform outcome >>= next) :=
  yields_bind _ _ (yields_perform _ _ _) continued

/-- After the object was read, what follows yields. -/
theorem yields_read (next : τ → Generator ε τ β) (marks : List μ)
    (continued : ∀ item, Yields mark kept marks (next item)) :
    Yields mark kept marks (get >>= next) := fun item holds => continued item item holds

/-- After a change that keeps what is kept, what follows yields. -/
theorem yields_change (change : τ → τ) (next : Generator ε τ β) (marks : List μ)
    (keeps : ∀ item, kept item → kept (change item)) (continued : Yields mark kept marks next) :
    Yields mark kept marks (update change >>= fun _ => next) := fun item holds =>
  continued (change item) (keeps item holds)

/-- A changed object is yielded before what follows. -/
theorem yields_announce (change : τ → τ) (next : Generator ε τ β) (announced : μ) (marks : List μ)
    (keeps : ∀ item, kept item → kept (change item))
    (marked : ∀ item, mark (change item) = announced) (continued : Yields mark kept marks next) :
    Yields mark kept (announced :: marks)
      (update change >>= fun _ => publish >>= fun _ => next) := fun item holds =>
  follows_bind _ _ (fun _ => next) (marked item ▸ follows_publish mark kept _ (keeps item holds))
    (fun _ _ => continued (change item) (keeps item holds))

end Generator

end ForgePilot.Generators
