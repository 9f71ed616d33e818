import Mathlib.Data.List.Basic

/-!
# Calls that may fail

A program over a state that calls others and waits for them. A call returns, or raises an
error; a call that raises may have done its work all the same, or not. What a program has
changed stays when it raises: only a transaction takes its changes back, since it works on
a copy that is published by its commit.
-/

namespace ForgePilot.Attempts

universe u
variable {ε σ α β : Type u}

/-- What becomes of a call: it returns, or raises with its effect or without. -/
inductive Outcome (ε : Type u) where
  | returns
  | raises (error : ε) (applied : Bool)

variable (error : ε)

namespace Outcome

/-- The call returns. -/
def ok : Outcome ε → Bool
  | returns => true
  | raises _ _ => false

/-- The call has its effect. -/
def applied : Outcome ε → Bool
  | returns => true
  | raises _ applied => applied

/-- The same outcome with another error. -/
def map {δ : Type u} (change : ε → δ) : Outcome ε → Outcome δ
  | returns => returns
  | raises error applied => raises (change error) applied

@[simp] theorem ok_map {δ : Type u} (change : ε → δ) (outcome : Outcome ε) :
    (outcome.map change).ok = outcome.ok := by
  cases outcome <;> rfl

@[simp] theorem ok_returns : (returns : Outcome ε).ok = true := rfl

@[simp] theorem ok_raises (applied : Bool) : (raises error applied).ok = false := rfl

@[simp] theorem applied_returns : (returns : Outcome ε).applied = true := rfl

@[simp] theorem applied_raises (error : ε) (applied : Bool) :
    (raises error applied).applied = applied := rfl

end Outcome

/-- Call and wait. -/
def attempt (outcome : Outcome ε) (effect : σ → σ) : EStateM ε σ PUnit := fun state =>
  match outcome with
  | .returns => .ok ⟨⟩ (effect state)
  | .raises error applied => .error error (if applied then effect state else state)

@[simp] theorem attempt_returns (effect : σ → σ) (state : σ) :
    attempt (.returns : Outcome ε) effect state = .ok ⟨⟩ (effect state) := rfl

@[simp] theorem attempt_raises (applied : Bool) (effect : σ → σ) (state : σ) :
    attempt (.raises error applied) effect state =
      .error error (if applied then effect state else state) := rfl

/-- Call for an answer that changes nothing. -/
def ask (outcome : Outcome ε) : EStateM ε σ PUnit := attempt outcome id

@[simp] theorem ask_returns (state : σ) : ask (.returns : Outcome ε) state = .ok ⟨⟩ state := rfl

@[simp] theorem ask_raises (applied : Bool) (state : σ) :
    ask (.raises error applied) state = .error error state := by
  simp [ask]

/-! ## Programs -/

/-- A program goes on where it has not raised. -/
@[simp] theorem bind_apply (first : EStateM ε σ α) (next : α → EStateM ε σ β) (state : σ) :
    (first >>= next) state = match first state with
      | .ok value after => next value after
      | .error error after => .error error after := rfl

@[simp] theorem pure_apply (value : α) (state : σ) :
    (pure value : EStateM ε σ α) state = .ok value state := rfl

@[simp] theorem throw_apply (state : σ) :
    (throw error : EStateM ε σ α) state = .error error state := rfl

@[simp] theorem get_apply (state : σ) : (get : EStateM ε σ σ) state = .ok state state := rfl

/-- A handler starts in the state in which the error was raised. -/
@[simp] theorem catch_apply (first : EStateM ε σ α) (handle : ε → EStateM ε σ α) (state : σ) :
    (tryCatch first handle) state = match first state with
      | .ok value after => .ok value after
      | .error error after => handle error after := by
  simp only [tryCatch, tryCatchThe, MonadExceptOf.tryCatch, EStateM.tryCatch]
  cases first state <;> rfl

/-! ## Statements of a transaction -/

/-- Perform statements one after the other on a copy. -/
def execute (outcome : Nat → Outcome ε) : Nat → List (σ → Except ε σ) → σ → Except ε σ
  | _, [], copy => .ok copy
  | position, statement :: rest, copy =>
      match outcome position with
      | .raises error _ => .error error
      | .returns =>
          match statement copy with
          | .error error => .error error
          | .ok next => execute outcome (position + 1) rest next

/-- A transaction gets through exactly where every call of it returns and every statement can be
performed. -/
theorem execute_ok_iff (outcome : Nat → Outcome ε) (position : Nat)
    (statements : List (σ → Except ε σ)) (copy final : σ) :
    execute outcome position statements copy = .ok final ↔
      (∀ index < statements.length, (outcome (position + index)).ok = true) ∧
        statements.foldlM (fun state statement => statement state) copy = .ok final := by
  induction statements generalizing position copy with
  | nil => simp [execute, pure, Except.pure]
  | cons statement rest ih =>
    rw [execute, List.length_cons, Nat.forall_lt_succ_left', List.foldlM_cons, Nat.add_zero]
    cases first : outcome position with
    | raises error applied => simp
    | returns =>
      cases performed : statement copy with
      | error error => simp [bind, Except.bind]
      | ok next =>
        rw [ih]
        simp [bind, Except.bind, Nat.add_assoc, Nat.add_comm 1]

end ForgePilot.Attempts
