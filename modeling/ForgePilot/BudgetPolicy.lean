import Mathlib.Algebra.Order.Field.Basic
import Mathlib.Algebra.Order.Field.Rat
import Mathlib.Tactic.NormNum

/-!
# Budget policy

The cost guardrail of `control_plane/budget_policy.py`, over exact rationals: a
cost is compared with the cap by their ratio, and the thresholds it has reached
decide what happens to the task.
-/

namespace ForgePilot.BudgetPolicies

inductive BudgetAction where
  | continue | warn | pause | downgradeModel | requireApproval
deriving DecidableEq

structure BudgetDecision where
  action : BudgetAction
  currentCostUsd : ℚ
  maxBudgetUsd : ℚ
  detail : String
  targetModel : Option String
deriving DecidableEq

/-- The two ratios carry the bounds their fields are validated against. -/
structure BudgetPolicy where
  warnAtRatio : ℚ
  downgradeAtRatio : ℚ
  pauseWhenExceeded : Bool
  requireApprovalWhenExceeded : Bool
  fallbackModel : Option String
  warnBounds : 0 ≤ warnAtRatio ∧ warnAtRatio ≤ 1
  downgradeBounds : 0 ≤ downgradeAtRatio ∧ downgradeAtRatio ≤ 1

namespace BudgetPolicy

/-- The truth of `fallbackModel`: a name is set and not empty. -/
def fallsBack (policy : BudgetPolicy) : Bool :=
  match policy.fallbackModel with
  | none => false
  | some model => model ≠ ""

def evaluate (policy : BudgetPolicy) (currentCostUsd : ℚ) (maxBudgetUsd : Option ℚ) :
    BudgetDecision :=
  match maxBudgetUsd with
  | none => ⟨.continue, currentCostUsd, 0, "no budget cap configured", none⟩
  | some maxBudgetUsd =>
    if maxBudgetUsd ≤ 0 then
      ⟨.continue, currentCostUsd, 0, "no budget cap configured", none⟩
    else
      let ratio := currentCostUsd / maxBudgetUsd
      if 1 ≤ ratio ∧ policy.requireApprovalWhenExceeded then
        let action := if policy.pauseWhenExceeded then .pause else .requireApproval
        ⟨action, currentCostUsd, maxBudgetUsd,
          "budget exceeded; waiting for operator approval", policy.fallbackModel⟩
      else if policy.downgradeAtRatio ≤ ratio ∧ policy.fallsBack then
        ⟨.downgradeModel, currentCostUsd, maxBudgetUsd,
          "budget near cap; downgrade model for remaining steps", policy.fallbackModel⟩
      else if policy.warnAtRatio ≤ ratio then
        ⟨.warn, currentCostUsd, maxBudgetUsd, "budget warning threshold reached", none⟩
      else ⟨.continue, currentCostUsd, maxBudgetUsd, "within budget", none⟩

/-- The action taken at a ratio of cost to cap. -/
def actionAt (policy : BudgetPolicy) (ratio : ℚ) : BudgetAction :=
  if 1 ≤ ratio ∧ policy.requireApprovalWhenExceeded then
    if policy.pauseWhenExceeded then .pause else .requireApproval
  else if policy.downgradeAtRatio ≤ ratio ∧ policy.fallsBack then .downgradeModel
  else if policy.warnAtRatio ≤ ratio then .warn
  else .continue

theorem evaluate_action (policy : BudgetPolicy) {cap : ℚ} (capped : 0 < cap) (cost : ℚ) :
    (policy.evaluate cost (some cap)).action = policy.actionAt (cost / cap) := by
  simp [evaluate, if_neg (not_le.mpr capped), actionAt, apply_ite BudgetDecision.action]

end BudgetPolicy

/-- The order of escalation; both answers to an exceeded budget wait for the operator. -/
def severity : BudgetAction → Nat
  | .continue => 0
  | .warn => 1
  | .downgradeModel => 2
  | .requireApproval => 3
  | .pause => 3

namespace BudgetPolicy

variable (policy : BudgetPolicy)

theorem severity_at (ratio : ℚ) : severity (policy.actionAt ratio) =
      if 1 ≤ ratio ∧ policy.requireApprovalWhenExceeded then 3
      else if policy.downgradeAtRatio ≤ ratio ∧ policy.fallsBack then 2
      else if policy.warnAtRatio ≤ ratio then 1
      else 0 := by
  rw [actionAt]
  split_ifs <;> rfl

/-- A threshold once reached stays reached, and the branches stand in the order of severity. -/
theorem severity_mono {lower higher : ℚ} (grows : lower ≤ higher) :
    severity (policy.actionAt lower) ≤ severity (policy.actionAt higher) := by
  rw [severity_at, severity_at]
  by_cases exceeded : 1 ≤ lower ∧ policy.requireApprovalWhenExceeded
  · rw [if_pos exceeded, if_pos ⟨exceeded.1.trans grows, exceeded.2⟩]
  rw [if_neg exceeded]
  by_cases near : policy.downgradeAtRatio ≤ lower ∧ policy.fallsBack
  · rw [if_pos near, if_pos (And.intro (near.1.trans grows) near.2)]
    split_ifs <;> omega
  rw [if_neg near]
  by_cases warned : policy.warnAtRatio ≤ lower
  · rw [if_pos warned, if_pos (warned.trans grows)]
    split_ifs <;> omega
  · rw [if_neg warned]
    exact Nat.zero_le _

/-- Over the cap the warning threshold is reached too, whatever the flags. -/
theorem exceeded_acts {ratio : ℚ} (exceeded : 1 ≤ ratio) : policy.actionAt ratio ≠ .continue := by
  rw [actionAt, if_pos (policy.warnBounds.2.trans exceeded)]
  split_ifs <;> nofun

theorem exceeded_pauses_iff {ratio : ℚ} (exceeded : 1 ≤ ratio) : policy.actionAt ratio = .pause ↔
      policy.pauseWhenExceeded ∧ policy.requireApprovalWhenExceeded := by
  rw [actionAt]
  split_ifs with required paused <;> simp_all

end BudgetPolicy

/-- Decisions never step down as the cost grows, an exceeded budget is always acted
on, and it pauses the task under the pause flag where approval is required as well. -/
theorem evaluate_escalates (policy : BudgetPolicy) {cap : ℚ} (capped : 0 < cap) :
    (∀ lower higher, lower ≤ higher → severity (policy.evaluate lower (some cap)).action ≤
        severity (policy.evaluate higher (some cap)).action) ∧
    ∀ cost, cap ≤ cost → (policy.evaluate cost (some cap)).action ≠ .continue ∧
      ((policy.evaluate cost (some cap)).action = .pause ↔
        policy.pauseWhenExceeded ∧ policy.requireApprovalWhenExceeded) := by
  simp only [policy.evaluate_action capped]
  refine ⟨fun lower higher grows => ?_, fun cost past => ?_⟩
  · exact policy.severity_mono (div_le_div_of_nonneg_right grows capped.le)
  · have exceeded : 1 ≤ cost / cap := (one_le_div capped).mpr past
    exact ⟨policy.exceeded_acts exceeded, policy.exceeded_pauses_iff exceeded⟩

/-- A policy that pauses on an exceeded budget but does not ask for approval. -/
def unattended : BudgetPolicy :=
  ⟨4 / 5, 19 / 20, true, false, none, by norm_num, by norm_num⟩

theorem unattended_escalates : (unattended.evaluate 2 (some 1)).action ≠ .continue :=
  ((evaluate_escalates _ one_pos).2 2 one_le_two).1

/-- The pause flag alone does not pause. -/
theorem unattended_only_warns : ¬ ∀ (policy : BudgetPolicy) (cap cost : ℚ), 0 < cap → cap ≤ cost →
      policy.pauseWhenExceeded → (policy.evaluate cost (some cap)).action = .pause := by
  intro honours
  have paused := honours unattended 1 2 one_pos one_le_two rfl
  rw [unattended.evaluate_action one_pos, unattended.exceeded_pauses_iff (by norm_num)] at paused
  exact absurd paused.2 nofun

end ForgePilot.BudgetPolicies
