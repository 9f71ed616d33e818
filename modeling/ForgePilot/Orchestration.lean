import Mathlib.Data.List.Sort

/-!
# Orchestration

The sequential hand-off of `orchestration/__init__.py`. The registry remembers
only the role that finished last and compares priorities, so that a hand-off is
followed here from the start of a template to the answer that nobody is left.
-/

namespace ForgePilot.Orchestration

open List

inductive AgentRole where
  | explorer | implementer | verifier | reporter | orchestrator
deriving DecidableEq

structure AgentCapability where
  role : AgentRole
  allowedTools : List String := []
  allowedPaths : List String := []
  readOnly : Bool := false
  maxSelfHeal : Int := 1
  priority : Int := 0
deriving DecidableEq

/-- What the registry reads of a template. -/
structure OrchestrationTemplate where
  templateId : String
  agents : List AgentCapability

def bugfixTemplate : OrchestrationTemplate where
  templateId := "bugfix"
  agents := [
    { role := .explorer, allowedTools := ["cmd.run", "file.read", "mcp.sentry"],
      allowedPaths := ["*"], readOnly := true, priority := 0 },
    { role := .implementer,
      allowedTools := ["cmd.run", "file.edit", "file.create", "git.commit"],
      allowedPaths := ["src/", "tests/"], readOnly := false, maxSelfHeal := 2, priority := 1 },
    { role := .verifier, allowedTools := ["cmd.run", "file.read"],
      allowedPaths := ["*"], readOnly := true, priority := 2 },
    { role := .reporter, allowedTools := ["file.read", "delivery.generate"],
      allowedPaths := ["*"], readOnly := true, priority := 3 }]

def reviewTemplate : OrchestrationTemplate where
  templateId := "code-review"
  agents := [
    { role := .explorer, allowedTools := ["file.read", "git.diff", "git.log"],
      allowedPaths := ["*"], readOnly := true },
    { role := .reporter, allowedTools := ["file.read", "delivery.generate"],
      allowedPaths := ["*"], readOnly := true }]

/-- The sort key's order. -/
def notLater (first second : AgentCapability) : Prop := first.priority ≤ second.priority

instance : DecidableRel notLater := fun first second =>
  inferInstanceAs (Decidable (first.priority ≤ second.priority))

def sortedAgents (template : OrchestrationTemplate) : List AgentCapability :=
  template.agents.insertionSort notLater

def getPriority (template : OrchestrationTemplate) (role : AgentRole) : Int :=
  match template.agents.find? (fun agent => agent.role = role) with
  | some agent => agent.priority
  | none => -1

def nextAgent (template : OrchestrationTemplate) (completedRole : Option AgentRole) :
    Option AgentCapability :=
  match completedRole with
  | none => (sortedAgents template).head?
  | some completedRole =>
    (sortedAgents template).find? (fun a => a.priority > getPriority template completedRole)

/-- The agents handed to in turn, each asked for with the role of the one before,
until the registry has none. -/
inductive HandsOff (template : OrchestrationTemplate) :
    Option AgentRole → List AgentCapability → Prop
  | done {completed} (stops : nextAgent template completed = none) :
      HandsOff template completed []
  | next {completed agent rest} (asked : nextAgent template completed = some agent)
      (goes_on : HandsOff template (some agent.role) rest) :
      HandsOff template completed (agent :: rest)

/-- Agents in the order of their priorities, no two of which agree. -/
def Rising (agents : List AgentCapability) : Prop :=
  agents.Pairwise (fun earlier later => earlier.priority < later.priority)

theorem sorted_perm (template : OrchestrationTemplate) :
    (sortedAgents template).Perm template.agents :=
  perm_insertionSort notLater template.agents

variable {template : OrchestrationTemplate} {agent : AgentCapability}

theorem mem_sorted : agent ∈ sortedAgents template ↔ agent ∈ template.agents :=
  (sorted_perm ..).mem_iff

instance : Std.Total notLater := ⟨fun first second => le_total first.priority second.priority⟩

instance : IsTrans AgentCapability notLater := ⟨fun _ _ _ => le_trans⟩

theorem sorted_pairwise (template : OrchestrationTemplate) :
    (sortedAgents template).Pairwise notLater :=
  pairwise_insertionSort notLater template.agents

/-- Where roles are distinct, a role leads back to the priority of its agent. -/
theorem get_priority_of_mem (distinct : (template.agents.map AgentCapability.role).Nodup)
    (listed : agent ∈ template.agents) : getPriority template agent.role = agent.priority := by
  rw [getPriority]
  cases found : template.agents.find? (fun other => other.role = agent.role) with
  | none => exact absurd (find?_eq_none.mp found agent listed) (by simp)
  | some other =>
    have same : other = agent := inj_on_of_nodup_map distinct
      (mem_of_find?_eq_some found) listed (by simpa using find?_some found)
    rw [same]

theorem next_agent_mem {completed : Option AgentRole}
    (asked : nextAgent template completed = some agent) : agent ∈ template.agents := by
  cases completed with
  | none => exact mem_sorted.mp (mem_of_head? asked)
  | some role => exact mem_sorted.mp (mem_of_find?_eq_some asked)

section

variable (distinct : (template.agents.map AgentCapability.role).Nodup)
include distinct

/-- Every hand-off strictly raises the priority: the loop cannot go round, and it
never reaches two agents of one priority. -/
theorem hands_off_rises {completed : Option AgentRole} {order : List AgentCapability}
    (handed : HandsOff template completed order) :
    (∀ role ∈ completed, ∀ agent ∈ order, getPriority template role < agent.priority) ∧
      Rising order := by
  induction handed with
  | done => exact ⟨nofun, List.Pairwise.nil⟩
  | @next completed agent rest asked goes_on ih =>
    have above : ∀ later ∈ rest, agent.priority < later.priority := by
      rw [← get_priority_of_mem distinct (next_agent_mem asked)]
      exact ih.1 agent.role rfl
    refine ⟨fun role reached => ?_, ih.2.cons above⟩
    obtain rfl := Option.mem_def.mp reached
    have first : getPriority template role < agent.priority := by
      simpa using find?_some asked
    intro later listed
    rcases listed with _ | ⟨_, listed⟩
    · exact first
    · exact first.trans (above later listed)

variable {before after : List AgentCapability} (rising : Rising (sortedAgents template))
  (split : sortedAgents template = before ++ agent :: after)
include rising split

/-- Where priorities rise, the search behind a finished agent stops at the one
sorted next to it. -/
theorem next_agent_sorted : nextAgent template (some agent.role) = after.head? := by
  have priority : getPriority template agent.role = agent.priority :=
    get_priority_of_mem distinct (mem_sorted.mp (by simp [split]))
  rw [Rising, split, pairwise_append, pairwise_cons] at rising
  have passed : before.find? (fun a => a.priority > agent.priority) = none := by
    rw [find?_eq_none]
    intro earlier listed
    have lower := rising.2.2 earlier listed agent mem_cons_self
    simpa using lower.le
  rw [nextAgent, split, priority, find?_append, passed, Option.none_or,
    find?_cons_of_neg (by simp)]
  cases after with
  | nil => rfl
  | cons later after =>
    exact find?_cons_of_pos (by simpa using rising.2.1.1 later mem_cons_self)

theorem hands_off_after : HandsOff template (some agent.role) after := by
  have asked := next_agent_sorted distinct rising split
  induction after generalizing before agent with
  | nil => exact .done asked
  | cons later after ih =>
    have further : sortedAgents template = (before ++ [agent]) ++ later :: after := by
      rw [split, append_assoc, singleton_append]
    exact .next asked (ih further (next_agent_sorted distinct rising further))

omit split

theorem hands_off_sorted : HandsOff template none (sortedAgents template) := by
  cases split : sortedAgents template with
  | nil => exact .done (by rw [nextAgent, split]; rfl)
  | cons first rest =>
    exact .next (by rw [nextAgent, split]; rfl)
      (hands_off_after distinct rising (split.trans (nil_append _).symm))

end

theorem rising_of_nodup (distinct : (template.agents.map AgentCapability.priority).Nodup) :
    Rising (sortedAgents template) := by
  have different := ((sorted_perm ..).map AgentCapability.priority).nodup_iff.mpr distinct
  rw [List.Nodup, pairwise_map] at different
  exact (sorted_pairwise ..).imp₂ (fun _ _ => lt_of_le_of_ne) different

/-- The hand-off ends and has reached every agent once, in the order of their
priorities, exactly when no two agents of the template share a priority. -/
theorem hand_off_complete_iff {template : OrchestrationTemplate}
    (distinct : (template.agents.map AgentCapability.role).Nodup) :
    (∃ order, HandsOff template none order ∧ order.Perm template.agents ∧ order.Pairwise notLater) ↔
      (template.agents.map AgentCapability.priority).Nodup := by
  constructor
  · rintro ⟨order, handed, complete, -⟩
    rw [← (complete.map AgentCapability.priority).nodup_iff, List.Nodup, List.pairwise_map]
    exact (hands_off_rises distinct handed).2.imp ne_of_lt
  · intro priorities
    exact ⟨_, hands_off_sorted distinct (rising_of_nodup priorities), sorted_perm ..,
      sorted_pairwise ..⟩

theorem bugfix_complete : ∃ order, HandsOff bugfixTemplate none order ∧
      order.Perm bugfixTemplate.agents ∧ order.Pairwise notLater :=
  (hand_off_complete_iff (by decide)).mpr (by decide)

/-- The built-in review: both agents keep the default priority, and the reporter
is never handed anything. -/
theorem review_incomplete : ¬ ∃ order, HandsOff reviewTemplate none order ∧
      order.Perm reviewTemplate.agents ∧ order.Pairwise notLater := by
  rintro ⟨order, handed, complete, -⟩
  have priorities := (complete.map AgentCapability.priority).nodup_iff.mp
    (List.pairwise_map.mpr ((hands_off_rises (by decide) handed).2.imp ne_of_lt))
  exact absurd priorities (by decide)

end ForgePilot.Orchestration
