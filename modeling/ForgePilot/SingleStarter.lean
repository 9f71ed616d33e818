import ForgePilot.ProactiveConversations

/-!
# One proactive conversation for a failing commit

What a report returns was merged from all that it has read: none of the runs is pending and one has
failed. That no other report returns a group as well, and that one does once all runs
are reported, is due to the lock on the row; so both hold as long as no two transactions at once have
found that there is no row. Reports that overtake each other are a matter of their own: a run
that was reported with its final status must not be reported with an earlier one.
-/

namespace ForgePilot.SingleStarter

open Runs Processes ProactiveConversations List

variable {ρ : Type}

/-! ## What is shown of the reports -/

def finalStatus (failed : String → Bool) (id : String) : WorkflowRunStatus :=
  if failed id then .failure else .completed

/-- A run was reported with its final status. -/
def Reported (failed : String → Bool) (journal : List Ended) (id : String) : Prop :=
  ∃ ended ∈ journal, ended.workflow.id = id ∧ ended.workflow.status = finalStatus failed id

/-- How many reports have returned a group. -/
def returns (journal : List Ended) : Nat := journal.countP fun ended => ended.returned.isSome

/-- What is returned has no pending run and one that has failed. -/
def ReturnsFailed (journal : List Ended) : Prop :=
  ∀ ended ∈ journal, ∀ group, ended.returned = some group →
    (∀ run ∈ group.values, run.status ≠ .pending) ∧ ∃ run ∈ group.values, run.status = .failure

/-- Once every run that is recorded or reported was reported with its final status, and one has
failed, a group was returned. -/
def Complete (failed : String → Bool) (table : Table ρ) : Prop :=
  (∀ row ∈ table.rows, ∀ id ∈ row.workflowRuns.keys, Reported failed table.journal id) →
    (∃ id, Reported failed table.journal id ∧ failed id) → 0 < returns table.journal

theorem shouldSend_iff (group : WorkflowRunGroup) :
    shouldSend group ↔ (∀ run ∈ group.values, run.status ≠ .pending) ∧
      ∃ run ∈ group.values, run.status = .failure := by
  simp [shouldSend, isNonePending]

variable {journal : List Ended}

theorem merged_returnsFailed (workflow : WorkflowRun) (group : WorkflowRunGroup)
    (good : ReturnsFailed journal) : ReturnsFailed ((merged workflow group).2 :: journal) := by
  intro ended listed returned same
  rcases listed with _ | ⟨_, old⟩
  · simp only [merged] at same
    split at same
    · rename_i sends
      cases same
      exact (shouldSend_iff _).mp sends
    · cases same
  · exact good ended old returned same

/-! ## The invariant -/

/-- What the only row of a commit says of the reports that have ended. -/
structure Recorded (failed : String → Bool) (journal : List Ended) (row : ProactiveConversation) :
    Prop where
  sent : row.conversationStarterSent → returns journal = 1
  unsent : row.conversationStarterSent = false →
    returns journal = 0 ∧ shouldSend row.workflowRuns = false
  known : row.conversationStarterSent = false →
    ∀ ended ∈ journal, ended.workflow.id ∈ row.workflowRuns.keys
  final : row.conversationStarterSent = false → ∀ id, Reported failed journal id →
    ∀ run, row.workflowRuns.get id = some run → run.status = finalStatus failed id

/-- There is one row at most. Without one, nothing was reported and one transaction at most has found that
there is none; a row that says that a conversation was started is not locked. -/
def Common (failed : String → Bool) (table : Table ρ) : Prop :=
  match table.rows with
  | [] => table.journal = [] ∧ table.lockedBy = none ∧ table.unlocked.length ≤ 1
  | [row] => table.unlocked = [] ∧ Recorded failed table.journal row ∧
      (row.conversationStarterSent → table.lockedBy = none)
  | _ => False

def Relied (name : ρ) (table : Table ρ) : Phase → Prop
  | .fetching _ => table.rows = [] ∧ table.unlocked = [name]
  | .adding _ _ => table.rows = [] ∧ table.unlocked = [name]
  | .updating _ group => table.lockedBy = some name ∧ table.rows = [⟨group, false⟩]
  | _ => True

/-- What is assumed of a step: who finds no row is the only one, and a report does not take back a
final status. -/
def Careful (failed : String → Bool) (_ : ρ) (table : Table ρ) : Phase → Given → Prop
  | .selecting _, _ => table.rows = [] → table.unlocked = []
  | .updating workflow _, _ => Reported failed table.journal workflow.id →
      workflow.status = finalStatus failed workflow.id
  | _, _ => True

/-- Merging a report into a group that records all earlier ones. -/
theorem recorded_merged {failed : String → Bool} {workflow : WorkflowRun} {group : WorkflowRunGroup}
    (unreturned : returns journal = 0) (known : ∀ ended ∈ journal, ended.workflow.id ∈ group.keys)
    (final : ∀ id, Reported failed journal id → ∀ run, group.get id = some run →
      run.status = finalStatus failed id) (careful : Reported failed journal workflow.id →
      workflow.status = finalStatus failed workflow.id) :
    Recorded failed ((merged workflow group).2 :: journal) (merged workflow group).1 := by
  have counted : returns ((merged workflow group).2 :: journal) =
      if shouldSend (group.set workflow.id workflow) then 1 else 0 := by
    have earlier : journal.countP (fun ended => ended.returned.isSome) = 0 := unreturned
    rw [returns, countP_cons, earlier]
    simp only [merged]
    split <;> simp_all
  constructor
  · intro sends
    have sends : shouldSend (group.set workflow.id workflow) := sends
    rw [counted, if_pos sends]
  · intro waits
    have waits : shouldSend (group.set workflow.id workflow) = false := waits
    rw [counted, waits]
    exact ⟨rfl, waits⟩
  · intro _ ended listed
    change ended.workflow.id ∈ (group.set workflow.id workflow).keys
    rw [OrderedDict.keys_set]
    rcases listed with _ | ⟨_, old⟩
    · split
      · assumption
      · exact mem_append_right _ (.head _)
    · split
      · exact known ended old
      · exact mem_append_left _ (known ended old)
  · rintro - id ⟨ended, listed, named, status⟩ run found
    have found : (group.set workflow.id workflow).get id = some run := found
    rw [OrderedDict.get_set] at found
    by_cases same : id = workflow.id
    · subst same
      rw [if_pos rfl] at found
      cases found
      rcases listed with _ | ⟨_, old⟩
      · exact status
      · exact careful ⟨ended, old, named, status⟩
    · rw [if_neg same] at found
      rcases listed with _ | ⟨_, old⟩
      · exact absurd named.symm same
      · exact final id ⟨ended, old, named, status⟩ run found

variable {table : Table ρ}

section Steps

variable [DecidableEq ρ] (failed : String → Bool) (name : ρ)

/-- A careful step keeps the invariant and what its report relies on. -/
theorem own_step {phase : Phase} {given : Given} (common : Common failed table)
    (relied : Relied name table phase) (careful : Careful failed name table phase given) :
    Common failed (storeWorkflowInformation name table phase given).1 ∧
      Relied name (storeWorkflowInformation name table phase given).1
        (storeWorkflowInformation name table phase given).2 := by
  obtain ⟨rows, lockedBy, unlocked, journal⟩ := table
  cases phase with
  | idle =>
    rw [storeWorkflowInformation]
    cases given.request <;> exact ⟨common, trivial⟩
  | selecting workflow =>
    rw [storeWorkflowInformation, select]
    match rows, common, careful with
    | [], ⟨nothing, free, _⟩, careful =>
      have alone : unlocked = [] := careful rfl
      subst alone
      exact ⟨⟨nothing, free, Nat.le_refl 1⟩, rfl, rfl⟩
    | [row], ⟨vacant, recorded, sentFree⟩, _ =>
      by_cases locked : lockedBy.isSome
      · simp only [locked, if_true]
        exact ⟨⟨vacant, recorded, sentFree⟩, trivial⟩
      cases sent : row.conversationStarterSent with
      | true =>
        simp only [locked, sent, if_true, if_false, Bool.false_eq_true]
        refine ⟨⟨vacant, ⟨?_, ?_, ?_, ?_⟩, fun _ => sentFree sent⟩, trivial⟩
        · intro _
          simpa [returns] using recorded.sent sent
        all_goals
          intro unsent
          rw [sent] at unsent
          cases unsent
      | false =>
        simp only [locked, sent, if_false, Bool.false_eq_true]
        refine ⟨⟨vacant, recorded, fun sends => ?_⟩, rfl, ?_⟩
        · rw [sent] at sends
          cases sends
        · obtain ⟨runs, sentColumn⟩ := row
          have unsent : sentColumn = false := sent
          subst unsent
          rfl
  | fetching workflow => exact ⟨common, relied⟩
  | adding workflow group =>
    obtain ⟨noRows, alone⟩ := relied
    have noRows : rows = [] := noRows
    have alone : unlocked = [name] := alone
    subst noRows alone
    obtain ⟨nothing, free, -⟩ := common
    subst nothing free
    rw [storeWorkflowInformation]
    refine ⟨⟨by simp, recorded_merged rfl ?_ ?_ ?_, fun _ => rfl⟩, trivial⟩
    · rintro ended ⟨⟩
    · rintro id ⟨ended, ⟨⟩, -⟩
    · rintro ⟨ended, ⟨⟩, -⟩
  | updating workflow group =>
    obtain ⟨locked, oneRow⟩ := relied
    subst oneRow
    obtain ⟨vacant, recorded, -⟩ := common
    rw [storeWorkflowInformation]
    exact ⟨⟨vacant, recorded_merged (recorded.unsent rfl).1
      (recorded.known rfl) (recorded.final rfl) careful, fun _ => rfl⟩, trivial⟩
  | ended => exact ⟨common, trivial⟩

/-- A careful step does not disturb another report. -/
theorem other_step {phase otherPhase : Phase} {given : Given} {other : ρ} (different : other ≠ name)
    (relied : Relied name table phase) (otherRelied : Relied other table otherPhase)
    (careful : Careful failed name table phase given) :
    Relied other (storeWorkflowInformation name table phase given).1 otherPhase := by
  obtain ⟨rows, lockedBy, unlocked, journal⟩ := table
  have same : ∀ after : Table ρ, after.rows = rows → after.lockedBy = lockedBy →
      after.unlocked = unlocked → Relied other after otherPhase := by
    rintro ⟨_, _, _, _⟩ rfl rfl rfl
    cases otherPhase <;> exact otherRelied
  cases phase with
  | idle =>
    rw [storeWorkflowInformation]
    cases given.request <;> exact otherRelied
  | fetching workflow => exact otherRelied
  | ended => exact otherRelied
  | selecting workflow =>
    rw [storeWorkflowInformation, select]
    cases rows with
    | nil =>
      have alone : unlocked = [] := careful rfl
      subst alone
      cases otherPhase with
      | fetching _ => cases otherRelied.2
      | adding _ _ => cases otherRelied.2
      | updating _ _ => cases otherRelied.2
      | _ => exact trivial
    | cons row rest =>
      dsimp only
      split
      · exact otherRelied
      rename_i unlockedRow
      split
      · exact same _ rfl rfl rfl
      cases otherPhase with
      | fetching _ => cases otherRelied.1
      | adding _ _ => cases otherRelied.1
      | updating _ _ =>
        have locked : lockedBy = some other := otherRelied.1
        rw [locked] at unlockedRow
        exact absurd rfl unlockedRow
      | _ => exact trivial
  | adding workflow group =>
    obtain ⟨noRows, alone⟩ := relied
    subst noRows alone
    have notOther : [name] ≠ [other] := fun equal => different (cons.inj equal).1.symm
    cases otherPhase with
    | fetching _ => exact absurd otherRelied.2 notOther
    | adding _ _ => exact absurd otherRelied.2 notOther
    | updating _ _ => cases otherRelied.2
    | _ => exact trivial
  | updating workflow group =>
    obtain ⟨locked, oneRow⟩ := relied
    subst locked oneRow
    cases otherPhase with
    | fetching _ => cases otherRelied.1
    | adding _ _ => cases otherRelied.1
    | updating _ _ => exact absurd otherRelied.1 (by simpa using different.symm)
    | _ => exact trivial

end Steps

/-! ## Runs -/

variable [DecidableEq ρ]

theorem step_returnsFailed (name : ρ) (table : Table ρ) (phase : Phase) (given : Given)
    (good : ReturnsFailed table.journal) :
    ReturnsFailed (storeWorkflowInformation name table phase given).1.journal := by
  cases phase with
  | idle =>
    rw [storeWorkflowInformation]
    cases given.request <;> exact good
  | selecting workflow =>
    rw [storeWorkflowInformation, select]
    split
    · exact good
    split
    · exact good
    split
    · intro ended listed group same
      rcases listed with _ | ⟨_, old⟩
      · cases same
      · exact good ended old group same
    · exact good
  | fetching workflow => exact good
  | adding workflow group => exact merged_returnsFailed _ _ good
  | updating workflow group => exact merged_returnsFailed _ _ good
  | ended => exact good

/-- In every run, what is returned has no pending run and one that has failed. -/
theorem returns_failed (labels : List (ρ × Given)) (world : World (Table ρ) ρ Phase)
    (reached : Reached step initial labels world) : ReturnsFailed world.shared.journal := by
  refine invariant_along _ (fun _ _ => True)
    (fun world : World (Table ρ) ρ Phase => ReturnsFailed world.shared.journal) ?_ _ _
    (fun ended listed => by cases listed) (along_of_forall _ (fun _ _ => trivial) _ _) _ reached
  rintro current ⟨name, given⟩ good -
  exact step_returnsFailed _ _ _ _ good

/-- Along a careful run, every table meets the invariant. -/
theorem careful_common {failed : String → Bool} {labels : List (ρ × Given)}
    (careful : Along step (Assuming (Careful failed)) initial labels)
    {world : World (Table ρ) ρ Phase} (reached : Reached step initial labels world) :
    Common failed world.shared := by
  have initially : Sound (Common failed) Relied (fun _ _ => True)
      (initial : World (Table ρ) ρ Phase) :=
    ⟨⟨rfl, rfl, Nat.zero_le 1⟩, fun _ => trivial, fun _ _ _ => trivial⟩
  refine (invariant_along _ _ _ ?_ _ _ initially careful _
    reached).common
  refine fun current label sound met =>
    advance_sound _ (fun _ _ => True)
      (fun _ _ _ => trivial) ?_ ?_ sound met
  · exact fun name table phase given => own_step _ _
  · intro name other table phase given otherPhase different _ relied otherRelied _ met
    exact ⟨other_step _ _ different relied otherRelied met, trivial⟩

omit [DecidableEq ρ] in
/-- One report at most has returned a group. -/
theorem returns_le_one {failed : String → Bool} (common : Common failed table) :
    returns table.journal ≤ 1 := by
  obtain ⟨rows, lockedBy, unlocked, journal⟩ := table
  match rows, common with
  | [], ⟨nothing, _⟩ =>
    have nothing : journal = [] := nothing
    subst nothing
    exact Nat.zero_le 1
  | [row], ⟨_, recorded, _⟩ =>
    cases sent : row.conversationStarterSent with
    | true => exact Nat.le_of_eq (recorded.sent sent)
    | false => exact (recorded.unsent sent).1 ▸ Nat.zero_le 1

omit [DecidableEq ρ] in
theorem complete_of_common {failed : String → Bool} (common : Common failed table) :
    Complete failed table := by
  rintro everyReported ⟨failing, reported, fails⟩
  obtain ⟨rows, lockedBy, unlocked, journal⟩ := table
  match rows, common with
  | [], ⟨nothing, _⟩ =>
    subst nothing
    obtain ⟨ended, ⟨⟩, -⟩ := reported
  | [row], ⟨_, recorded, _⟩ =>
    cases sent : row.conversationStarterSent with
    | true => exact Nat.lt_of_lt_of_eq Nat.zero_lt_one (recorded.sent sent).symm
    | false =>
      have valueOf : ∀ run ∈ row.workflowRuns.values, ∃ id, row.workflowRuns.get id = some run := by
        intro run listed
        obtain ⟨⟨id, stored⟩, entry, rfl⟩ := mem_map.mp listed
        exact ⟨id, (row.workflowRuns.get_eq_some_iff id stored).mpr entry⟩
      have statusOf : ∀ id run, row.workflowRuns.get id = some run →
          run.status = finalStatus failed id := by
        intro id run found
        have listed : id ∈ row.workflowRuns.keys :=
          (row.workflowRuns.mem_keys_iff id).mpr ⟨run, found⟩
        exact recorded.final sent id (everyReported row (.head _) id listed) run found
      -- All runs have their final status, so the last merge would have returned the group.
      have sends : shouldSend row.workflowRuns := by
        refine (shouldSend_iff _).mpr ⟨fun run listed => ?_, ?_⟩
        · obtain ⟨id, found⟩ := valueOf run listed
          rw [statusOf id run found, finalStatus]
          split <;> simp
        · obtain ⟨ended, listed, named, -⟩ := reported
          obtain ⟨run, found⟩ := (row.workflowRuns.mem_keys_iff failing).mp
            (named ▸ recorded.known sent ended listed)
          refine ⟨run, ?_, ?_⟩
          · exact mem_map.mpr ⟨(failing, run),
              (row.workflowRuns.get_eq_some_iff failing run).mp found, rfl⟩
          · rw [statusOf failing run found, finalStatus, if_pos fails]
      rw [(recorded.unsent sent).2] at sends
      cases sends

/-- What is returned has no pending run and one that has failed, in every run. In a careful run one
report at most returns a group, and one has once every run was reported with its final status and
one has failed. -/
theorem single_starter (failed : String → Bool) (labels : List (ρ × Given)) :
    (∀ world, Reached step initial labels world → ReturnsFailed world.shared.journal) ∧
      (Along step (Assuming (Careful failed)) initial labels → ∀ world,
        Reached step initial labels world →
          returns world.shared.journal ≤ 1 ∧ Complete failed world.shared) := by
  refine ⟨returns_failed _, fun careful world reached => ?_⟩
  have common := careful_common careful reached
  exact ⟨returns_le_one common, complete_of_common common⟩

def runOf (id : String) (status : WorkflowRunStatus) : WorkflowRun := ⟨id, id, status⟩

/-- Two reports of a commit overlap before there is a row: both ask for the runs that are known. -/
def overlapped (known : WorkflowRunGroup) : List (Nat × Given) :=
  [(0, { request := some (runOf "1" .failure) }), (1, { request := some (runOf "2" .completed) }),
    (0, {}), (1, {}), (0, { known := known }), (1, { known := known }), (0, {}), (1, {})]

/-- Two runs that have ended. -/
def bothEnded : WorkflowRunGroup :=
  (OrderedDict.empty.set "1" (runOf "1" .failure)).set "2" (runOf "2" .completed)

/-- Two runs that are pending. -/
def bothPending : WorkflowRunGroup :=
  (OrderedDict.empty.set "1" (runOf "1" .pending)).set "2" (runOf "2" .pending)

/-- Both reports return a group where both runs have ended when they are asked for, and neither does
where both were still pending. -/
theorem overlapped_reports : returns (run step initial (overlapped bothEnded)).shared.journal = 2 ∧
      ¬ Complete (fun id => id == "1") (run step initial (overlapped bothPending)).shared := by
  constructor
  · decide +kernel
  · intro complete
    have returned : 0 < returns (run step initial (overlapped bothPending)).shared.journal := by
      refine complete ?_ ?_
      · unfold Reported
        decide +kernel
      · refine ⟨"1", ?_, by decide⟩
        unfold Reported
        decide +kernel
    revert returned
    decide +kernel

instance decidableReported (failed : String → Bool) (journal : List Ended) (id : String) :
    Decidable (Reported failed journal id) :=
  inferInstanceAs (Decidable (∃ ended ∈ journal, _))

instance decidableCareful (failed : String → Bool) (name : ρ) (table : Table ρ) (phase : Phase)
    (given : Given) : Decidable (Careful failed name table phase given) := by
  cases phase <;> unfold Careful <;> infer_instance

/-- A commit whose two runs are reported one after the other. -/
def reportedInTurn : List (Nat × Given) :=
  [(0, { request := some (runOf "1" .failure) }), (0, {}), (0, { known := bothPending }), (0, {}),
    (1, { request := some (runOf "2" .completed) }), (1, {}), (1, {})]

theorem single_starter_in_turn : returns (run step initial reportedInTurn).shared.journal ≤ 1 ∧
      Complete (fun id => id == "1") (run step initial reportedInTurn).shared ∧
      returns (run step initial reportedInTurn).shared.journal = 1 := by
  have both := (single_starter (fun id => id == "1") reportedInTurn).2 (by decide +kernel) _
    (reached_run _ _ _)
  exact ⟨both.1, both.2, by decide +kernel⟩

end ForgePilot.SingleStarter
