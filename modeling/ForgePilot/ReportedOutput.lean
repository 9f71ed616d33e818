import ForgePilot.BashSessions

/-!
# Output is reported once

Up to whitespace, a report on a running command is what the pane shows beyond the last report, unless
this begins with the text of the command that the report is on. The first report is on the command
that was typed, whose text is there as an echo; a later one is on a command that was not typed.
-/

namespace ForgePilot.ReportedOutput

open Characters BashSessions JsonReading List

/-! ## Texts without whitespace -/

/-- A text with whitespace deleted. -/
def visible (text : Text) : Text := text.filter fun character => !isSpace character

theorem visible_append (text other : Text) : visible (text ++ other) = visible text ++ visible other :=
  filter_append ..

theorem visible_lstrip (text : Text) : visible (lstrip text) = visible text := by
  induction text with
  | nil => rfl
  | cons char rest ih =>
    by_cases blank : isSpace char
    · rw [lstrip, dropWhile_cons_of_pos blank]
      change visible (lstrip rest) = _
      rw [ih, visible, visible, filter_cons_of_neg (by simp [blank])]
    · rw [lstrip, dropWhile_cons_of_neg blank]

theorem visible_rstrip (text : Text) : visible (rstrip text) = visible text := by
  have reversed : ∀ some : Text, visible some.reverse = (visible some).reverse :=
    fun some => filter_reverse ..
  rw [rstrip, reversed, visible_lstrip, reversed, reverse_reverse]

/-- What is left of a text that was stripped in front begins with something visible. -/
theorem visible_lstrip_filled (text : Text) (filled : lstrip text ≠ []) : visible (lstrip text) ≠ [] := by
  obtain ⟨char, rest, same⟩ := exists_cons_of_ne_nil filled
  have seen : isSpace char = false := lstrip_head (by rw [same]; rfl)
  rw [same, visible, filter_cons_of_pos (by simp [seen])]
  exact cons_ne_nil _ _

/-! ## One report -/

/-- What is new in the pane begins with the text of the command. -/
def Swallowed (command more : Text) : Prop :=
  lstrip command ≠ [] ∧ lstrip command <+: lstrip more

theorem removePrefix_append (front rest : Text) : removePrefix (front ++ rest) front = rest := by
  rw [removePrefix, if_pos (List.isPrefixOf_iff_prefix.mpr (prefix_append _ _)), drop_left]

/-- A report shows what is new, and of this the text of the command is left out if it begins with
it. -/
theorem visible_report (command more : Text) :
    (¬ Swallowed command more → visible (rstrip (removeCommandPrefix more command)) = visible more) ∧
      (Swallowed command more →
        (visible (rstrip (removeCommandPrefix more command))).length < (visible more).length) := by
  rw [visible_rstrip, removeCommandPrefix, visible_lstrip]
  constructor
  · intro kept
    by_cases blank : lstrip command = []
    · rw [blank]
      exact visible_lstrip _
    have apart : (lstrip command).isPrefixOf (lstrip more) = false := by
      rw [← Bool.not_eq_true, isPrefixOf_iff_prefix]
      exact fun begins => kept ⟨blank, begins⟩
    rw [removePrefix, apart]
    exact visible_lstrip _
  · rintro ⟨filled, rest, split⟩
    have lost := length_pos_iff.mpr (visible_lstrip_filled _ filled)
    rw [← visible_lstrip more, ← split, removePrefix_append, visible_append, length_append]
    omega

/-! ## All reports -/

/-- The contents of reports, each on a command and on what the pane shows then. -/
def contents (session : BashSession) : List (Text × Text) → List Text
  | [] => []
  | (command, rawCommandOutput) :: rest =>
      let (next, _, content) :=
        session.getCommandOutput command rawCommandOutput {} belowOutput
      content :: contents next rest

/-- What the pane shows at each report, when it shows some more every time. -/
def extended (rawCommandOutput : Text) : List (Text × Text) → List (Text × Text)
  | [] => []
  | (command, more) :: rest =>
      (command, rawCommandOutput ++ more) :: extended (rawCommandOutput ++ more) rest

theorem contents_extended (session : BashSession) (later : List (Text × Text)) :
    contents session (extended session.prevOutput later) =
      later.map fun report => rstrip (removeCommandPrefix report.2 report.1) := by
  induction later generalizing session with
  | nil => rfl
  | cons report rest ih =>
    obtain ⟨command, more⟩ := report
    have fresh : (session.getCommandOutput command (session.prevOutput ++ more) {}
        belowOutput).2.2 = rstrip (removeCommandPrefix more command) := by
      rw [BashSession.getCommandOutput]
      by_cases empty : session.prevOutput = []
      · simp [empty]
      · simp [empty, removePrefix_append]
    rw [extended, contents, map_cons]
    refine congrArg₂ cons fresh ?_
    exact ih { session with prevOutput := session.prevOutput ++ more }

/-- Reports are complete just when each of them is. -/
theorem visible_reports (later : List (Text × Text)) : (visible (later.map fun report =>
        rstrip (removeCommandPrefix report.2 report.1)).flatten).length ≤
        (visible (later.map Prod.snd).flatten).length ∧
      (visible (later.map fun report => rstrip (removeCommandPrefix report.2 report.1)).flatten =
          visible (later.map Prod.snd).flatten ↔
        ∀ report ∈ later, ¬ Swallowed report.1 report.2) := by
  induction later with
  | nil => simp
  | cons report rest ih =>
    obtain ⟨command, more⟩ := report
    obtain ⟨shorter, complete⟩ := ih
    obtain ⟨whole, lost⟩ := visible_report ..
    simp only [map_cons, flatten_cons, visible_append, length_append,
      forall_mem_cons]
    by_cases swallowed : Swallowed command more
    · have less := lost swallowed
      constructor
      · omega
      · constructor
        · intro same
          have lengths := congrArg length same
          rw [length_append, length_append] at lengths
          omega
        · exact fun kept => absurd swallowed kept.1
    · rw [whole swallowed]
      constructor
      · omega
      · rw [append_cancel_left_eq, complete]
        exact ⟨fun kept => ⟨swallowed, kept⟩, fun kept => kept.2⟩

/-- Up to whitespace, the reports on a command make up what the pane shows after its echo, just when
no later report is on a command whose text begins what is new. -/
theorem output_reported_once (session : BashSession) (command output : Text)
    (later : List (Text × Text)) :
    visible (contents { session with prevOutput := [] }
        ((command, command ++ output) :: extended (command ++ output) later)).flatten =
        visible (output ++ (later.map Prod.snd).flatten) ↔
      ∀ report ∈ later, ¬ Swallowed report.1 report.2 := by
  have first : visible (rstrip (removeCommandPrefix (command ++ output) command)) =
      visible output := by
    rw [visible_rstrip, removeCommandPrefix, visible_lstrip]
    have stripped : lstrip command = [] ∨
        lstrip (command ++ output) = lstrip command ++ output := by
      rw [lstrip, lstrip, List.dropWhile_append]
      cases blank : command.dropWhile isSpace with
      | nil => exact .inl rfl
      | cons _ _ => exact .inr (by simp)
    rcases stripped with blank | split
    · rw [blank]
      change visible (lstrip (command ++ output)) = _
      rw [visible_lstrip, visible_append, ← visible_lstrip .., blank]
      rfl
    · rw [split, removePrefix_append]
  have reports : contents { session with prevOutput := [] }
      ((command, command ++ output) :: extended (command ++ output) later) =
        rstrip (removeCommandPrefix (command ++ output) command) ::
          later.map fun report => rstrip (removeCommandPrefix report.2 report.1) := by
    rw [contents]
    exact congrArg₂ List.cons rfl
      (contents_extended ..)
  rw [reports, List.flatten_cons, visible_append, first, visible_append, List.append_cancel_left_eq]
  exact (visible_reports _).2

/-- A command that is rejected prints nothing, but its text is left out of the output. -/
theorem output_swallowed : visible (contents { cwd := [] } ((['r'], ['r', '\n']) ::
        extended ['r', '\n'] [(['l', 's'], "ls: no\n".toList)])).flatten ≠
      visible (['\n'] ++ ([(['l', 's'], "ls: no\n".toList)].map Prod.snd).flatten) := by
  decide +kernel
end ForgePilot.ReportedOutput
