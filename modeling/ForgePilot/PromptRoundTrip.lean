import ForgePilot.PrintedPrompts

/-!
# Prompts that come back

Which values the prompt carries. Between the quotes a value may hold neither quotes nor backslashes nor
control characters, and not the marker behind the values; numbers must be within the precision of a
floating-point number. These conditions are exact: a longest value that cannot be carried is not what
stands between two quotes, for an escape makes a string shorter than it is written.
-/

namespace ForgePilot.PromptRoundTrip

open Characters BashSessions JsonReading FloatTexts Ps1Prompts PrintedPrompts List Values

/-! ## Values -/

structure Carried (text : Text) : Prop where
  plain : PlainText text
  unmarked : ¬ endMarker <:+: text

def Values.texts (values : Values) : List Text :=
  [values.username, values.hostname, values.workingDir, values.pyInterpreterPath]

/-- The metadata that the values make up. -/
def Values.metadata (values : Values) : CmdOutputMetadata where
  pid := values.pid
  exitCode := values.exitCode
  username := some (values.username.map Char.toNat)
  hostname := some (values.hostname.map Char.toNat)
  workingDir := some (values.workingDir.map Char.toNat)
  pyInterpreterPath := some (values.pyInterpreterPath.map Char.toNat)

theorem carried_decimal (number : Int) : Carried (decimal number) where
  plain char listed := by
    have bounds := decimal_bounds listed
    refine ⟨?_, ?_, by omega⟩
    · rintro rfl
      exact absurd bounds.1 (by decide)
    · rintro rfl
      exact absurd bounds.2 (by decide)
  unmarked inside := by
    have listed : '#' ∈ decimal number := inside.subset (by decide)
    exact absurd (decimal_bounds listed).1 (by decide)

variable (table : DigitTable) (values : Values)

theorem carried_key :
    ∀ pair ∈ Values.members values, Carried pair.1.toList ∧ '\\' ∉ pair.1.toList := by
  have checked : ["pid", "exit_code", "username", "hostname", "working_dir",
      "py_interpreter_path"].all (fun key =>
        key.toList.all (fun char => char != '"' && char != '\\' && decide (32 ≤ char.toNat)) &&
        decide (¬ endMarker <:+: key.toList)) = true := by
    decide +kernel
  intro pair listed
  have key : pair.1 ∈ (members values).map Prod.fst := mem_map_of_mem listed
  have fits := all_eq_true.mp checked pair.1 key
  simp only [Bool.and_eq_true, all_eq_true, bne_iff_ne, decide_eq_true_eq, and_assoc] at fits
  exact ⟨⟨fits.1, fits.2⟩, fun escape => (fits.1 _ escape).2.1 rfl⟩

/-- What a member holds is a number or one of the texts. -/
theorem members_values : ∀ pair ∈ Values.members values,
      (∃ number, pair.2 = decimal number) ∨ pair.2 ∈ Values.texts values := by
  intro pair listed
  simp only [Values.members, mem_cons, not_mem_nil, or_false] at listed
  rcases listed with rfl | rfl | rfl | rfl | rfl | rfl
  · exact .inl ⟨_, rfl⟩
  · exact .inl ⟨_, rfl⟩
  · exact .inr (by simp [Values.texts])
  · exact .inr (by simp [Values.texts])
  · exact .inr (by simp [Values.texts])
  · exact .inr (by simp [Values.texts])

/-- What each key of the metadata is read from. -/
theorem valueOf_members : valueOf (pointsOf "pid") (readMembers (Values.members values)) =
        some (.string ((decimal values.pid).map Char.toNat)) ∧
      valueOf (pointsOf "exit_code") (readMembers (Values.members values)) =
        some (.string ((decimal values.exitCode).map Char.toNat)) ∧
      valueOf (pointsOf "username") (readMembers (Values.members values)) =
        some (.string (values.username.map Char.toNat)) ∧
      valueOf (pointsOf "hostname") (readMembers (Values.members values)) =
        some (.string (values.hostname.map Char.toNat)) ∧
      valueOf (pointsOf "working_dir") (readMembers (Values.members values)) =
        some (.string (values.workingDir.map Char.toNat)) ∧
      valueOf (pointsOf "py_interpreter_path") (readMembers (Values.members values)) =
        some (.string (values.pyInterpreterPath.map Char.toNat)) ∧
      valueOf (pointsOf "prefix") (readMembers (Values.members values)) = none ∧
      valueOf (pointsOf "suffix") (readMembers (Values.members values)) = none := by
  simp only [members, readMembers, map_cons, map_nil, valueOf]
  exact ⟨rfl, rfl, rfl, rfl, rfl, rfl, rfl, rfl⟩

variable {pairs : List (CodePoints × Json)}

theorem valueOf_spec {key : CodePoints} {value : Json} (found : valueOf key pairs = some value) :
    ∃ key, (key, value) ∈ pairs := by
  obtain ⟨pair, here, rfl⟩ := Option.map_eq_some_iff.mp found
  exact ⟨pair.1, mem_reverse.mp (mem_of_find?_eq_some here)⟩

theorem readText_spec {key : String} {points : CodePoints}
    (read : readText key pairs = some (some points)) :
    ∃ key, (key, Json.string points) ∈ pairs := by
  rw [readText] at read
  split at read
  · cases read
  · cases read
  · rename_i found
    cases read
    exact valueOf_spec found
  · cases read

/-- The texts of a prompt that was read are strings of its object. -/
theorem texts_read (found : Ps1Match)
    (read : fromPs1Match table found = some (Values.metadata values)) :
    ∃ pairs, loads found.group = some (.object pairs) ∧ ∀ text ∈ Values.texts values,
      ∃ key, (key, Json.string (text.map Char.toNat)) ∈ pairs := by
  rw [fromPs1Match] at read
  split at read
  · rename_i pairs loaded
    obtain ⟨pid, -, read⟩ := Option.bind_eq_some_iff.mp read
    obtain ⟨exitCode, -, read⟩ := Option.bind_eq_some_iff.mp read
    obtain ⟨username, isUsername, read⟩ := Option.bind_eq_some_iff.mp read
    obtain ⟨hostname, isHostname, read⟩ := Option.bind_eq_some_iff.mp read
    obtain ⟨workingDir, isWorkingDir, read⟩ := Option.bind_eq_some_iff.mp read
    obtain ⟨pyInterpreterPath, isPath, read⟩ := Option.bind_eq_some_iff.mp read
    obtain ⟨prefixText, -, read⟩ := Option.bind_eq_some_iff.mp read
    obtain ⟨suffixText, -, read⟩ := Option.bind_eq_some_iff.mp read
    have same := Option.some.inj read
    obtain rfl : username = some (values.username.map Char.toNat) :=
      congrArg CmdOutputMetadata.username same
    obtain rfl : hostname = some (values.hostname.map Char.toNat) :=
      congrArg CmdOutputMetadata.hostname same
    obtain rfl : workingDir = some (values.workingDir.map Char.toNat) :=
      congrArg CmdOutputMetadata.workingDir same
    obtain rfl : pyInterpreterPath = some (values.pyInterpreterPath.map Char.toNat) :=
      congrArg CmdOutputMetadata.pyInterpreterPath same
    refine ⟨pairs, loaded, ?_⟩
    simp only [Values.texts, forall_mem_cons]
    exact ⟨readText_spec isUsername, readText_spec isHostname,
      readText_spec isWorkingDir, readText_spec isPath, by simp⟩
  · cases read

/-- The metadata that is read from a prompt with values that it can carry. -/
theorem read_carried (carried : ∀ text ∈ Values.texts values, Carried text) (start stop : Nat) :
    fromPs1Match table ⟨start, stop, printedGroup (Values.members values)⟩ =
      (throughDouble values.pid).bind fun pid => (throughDouble values.exitCode).map fun exitCode =>
        { Values.metadata values with pid, exitCode } := by
  have plain : ∀ pair ∈ members values, PlainText pair.1.toList ∧ PlainText pair.2 := by
    intro pair listed
    refine ⟨(carried_key values pair listed).1.plain, ?_⟩
    rcases members_values values pair listed with ⟨number, same⟩ | text
    · rw [same]
      exact (carried_decimal number).plain
    · exact (carried _ text).plain
  have loaded := loads_printed ['\n'] ['\n'] (members values) (cons_ne_nil _ _) plain
    (.inr rfl) (.inr rfl)
  obtain ⟨pid, exitCode, username, hostname, workingDir, path, front, back⟩ :=
    valueOf_members values
  have group : printedGroup (members values) =
      ['\n'] ++ '{' :: '\n' :: (printedMembers (members values) ++ ['\n']) := rfl
  rw [fromPs1Match, group, loaded]
  simp only [readNumber, readText, readAround, pid, exitCode, username, hostname, workingDir, path,
    front, back, toInt, intOfText_decimal]
  cases throughDouble values.pid with
  | none => rfl
  | some pid =>
    cases throughDouble values.exitCode with
    | none => rfl
    | some exitCode => rfl

/-- The prompt is the only one that is found when it can carry its values. -/
theorem found_carried (pre : Text) (unmarked : ¬ beginMarker <:+: pre) {values : Values}
    (carried : ∀ text ∈ Values.texts values, Carried text) :
    matchesPs1Metadata (pre ++ printedPrompt values) =
      [⟨pre.length + 1, pre.length + (printedPrompt values).length - 1,
        printedGroup (Values.members values)⟩] := by
  have members : ∀ pair ∈ Values.members values, Carried pair.1.toList ∧ Carried pair.2 := by
    intro pair listed
    refine ⟨(carried_key values pair listed).1, ?_⟩
    rcases members_values values pair listed with ⟨number, same⟩ | text
    · rw [same]
      exact carried_decimal ..
    · exact carried _ text
  have absent : ¬ endMarker <:+: '\n' :: '{' :: '\n' :: printedMembers (Values.members values) := by
    have line : '\n' ∉ endMarker := by decide
    intro inside
    rcases infix_of_absent line [] inside with here | inside
    · exact absurd here (by decide)
    rcases infix_of_absent line ['{'] inside with here | inside
    · exact absurd here (by decide)
    · exact members_unmarked _ (fun pair listed =>
        ⟨(members pair listed).1.unmarked, (members pair listed).2.unmarked⟩) inside
  have closed := beforeFirst_line endMarker _ ['\n'] (by decide) absent
  have behind : printedGroup (Values.members values) ++ (endMarker ++ ['\n']) =
      ('\n' :: '{' :: '\n' :: printedMembers (Values.members values)) ++
        '\n' :: (endMarker ++ ['\n']) := by simp [printedGroup]
  rw [← behind] at closed
  have group : ('\n' :: '{' :: '\n' :: printedMembers (Values.members values)) ++ ['\n'] =
      printedGroup (Values.members values) := rfl
  rw [group] at closed
  have loaded : (loads (strip (printedGroup (Values.members values)))).isSome = true := by
    have read := loads_printed [] [] (Values.members values) (cons_ne_nil _ _)
      (fun pair listed => ⟨(members pair listed).1.plain, (members pair listed).2.plain⟩)
      (.inl rfl) (.inl rfl)
    rw [append_nil, nil_append] at read
    rw [strip_group, read]
    rfl
  have nothing : findIter (beginMarker.length + (printedGroup (Values.members values)).length +
      endMarker.length - 1) (pre.length + 1 + 1) (some '#')
        (beginMarker.drop 1 ++
          (printedGroup (Values.members values) ++ (endMarker ++ ['\n']))) = [] := by
    have rest := find_after (beginMarker.drop 1 ++ (printedGroup (Values.members values) ++ endMarker))
      (pre.length + 1 + 1) (some '#')
    have sized : (beginMarker.drop 1 ++ (printedGroup (Values.members values) ++ endMarker)).length =
        beginMarker.length + (printedGroup (Values.members values)).length + endMarker.length - 1 := by
      have filled : beginMarker.length = 13 := by decide
      simp only [length_append, length_drop]
      omega
    rw [sized] at rest
    simpa using rest
  have stop : pre.length + (printedPrompt values).length - 1 =
      pre.length + 1 + (beginMarker.length + (printedGroup (Values.members values)).length +
        endMarker.length) := by
    rw [printedPrompt_eq]
    simp only [length_cons, length_append, length_nil]
    omega
  rw [matchesPs1Metadata, printedPrompt_eq, find_before pre _ 0 none unmarked, Nat.zero_add,
    find_here _ _ _ closed, nothing, ← printedPrompt_eq, stop]
  exact filter_cons_of_pos loaded

/-! ## The round trip -/

/-- A prompt on a new line after a text is the only one that is found, at its place; it is read as what
it was printed for, and a completed command can be reported on. -/
def RoundTrips (table : DigitTable) (pre : Text) (values : Values) : Prop :=
  ∃ found, matchesPs1Metadata (pre ++ printedPrompt values) = [found] ∧
    found.start = pre.length + 1 ∧ found.stop = pre.length + (printedPrompt values).length - 1 ∧
    fromPs1Match table found = some (Values.metadata values) ∧
    ∀ upper session command, (handleCompletedCommand table upper session command
      (pre ++ printedPrompt values) (matchesPs1Metadata (pre ++ printedPrompt values))).isSome = true

theorem longest (bad : Text → Prop) (texts : List Text) (some_bad : ∃ text ∈ texts, bad text) :
    ∃ text ∈ texts, bad text ∧ ∀ other ∈ texts, bad other → other.length ≤ text.length := by
  induction texts with
  | nil =>
    obtain ⟨text, listed, -⟩ := some_bad
    cases listed
  | cons first rest ih =>
    by_cases later : ∃ text ∈ rest, bad text
    · obtain ⟨text, listed, isBad, longer⟩ := ih later
      by_cases longest : bad first ∧ text.length < first.length
      · refine ⟨first, .head _, longest.1, ?_⟩
        intro other among badOther
        rcases among with _ | ⟨_, among⟩
        · exact le_rfl
        · exact Nat.le_of_lt (Nat.lt_of_le_of_lt (longer other among badOther) longest.2)
      · refine ⟨text, .tail _ listed, isBad, ?_⟩
        intro other among badOther
        rcases among with _ | ⟨_, among⟩
        · exact Nat.le_of_not_lt fun less => longest ⟨badOther, less⟩
        · exact longer other among badOther
    · have only : ∀ text ∈ rest, ¬ bad text := fun text listed isBad => later ⟨text, listed, isBad⟩
      obtain ⟨text, listed, isBad⟩ := some_bad
      rcases mem_cons.mp listed with rfl | listed
      · refine ⟨text, .head _, isBad, ?_⟩
        intro other among badOther
        rcases among with _ | ⟨_, among⟩
        · exact le_rfl
        · exact absurd badOther (only other among)
      · exact absurd isBad (only text listed)

/-- A value that came back, but cannot be carried, is shorter than another one. -/
theorem longer_uncarried {values : Values} {group : Text}
    (closed : beforeFirst endMarker (printedGroup (Values.members values) ++ (endMarker ++ ['\n'])) =
      some group) {raw : Text} {units : CodePoints} {text : Text}
    (inside : '"' :: (raw ++ ['"']) <:+: group) (body : Body raw units)
    (same : text.map Char.toNat = combined units) (uncarried : ¬ Carried text) :
    ∃ other ∈ Values.texts values, ¬ Carried other ∧ text.length < other.length := by
  obtain ⟨begins, unmarked⟩ := beforeFirst_spec _ _ _ (by decide) closed
  by_cases slash : '\\' ∈ raw
  · have shorter : text.length < raw.length := by
      have lengths := congrArg length same
      rw [length_map] at lengths
      have fewer := combined_length_le units
      have fewerUnits := body.shorter slash
      omega
    have within := inside.trans begins.isInfix
    have shape : printedGroup (members values) ++ (endMarker ++ ['\n']) = ['\n', '{'] ++
          '\n' :: (printedMembers (members values) ++ '\n' :: (endMarker ++ ['\n'])) := by
      simp [printedGroup]
    rw [shape] at within
    have single : '\n' ∉ '"' :: (raw ++ ['"']) := by simp [body.line]
    rcases infix_of_absent single _ within with here | within
    · exact absurd (here.subset (.head _)) (by decide)
    obtain ⟨pair, listed, found⟩ := body_in_members
      slash (fun pair listed => (carried_key _ _ listed).2) (by decide) body.line body.quotes within
    have slashed : '\\' ∈ pair.2 := found.subset slash
    rcases members_values _ _ listed with ⟨number, isNumber⟩ | isText
    · rw [isNumber] at slashed
      exact absurd rfl ((carried_decimal ..).plain '\\' slashed).2.1
    · refine ⟨pair.2, isText, fun carried => (carried.plain '\\' slashed).2.1 rfl, ?_⟩
      exact Nat.lt_of_lt_of_le shorter found.length_le
  · obtain ⟨rfl, visible⟩ := body.plain slash
    rw [combined_characters] at same
    obtain rfl : text = raw := map_injective_iff.mpr (fun _ _ => Char.toNat_inj.mp) same
    refine absurd ⟨fun char listed => ?_, fun marked => unmarked ?_⟩ uncarried
    · obtain ⟨notQuote, high⟩ := visible char listed
      exact ⟨notQuote, fun isSlash => slash (isSlash ▸ listed), high⟩
    · have part : text <:+: '"' :: (text ++ ['"']) := ⟨['"'], ['"'], rfl⟩
      exact (marked.trans part).trans inside

theorem carried_of_round_trips (pre : Text) (unmarked : ¬ beginMarker <:+: pre) (values : Values)
    (round : RoundTrips table pre values) : ∀ text ∈ Values.texts values, Carried text := by
  obtain ⟨found, only, start, -, read, -⟩ := round
  have listed : found ∈ findIter 0 0 none (pre ++ printedPrompt values) := by
    have filtered : found ∈ matchesPs1Metadata (pre ++ printedPrompt values) := by
      rw [only]
      exact .head _
    exact mem_of_mem_filter filtered
  rw [printedPrompt_eq, find_before pre _ 0 none unmarked, Nat.zero_add] at listed
  have closed := found_here found listed start
  obtain ⟨pairs, loaded, strings⟩ := texts_read table values found read
  intro text isText
  by_contra uncarried
  obtain ⟨bad, isText, isBad, longest⟩ :=
    longest (fun text => ¬ Carried text) (Values.texts values) ⟨text, isText, uncarried⟩
  obtain ⟨key, listed⟩ := strings bad isText
  obtain ⟨raw, units, inside, body, same⟩ := loads_strings _ _ loaded key _ listed
  obtain ⟨other, isOther, otherBad, longer⟩ := longer_uncarried closed inside body same isBad
  exact absurd (longest other isOther otherBad) (Nat.not_le.mpr longer)

/-- The values of a prompt come back just when no text holds a quote, a backslash, a control character
or the end marker, and the numbers are not rounded. -/
theorem prompt_round_trips (table : DigitTable) (pre : Text)
    (unmarked : ¬ beginMarker <:+: pre) (values : Values) :
    RoundTrips table pre values ↔ (∀ text ∈ Values.texts values, Carried text) ∧
      throughDouble values.pid = some values.pid ∧
      throughDouble values.exitCode = some values.exitCode := by
  constructor
  · intro round
    have carried := carried_of_round_trips _ pre unmarked _ round
    obtain ⟨found, only, -, -, read, -⟩ := round
    have here := found_carried pre unmarked carried
    obtain rfl := List.singleton_inj.mp (only.symm.trans here)
    rw [read_carried _ _ carried] at read
    obtain ⟨pid, isPid, read⟩ := Option.bind_eq_some_iff.mp read
    obtain ⟨exitCode, isExitCode, same⟩ := Option.map_eq_some_iff.mp read
    obtain rfl : pid = values.pid := congrArg CmdOutputMetadata.pid same
    obtain rfl : exitCode = values.exitCode := congrArg CmdOutputMetadata.exitCode same
    exact ⟨carried, isPid, isExitCode⟩
  · rintro ⟨carried, isPid, isExitCode⟩
    have here := found_carried pre unmarked carried
    have read := read_carried table values carried (pre.length + 1)
      (pre.length + (printedPrompt values).length - 1)
    rw [isPid, isExitCode] at read
    refine ⟨_, here, rfl, rfl, read, ?_⟩
    intro upper session command
    rw [here, handleCompletedCommand, List.getLast?_singleton]
    simp only [read, Option.bind_eq_bind, Option.bind_some, Option.map_some]
    rfl

/-- A prompt after the output of a command. -/
def sampleValues : Values where
  pid := 12
  exitCode := 0
  username := ['m', 'e']
  hostname := ['h']
  workingDir := ['/']
  pyInterpreterPath := []

theorem prompt_round_trips_sample : RoundTrips (fun _ => none) ['a', '\n', 'b'] sampleValues :=
  (prompt_round_trips (fun _ => none) _ (by decide) ..).mpr
    ⟨by
      have plain : (Values.texts sampleValues).all (fun text =>
          text.all (fun character =>
            character != '"' && character != '\\' && decide (32 ≤ character.toNat)) &&
          decide (¬ endMarker <:+: text)) = true := by decide +kernel
      intro text listed
      have fits := List.all_eq_true.mp plain text listed
      simp only [Bool.and_eq_true, List.all_eq_true, bne_iff_ne, decide_eq_true_eq, and_assoc] at fits
      exact ⟨fits.1, fits.2⟩,
    by decide, by decide⟩

/-- No prompt is found in a directory with a quote in its name. -/
theorem quoted_directory_lost :
    ¬ RoundTrips (fun _ => none) [] { sampleValues with workingDir := ['/', '"'] } := by
  have nothing : matchesPs1Metadata
      ([] ++ printedPrompt { sampleValues with workingDir := ['/', '"'] }) = [] := by decide +kernel
  rintro ⟨found, only, -⟩
  rw [nothing] at only
  cases only
end ForgePilot.PromptRoundTrip
