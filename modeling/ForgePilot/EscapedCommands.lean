import ForgePilot.BashCommands
import ForgePilot.Doublings

/-!
# What escaping a command line changes

Escaping walks through the trees of a command line and stops at its words, at its here-documents and where a tree
begins. Between two stops text is put out, so that nothing is lost, and backslashes before operators are doubled on
the way. Two things go wrong: the text between a redirection and a document that comes later is put out twice, and
backslashes are doubled inside quotes and substitutions that the walk does not stop at.
-/

namespace ForgePilot.EscapedCommands

open BashCommands Characters Doublings Spans List
open JsonReading (Text)

/-! ## The walk as a run over stops -/

/-- Where a walk puts out text: a word, a here-document or the beginning of a tree. -/
inductive Stop where
  | word (pos : Span)
  | document (pos body : Span)
  | root (start : Nat)

def Stop.start : Stop → Nat
  | .word pos | .document pos _ => pos.start
  | .root start => start

def Stop.stop : Stop → Nat
  | .word pos | .document pos _ => pos.stop
  | .root start => start

mutual

/-- The stops of a tree; no word is entered, and only the parts of a node are visited. -/
def nodeStops : Node → List Stop
  | .node .redirect pos (some body) _ _ => [.document pos body]
  | .node .word pos _ _ _ => [.word pos]
  | .node _ _ _ parts _ => partStops parts

def partStops : List Node → List Stop
  | [] => []
  | node :: rest => nodeStops node ++ partStops rest

end

def treeStops (nodes : List Node) : List Stop :=
  nodes.flatMap fun node => .root node.pos.start :: nodeStops node

def visit (command : Text) (walk : Walk) : Stop → Walk
  | .word pos => visitWord command pos walk
  | .document pos body => visitHeredoc command pos body walk
  | .root start => ⟨walk.parts ++ [doubleBackslashes (part command walk.lastPos start)], start⟩

mutual

theorem visit_node (command : Text) :
    (node : Node) → (walk : Walk) → visitNode command node walk = (nodeStops node).foldl (visit command) walk
  | .node kind pos heredoc parts others, walk => by
    have within := visit_parts command parts walk
    cases kind with
    | redirect =>
      cases heredoc with
      | none => simpa [visitNode, nodeStops] using within
      | some body => rfl
    | word => rfl
    | commandSubstitution | processSubstitution | other name => simpa [visitNode, nodeStops] using within

theorem visit_parts (command : Text) :
    (nodes : List Node) → (walk : Walk) →
      visitParts command nodes walk = (partStops nodes).foldl (visit command) walk
  | [], walk => rfl
  | node :: rest, walk => by
    rw [visitParts, partStops, foldl_append, ← visit_node .., visit_parts _ _]

end

variable (command : Text) {stops : List Stop} (earliest : Nat) (nodes : List Node) (walk : Walk)

/-- The walk through trees is a run over their stops. -/
theorem visit_trees :
    visitTrees command nodes walk = (treeStops nodes).foldl (visit command) walk := by
  induction nodes generalizing walk with
  | nil => rfl
  | cons node rest ih =>
    have shape : treeStops (node :: rest) = .root node.pos.start :: (nodeStops node ++ treeStops rest) := rfl
    rw [visitTrees, ih, visit_node, shape, foldl_cons, foldl_append]
    rfl

/-! ## Trees in order -/

/-- A here-document ends with its redirection, or it comes later, behind the line of the redirection. -/
structure DocumentPlaced (command : Text) (pos body : Span) : Prop where
  begins : pos.start ≤ body.start
  forwards : body.start ≤ body.stop
  inside : body.stop ≤ command.length
  near : body.stop = pos.stop ∨ '\n' ∈ part command pos.stop body.start

mutual

/-- The parts of a node are in order within it. -/
def NodePlaced (command : Text) : Node → Prop
  | .node _ pos heredoc parts _ =>
      pos.start ≤ pos.stop ∧ (∀ body ∈ heredoc, DocumentPlaced command pos body) ∧
        PartsPlaced command pos.start pos.stop parts

/-- Nodes in order from a position up to another. -/
def PartsPlaced (command : Text) : Nat → Nat → List Node → Prop
  | earliest, latest, [] => earliest ≤ latest
  | earliest, latest, node :: rest =>
      earliest ≤ node.pos.start ∧ NodePlaced command node ∧ PartsPlaced command node.pos.stop latest rest

end

def StopPlaced (command : Text) : Stop → Prop
  | .document pos body => DocumentPlaced command pos body
  | _ => True

/-- Stops in order from a position up to another. -/
def StopsPlaced (command : Text) : Nat → Nat → List Stop → Prop
  | earliest, latest, [] => earliest ≤ latest
  | earliest, latest, stop :: rest =>
      (earliest ≤ stop.start ∧ stop.start ≤ stop.stop ∧ StopPlaced command stop) ∧
        StopsPlaced command stop.stop latest rest

section Order

variable {command : Text} {earliest latest : Nat}

variable {stops : List Stop}

theorem stops_earlier {before : Nat} (early : before ≤ earliest)
    (placed : StopsPlaced command earliest latest stops) :
    StopsPlaced command before latest stops := by
  cases stops with
  | nil => exact Nat.le_trans early placed
  | cons stop rest => exact ⟨⟨Nat.le_trans early placed.1.1, placed.1.2⟩, placed.2⟩

variable (placed : StopsPlaced command earliest latest stops)
include placed

theorem stops_within : earliest ≤ latest := by
  induction stops generalizing earliest with
  | nil => exact placed
  | cons stop rest ih => exact Nat.le_trans placed.1.1 (Nat.le_trans placed.1.2.1 (ih placed.2))

theorem stop_placed (stop : Stop) (member : stop ∈ stops) : StopPlaced command stop := by
  induction stops generalizing earliest with
  | nil => cases member
  | cons first rest ih =>
    cases mem_cons.mp member with
    | inl same => exact same ▸ placed.1.2.2
    | inr behind => exact ih placed.2 behind

omit placed

theorem stops_append {front back : List Stop} {middle : Nat}
    (first : StopsPlaced command earliest middle front) (second : StopsPlaced command middle latest back) :
    StopsPlaced command earliest latest (front ++ back) := by
  induction front generalizing earliest with
  | nil => exact stops_earlier first second
  | cons stop rest ih => exact ⟨first.1, ih first.2⟩

mutual

theorem node_stops_placed (command : Text) :
    (node : Node) → NodePlaced command node →
      StopsPlaced command node.pos.start node.pos.stop (nodeStops node)
  | .node kind pos heredoc parts others, placed => by
    obtain ⟨forwards, documents, inner⟩ := placed
    have within := part_stops_placed _ _ _ _ inner
    cases kind with
    | redirect =>
      cases heredoc with
      | none => simpa [nodeStops, Node.pos] using within
      | some body =>
        exact ⟨⟨le_rfl, forwards, documents body rfl⟩, le_rfl⟩
    | word => exact ⟨⟨le_rfl, forwards, trivial⟩, le_rfl⟩
    | commandSubstitution | processSubstitution | other name => simpa [nodeStops, Node.pos] using within

theorem part_stops_placed (command : Text) :
    (nodes : List Node) → (earliest latest : Nat) → PartsPlaced command earliest latest nodes →
      StopsPlaced command earliest latest (partStops nodes)
  | [], earliest, latest, placed => placed
  | node :: rest, earliest, latest, placed => by
    have here := node_stops_placed _ _ placed.2.1
    have later := part_stops_placed _ _ _ _ placed.2.2
    exact stops_append (stops_earlier placed.1 here) later

end

theorem tree_stops_placed (nodes : List Node) (placed : PartsPlaced command earliest latest nodes) :
    StopsPlaced command earliest latest (treeStops nodes) := by
  induction nodes generalizing earliest with
  | nil => exact placed
  | cons node rest ih =>
    obtain ⟨early, inner, later⟩ := placed
    have here := node_stops_placed _ _ inner
    exact ⟨⟨early, le_rfl, trivial⟩, stops_append here (ih later)⟩

end Order

/-! ## Doubled backslashes -/

/-- A backslash with an operator behind it, both between two positions. -/
structure PairIn (command : Text) (start stop position : Nat) : Prop where
  low : start ≤ position
  high : position + 1 < stop
  backslash : command[position]? = some '\\'
  operator : ∃ character, command[position + 1]? = some character ∧ isOperator character = true

def lastEnd (earliest : Nat) (stops : List Stop) : Nat := (stops.getLast?.map Stop.stop).getD earliest

/-- What is put out before a stop is searched for backslashes, unless a here-document follows. -/
def Stop.searched : Stop → Bool
  | .document _ _ => false
  | _ => true

/-- The backslashes that escaping doubles: in a word that is not kept, or between two stops. -/
inductive Doubled (command : Text) (earliest : Nat) (stops : List Stop) (position : Nat) : Prop
  | inWord (pos : Span) (visited : .word pos ∈ stops) (unkept : isKept (part command pos.start pos.stop) = false)
      (pair : PairIn command pos.start pos.stop position)
  | between (front : List Stop) (stop : Stop) (back : List Stop) (order : stops = front ++ stop :: back)
      (searched : stop.searched = true) (pair : PairIn command (lastEnd earliest front) stop.start position)

/-- The backslashes that are doubled at a stop, behind the end of the stop before. -/
def DoubledHere (command : Text) (earliest : Nat) (stop : Stop) (position : Nat) : Prop :=
  stop.searched = true ∧ PairIn command earliest stop.start position ∨
    ∃ pos, stop = .word pos ∧ isKept (part command pos.start pos.stop) = false ∧
      PairIn command pos.start pos.stop position

variable (stop : Stop)

variable (rest : List Stop)

theorem last_end_cons : lastEnd earliest (stop :: rest) = lastEnd stop.stop rest := by
  cases rest with
  | nil => rfl
  | cons next others =>
    rw [lastEnd, getLast?_cons_cons, lastEnd, getLast?_cons, Option.map_some, Option.getD_some,
      Option.getD_some]

theorem doubled_cons (place : Nat) :
    Doubled command earliest (stop :: rest) place ↔
      DoubledHere command earliest stop place ∨ Doubled command stop.stop rest place := by
  constructor
  · intro doubled
    cases doubled with
    | inWord pos visited unkept pair =>
      cases mem_cons.mp visited with
      | inl same => exact .inl (.inr ⟨pos, same.symm, unkept, pair⟩)
      | inr later => exact .inr (.inWord pos later unkept pair)
    | between front next back order searched pair =>
      cases front with
      | nil =>
        cases order
        exact .inl (.inl ⟨searched, pair⟩)
      | cons first others =>
        cases order
        rw [last_end_cons] at pair
        exact .inr (.between others next back rfl searched pair)
  · rintro ((⟨searched, pair⟩ | ⟨pos, rfl, unkept, pair⟩) | doubled)
    · exact .between [] stop rest rfl searched pair
    · exact .inWord pos (.head _) unkept pair
    · cases doubled with
      | inWord pos visited unkept pair => exact .inWord pos (.tail stop visited) unkept pair
      | between front next back order searched pair =>
        refine .between (stop :: front) next back (by rw [order, cons_append]) searched ?_
        rwa [last_end_cons]

theorem doubled_nil (place : Nat) : ¬ Doubled command earliest [] place := by
  intro doubled
  cases doubled with
  | inWord pos visited unkept pair => exact not_mem_nil visited
  | between front next back order searched pair => exact absurd order (by simp)

/-- What is doubled at a stop lies before its end. -/
theorem doubled_here_within {command : Text} {earliest place : Nat} {stop : Stop}
    (forwards : stop.start ≤ stop.stop) (early : earliest ≤ stop.start)
    (doubled : DoubledHere command earliest stop place) : earliest ≤ place ∧ place < stop.stop := by
  rcases doubled with ⟨-, pair⟩ | ⟨pos, rfl, -, pair⟩
  · have := pair.low
    have := pair.high
    omega
  · have := pair.low
    have := pair.high
    simp only [Stop.start, Stop.stop] at *
    omega

theorem doubled_behind {command : Text} {earliest latest place : Nat}
    (placed : StopsPlaced command earliest latest stops)
    (doubled : Doubled command earliest stops place) : earliest ≤ place := by
  induction stops generalizing earliest with
  | nil => exact absurd doubled (doubled_nil _ _ _)
  | cons stop rest ih =>
    obtain ⟨⟨early, forwards, -⟩, later⟩ := placed
    cases (doubled_cons ..).mp doubled with
    | inl here => exact (doubled_here_within forwards early here).1
    | inr behind => exact Nat.le_trans early (Nat.le_trans forwards (ih later behind))

open Classical in
noncomputable def marking (places : Nat → Prop) (position : Nat) : Bool := decide (places position)

theorem marking_true (places : Nat → Prop) (place : Nat) : marking places place = true ↔ places place :=
  @decide_eq_true_iff _ (Classical.propDecidable _)

variable {place : Nat}

theorem marking_congr {first second : Nat → Prop} (same : first place ↔ second place) :
    marking first place = marking second place := by
  rw [Bool.eq_iff_iff, marking_true, marking_true, same]

variable {places : Nat → Prop}

theorem marking_false (absent : ¬ places place) : marking places place = false :=
  Bool.eq_false_iff.mpr fun marked => absent ((marking_true ..).mp marked)
/-- Doubling backslashes doubles at the places of backslashes with an operator behind them. -/
theorem double_backslashes (marks : Nat → Bool) (place : Nat) (text : Text)
    (exactly : ∀ index, marks (place + index) = true ↔
      text[index]? = some '\\' ∧ ∃ char, text[index + 1]? = some char ∧ isOperator char = true) :
    doubleBackslashes text = doubleAt marks place text := by
  induction text generalizing place with
  | nil => rfl
  | cons first rest ih =>
    have later := ih (place + 1) fun index => by
      have next : place + 1 + index = place + (index + 1) := by omega
      rw [next, exactly (index + 1), List.getElem?_cons_succ, List.getElem?_cons_succ]
    have here := exactly 0
    rw [List.getElem?_cons_zero, List.getElem?_cons_succ, Nat.add_zero] at here
    cases rest with
    | nil =>
      have unmarked : ¬ marks place = true := by simp [here]
      rw [doubleAt, if_neg unmarked]
      rfl
    | cons next others =>
      have marked : marks place = true ↔ first = '\\' ∧ isOperator next = true := by simp [here]
      rw [doubleBackslashes, doubleAt, later]
      by_cases pair : first = '\\' ∧ isOperator next = true
      · rw [if_pos pair, if_pos (marked.mpr pair), pair.1]
      · rw [if_neg pair, if_neg fun set => pair (marked.mp set)]

theorem double_part (start stop : Nat) (inside : stop ≤ command.length) :
    doubleBackslashes (part command start stop) =
      doubleAt (marking (PairIn command start stop)) start (part command start stop) := by
  apply double_backslashes
  intro index
  rw [marking_true]
  constructor
  · rintro ⟨-, high, backslash, operator⟩
    rw [get_part _ (by omega), get_part _ (by omega)]
    exact ⟨backslash, operator⟩
  · rintro ⟨backslash, char, behind, operator⟩
    have within : index + 1 < (part command start stop).length := (List.getElem?_eq_some_iff.mp behind).1
    rw [length_part _ _ inside] at within
    rw [get_part _ (by omega)] at backslash
    rw [get_part _ (by omega)] at behind
    exact ⟨Nat.le_add_right start index, by omega, backslash, char, behind, operator⟩

/-- The text that a walk has put out, with what remains. -/
def finish (command : Text) (walk : Walk) : Text := walk.parts.flatten ++ command.drop walk.lastPos

/-- The texts that are put out at a stop. -/
def written (command : Text) (earliest : Nat) : Stop → List Text
  | .word pos =>
      let wordText := part command pos.start pos.stop
      [doubleBackslashes (part command earliest pos.start),
        if isKept wordText then wordText else doubleBackslashes wordText]
  | .document pos body =>
      [part command earliest pos.start, part command pos.start body.start, part command body.start body.stop]
  | .root start => [doubleBackslashes (part command earliest start)]

theorem visit_written :
    visit command walk stop = ⟨walk.parts ++ written command walk.lastPos stop, stop.stop⟩ := by
  cases stop <;> rfl

/-- Doubling in a part, told by other places that agree there. -/
theorem double_part_as {command : Text} {start stop : Nat} (inside : stop ≤ command.length)
    (same : ∀ place, start ≤ place → place < stop →
      (PairIn command start stop place ↔ places place)) :
    doubleBackslashes (part command start stop) = doubleAt (marking places) start (part command start stop) := by
  rw [double_part _ _ _ inside]
  apply double_congr
  intro place low high
  rw [length_part _ _ inside] at high
  exact marking_congr (same place low (by omega))

/-- At a stop that is no later document, the text up to its end is put out with the backslashes doubled. -/
theorem written_doubled (early : earliest ≤ stop.start) (forwards : stop.start ≤ stop.stop)
    (inside : stop.stop ≤ command.length) (placed : StopPlaced command stop)
    (near : ∀ pos body, stop = .document pos body → body.stop = pos.stop) :
    (written command earliest stop).flatten =
      doubleAt (marking (DoubledHere command earliest stop)) earliest (part command earliest stop.stop) := by
  cases stop with
  | word pos =>
    have before : doubleBackslashes (part command earliest pos.start) =
        doubleAt (marking (DoubledHere command earliest (.word pos))) earliest
          (part command earliest pos.start) := by
      apply double_part_as (Nat.le_trans forwards inside)
      intro place low high
      constructor
      · exact fun pair => .inl ⟨rfl, pair⟩
      · rintro (⟨-, pair⟩ | ⟨other, same, -, pair⟩)
        · exact pair
        · cases same
          exact absurd pair.low (Nat.not_le.mpr high)
    have within : (if isKept (part command pos.start pos.stop) then part command pos.start pos.stop
        else doubleBackslashes (part command pos.start pos.stop)) =
        doubleAt (marking (DoubledHere command earliest (.word pos))) pos.start
          (part command pos.start pos.stop) := by
      by_cases kept : isKept (part command pos.start pos.stop) = true
      · rw [if_pos kept, double_unmarked]
        intro place low high
        apply marking_false
        rintro (⟨-, pair⟩ | ⟨other, same, unkept, pair⟩)
        · have := pair.high
          simp only [Stop.start] at this
          omega
        · cases same
          exact absurd kept (by simp [unkept])
      · rw [if_neg kept]
        apply double_part_as inside
        intro place low high
        constructor
        · exact fun pair => .inr ⟨pos, rfl, Bool.eq_false_iff.mpr kept, pair⟩
        · rintro (⟨-, pair⟩ | ⟨other, same, -, pair⟩)
          · have := pair.high
            simp only [Stop.start] at this
            omega
          · cases same
            exact pair
    simp only [written, flatten_cons, flatten_nil, append_nil, before, within]
    exact double_part_append _ _ early forwards (Nat.le_trans forwards inside)
  | document pos body =>
    have ends := near pos body rfl
    have unmarked : doubleAt (marking (DoubledHere command earliest (.document pos body))) earliest
        (part command earliest pos.stop) = part command earliest pos.stop := by
      apply double_unmarked
      intro place low high
      apply marking_false
      rintro (⟨searched, -⟩ | ⟨other, same, -⟩)
      · exact Bool.false_ne_true searched
      · exact nomatch same
    simp only [Stop.stop]
    rw [unmarked]
    simp only [written, flatten_cons, flatten_nil, append_nil]
    rw [part_append _ _ _ _ placed.begins placed.forwards,
      part_append command earliest pos.start body.stop early (Nat.le_trans placed.begins placed.forwards), ends]
  | root start =>
    simp only [written, flatten_cons, flatten_nil, append_nil]
    apply double_part_as inside
    intro place low high
    constructor
    · exact fun pair => .inl ⟨rfl, pair⟩
    · rintro (⟨-, pair⟩ | ⟨other, same, -⟩)
      · exact pair
      · exact nomatch same

/-- Without later documents a walk puts out the command with backslashes doubled. -/
theorem walk_doubles (parts : List Text) (earliest : Nat)
    (placed : StopsPlaced command earliest command.length stops)
    (near : ∀ pos body, .document pos body ∈ stops → body.stop = pos.stop) :
    finish command (stops.foldl (visit command) ⟨parts, earliest⟩) =
      parts.flatten ++ doubleAt (marking (Doubled command earliest stops)) earliest (command.drop earliest) := by
  induction stops generalizing parts earliest with
  | nil =>
    rw [double_unmarked]
    · rfl
    · exact fun place low high => marking_false (doubled_nil _ _ _)
  | cons stop rest ih =>
    obtain ⟨⟨early, forwards, here⟩, later⟩ := placed
    have inside := stops_within later
    have first := written_doubled _ _ _ early forwards inside here
      fun pos body same => near pos body (same ▸ (.head _))
    have behind := ih (parts ++ written command earliest stop) stop.stop later
      fun pos body member => near pos body (.tail stop member)
    have whole : doubleAt (marking (Doubled command earliest (stop :: rest))) earliest (command.drop earliest) =
        doubleAt (marking (Doubled command earliest (stop :: rest))) earliest (part command earliest stop.stop) ++
          doubleAt (marking (Doubled command earliest (stop :: rest))) stop.stop (command.drop stop.stop) := by
      rw [← part_rest .., ← part_rest ..]
      exact (double_part_append _ _ (Nat.le_trans early forwards) inside inside).symm
    have front : doubleAt (marking (Doubled command earliest (stop :: rest))) earliest
          (part command earliest stop.stop) =
        doubleAt (marking (DoubledHere command earliest stop)) earliest (part command earliest stop.stop) := by
      apply double_congr
      intro place low high
      rw [length_part _ _ inside] at high
      apply marking_congr
      rw [doubled_cons]
      exact or_iff_left fun doubled => absurd (doubled_behind later doubled) (by omega)
    have back : doubleAt (marking (Doubled command earliest (stop :: rest))) stop.stop (command.drop stop.stop) =
        doubleAt (marking (Doubled command stop.stop rest)) stop.stop (command.drop stop.stop) := by
      apply double_congr
      intro place low high
      apply marking_congr
      rw [doubled_cons]
      exact or_iff_right fun doubled => absurd (doubled_here_within forwards early doubled).2 (by omega)
    rw [foldl_cons, visit_written, behind, flatten_append, append_assoc, first, whole, front, back]

/-! ## Text that is put out twice -/

/-- The text that is put out a second time: what stands between a redirection and the end of a later document. -/
def repeated (command : Text) : Stop → Text
  | .document pos body => part command pos.stop body.stop
  | _ => []

theorem DocumentPlaced.after {command : Text} {pos body : Span} (placed : DocumentPlaced command pos body) :
    pos.stop ≤ body.stop := by
  cases placed.near with
  | inl ends => exact Nat.le_of_eq ends.symm
  | inr line =>
    have filled := length_pos_of_mem line
    rw [length_part _ _ (Nat.le_trans placed.forwards placed.inside)] at filled
    have := placed.forwards
    omega

theorem DocumentPlaced.lines {command : Text} {pos body : Span} (placed : DocumentPlaced command pos body)
    (later : body.stop ≠ pos.stop) : 0 < (repeated command (.document pos body)).count '\n' := by
  have line := placed.near.resolve_left later
  have filled := length_pos_of_mem line
  rw [length_part _ _ (Nat.le_trans placed.forwards placed.inside)] at filled
  rw [count_pos_iff, repeated, ← part_append _ _ _ _ (by omega) placed.forwards]
  exact mem_append_left _ line

theorem count_backslashes {command : Text} (start stop : Nat) (inside : stop ≤ command.length) :
    (doubleBackslashes (part command start stop)).count '\n' = (part command start stop).count '\n' := by
  rw [double_part _ _ _ inside]
  apply count_double
  intro index marked
  obtain ⟨-, high, backslash, -⟩ := (marking_true _ _).mp marked
  rw [get_part _ (by omega), backslash]
  decide

/-- The lines that are put out at a stop: those up to its end, and the repeated ones. -/
theorem count_written {command : Text} {earliest : Nat} {stop : Stop} (early : earliest ≤ stop.start)
    (forwards : stop.start ≤ stop.stop) (inside : stop.stop ≤ command.length)
    (placed : StopPlaced command stop) :
    (written command earliest stop).flatten.count '\n' =
      (part command earliest stop.stop).count '\n' + (repeated command stop).count '\n' := by
  cases stop with
  | word pos =>
    have within : (if isKept (part command pos.start pos.stop) then part command pos.start pos.stop
        else doubleBackslashes (part command pos.start pos.stop)).count '\n' =
        (part command pos.start pos.stop).count '\n' := by
      split
      · rfl
      · exact count_backslashes _ _ inside
    simp only [written, repeated, flatten_cons, flatten_nil, append_nil, count_append,
      count_nil, Nat.add_zero, within, Stop.stop,
      count_backslashes _ pos.start (Nat.le_trans forwards inside)]
    rw [← count_append, part_append command earliest pos.start pos.stop early forwards]
  | document pos body =>
    simp only [written, repeated, flatten_cons, flatten_nil, append_nil, Stop.stop]
    rw [part_append _ _ _ _ placed.begins placed.forwards,
      part_append command earliest pos.start body.stop early (Nat.le_trans placed.begins placed.forwards),
      ← count_append,
      part_append command earliest pos.stop body.stop (Nat.le_trans early forwards) placed.after]
  | root start =>
    simp only [written, repeated, flatten_cons, flatten_nil, append_nil, count_nil,
      Nat.add_zero, Stop.stop]
    exact count_backslashes _ _ inside

/-- A stop adds the lines that it repeats. -/
theorem count_visit (early : walk.lastPos ≤ stop.start) (forwards : stop.start ≤ stop.stop)
    (inside : stop.stop ≤ command.length) (placed : StopPlaced command stop) :
    (finish command (visit command walk stop)).count '\n' =
      (finish command walk).count '\n' + (repeated command stop).count '\n' := by
  have rest : command.drop walk.lastPos =
      part command walk.lastPos stop.stop ++ command.drop stop.stop := by
    rw [← part_rest .., ← part_rest .., part_append _ _ _ _ (Nat.le_trans early forwards) inside]
  rw [visit_written, finish, finish, rest]
  simp only [flatten_append, count_append, count_written early forwards inside placed]
  omega

theorem count_walk (stops : List Stop) (walk : Walk)
    (placed : StopsPlaced command walk.lastPos command.length stops) :
    (finish command walk).count '\n' ≤ (finish command (stops.foldl (visit command) walk)).count '\n' := by
  induction stops generalizing walk with
  | nil => exact le_rfl
  | cons stop rest ih =>
    obtain ⟨⟨early, forwards, here⟩, later⟩ := placed
    have step := count_visit _ _ _ early forwards (stops_within later) here
    have behind := ih (visit command walk stop) (by rwa [visit_written])
    rw [foldl_cons]
    omega

/-- Every stop of a walk adds the lines that it repeats. -/
theorem count_repeated (placed : StopsPlaced command walk.lastPos command.length stops)
    (stop : Stop) (member : stop ∈ stops) :
    (finish command walk).count '\n' + (repeated command stop).count '\n' ≤
      (finish command (stops.foldl (visit command) walk)).count '\n' := by
  induction stops generalizing walk with
  | nil => cases member
  | cons first rest ih =>
    obtain ⟨⟨early, forwards, here⟩, later⟩ := placed
    have step := count_visit _ _ _ early forwards (stops_within later) here
    have next : StopsPlaced command (visit command walk first).lastPos command.length rest := by
      rwa [visit_written]
    rw [foldl_cons]
    cases mem_cons.mp member with
    | inl same =>
      have behind := count_walk _ _ _ next
      rw [same]
      omega
    | inr behind =>
      have further := ih (visit command walk first) next behind
      omega

/-! ## What escaping promises -/

def isQuoted (text : Text) : Bool := surroundedBy ['"'] ['"'] text || surroundedBy ['\''] ['\''] text

/-- Words in quotes and substitutions. -/
def isProtected (command : Text) (kind : Kind) (pos : Span) : Bool :=
  match kind with
  | .word => isQuoted (part command pos.start pos.stop)
  | .commandSubstitution | .processSubstitution => true
  | _ => false

mutual

/-- The quoted words, substitutions and here-documents anywhere in a tree. -/
def protectedIn (command : Text) : Node → List Span
  | .node kind pos heredoc parts others =>
      (if isProtected command kind pos then [pos] else []) ++ heredoc.toList ++
        protectedInAll command parts ++ protectedInAll command others

def protectedInAll (command : Text) : List Node → List Span
  | [] => []
  | node :: rest => protectedIn command node ++ protectedInAll command rest

end

/-- A position outside of quoted words, substitutions and here-documents. -/
def Free (command : Text) (nodes : List Node) (position : Nat) : Prop :=
  ∀ span ∈ protectedInAll command nodes, ¬ (span.start ≤ position ∧ position < span.stop)

/-- The command with some backslashes doubled that stand directly before an operator at free positions. -/
def OnlyEscaped (command : Text) (nodes : List Node) (result : Text) : Prop :=
  ∃ marks : Nat → Bool,
    (∀ position, marks position = true →
      PairIn command 0 command.length position ∧ Free command nodes position) ∧
    result = doubleAt marks 0 command

/-- A command that is not blank, without here-documents that come later than their redirections, whose
backslashes are doubled at free positions only. -/
structure Harmless (command : Text) (nodes : List Node) : Prop where
  filled : strip command ≠ []
  near : ∀ pos body, .document pos body ∈ treeStops nodes → body.stop = pos.stop
  free : ∀ position, Doubled command 0 (treeStops nodes) position → Free command nodes position

theorem pair_widen {command : Text} {start stop latest place : Nat} (late : stop ≤ latest)
    (pair : PairIn command start stop place) : PairIn command 0 latest place :=
  ⟨Nat.zero_le _, Nat.lt_of_lt_of_le pair.high late, pair.backslash, pair.operator⟩

/-- What is doubled is a backslash before an operator. -/
theorem doubled_pair {command : Text} {earliest : Nat}
    (placed : StopsPlaced command earliest command.length stops)
    (doubled : Doubled command earliest stops place) : PairIn command 0 command.length place := by
  induction stops generalizing earliest with
  | nil => exact absurd doubled (doubled_nil _ _ _)
  | cons stop rest ih =>
    obtain ⟨⟨early, forwards, -⟩, later⟩ := placed
    have inside := stops_within later
    rcases (doubled_cons ..).mp doubled with
      (⟨-, pair⟩ | ⟨pos, rfl, -, pair⟩) | behind
    · exact pair_widen (Nat.le_trans forwards inside) pair
    · exact pair_widen inside pair
    · exact ih later behind

variable {marks : Nat → Bool}

/-- A backslash differs from the operator behind it. -/
theorem pairs_apart {command : Text}
    (pairs : ∀ place, marks place = true → PairIn command 0 command.length place) :
    Apart marks 0 command := by
  intro index marked
  rw [Nat.zero_add] at marked
  obtain ⟨-, -, backslash, char, behind, operator⟩ := pairs index marked
  refine ⟨'\\', char, backslash, behind, ?_⟩
  rintro rfl
  cases operator

/-- Doubling backslashes adds no lines. -/
theorem count_pairs {command : Text}
    (pairs : ∀ place, marks place = true → PairIn command 0 command.length place) :
    (doubleAt marks 0 command).count '\n' = command.count '\n' := by
  apply count_double
  intro index marked
  rw [Nat.zero_add] at marked
  rw [(pairs index marked).backslash]
  decide

theorem escaped_walk {parse : Text → Except ParseError (List Node)} {command : Text} {nodes : List Node}
    (filled : strip command ≠ []) (parsed : parse command = .ok nodes) :
    escapeBashSpecialChars parse command =
      .ok (finish command ((treeStops nodes).foldl (visit command) ⟨[], 0⟩)) := by
  rw [escapeBashSpecialChars, if_neg filled, parsed]
  simp only [visit_trees]
  rfl

/-- A walk only escapes exactly when its documents end with their redirections and its backslashes are free. -/
theorem walk_escapes_iff (placed : PartsPlaced command 0 command.length nodes) :
    OnlyEscaped command nodes (finish command ((treeStops nodes).foldl (visit command) ⟨[], 0⟩)) ↔
      (∀ pos body, .document pos body ∈ treeStops nodes → body.stop = pos.stop) ∧
        ∀ place, Doubled command 0 (treeStops nodes) place → Free command nodes place := by
  have ordered := tree_stops_placed _ placed
  have pairs (place : Nat) (marked : marking (Doubled command 0 (treeStops nodes)) place = true) :
      PairIn command 0 command.length place := doubled_pair ordered ((marking_true _ _).mp marked)
  constructor
  · rintro ⟨marks, allowed, result⟩
    have near (pos body : Span) (member : .document pos body ∈ treeStops nodes) : body.stop = pos.stop := by
      by_contra later
      have document : DocumentPlaced command pos body := stop_placed ordered _ member
      have lines := document.lines later
      have more := count_repeated command ⟨[], 0⟩ ordered _ member
      have before : finish command ⟨[], 0⟩ = command := rfl
      rw [result, count_pairs fun place marked => (allowed place marked).1, before] at more
      omega
    refine ⟨near, fun place doubled => ?_⟩
    have exactly := walk_doubles _ [] 0 ordered near
    rw [flatten_nil, nil_append, drop_zero, result] at exactly
    have inside : place < command.length := by
      have := (doubled_pair ordered doubled).high
      omega
    have same := double_injective (pairs_apart fun other marked => (allowed other marked).1)
      (pairs_apart pairs) exactly _ inside
    rw [Nat.zero_add, (marking_true _ _).mpr doubled] at same
    exact (allowed place same).2
  · rintro ⟨near, free⟩
    refine ⟨marking (Doubled command 0 (treeStops nodes)), ?_, ?_⟩
    · exact fun place marked => ⟨pairs place marked, free place ((marking_true _ _).mp marked)⟩
    · rw [walk_doubles _ [] 0 ordered near]
      rfl

/-- Escaping only doubles backslashes exactly for empty and for harmless commands. -/
theorem only_escaped_iff (parse : Text → Except ParseError (List Node)) (command : Text) (nodes : List Node)
    (parsed : parse command = .ok nodes) (placed : PartsPlaced command 0 command.length nodes) :
    (∃ result, escapeBashSpecialChars parse command = .ok result ∧ OnlyEscaped command nodes result) ↔
      command = [] ∨ Harmless command nodes := by
  by_cases filled : strip command = []
  · have blank : escapeBashSpecialChars parse command = .ok [] := by rw [escapeBashSpecialChars, if_pos filled]
    constructor
    · rintro ⟨result, escaped, marks, -, doubled⟩
      rw [blank, Except.ok.injEq] at escaped
      have length := length_double marks 0 command
      rw [← doubled, ← escaped] at length
      exact .inl (List.eq_nil_of_length_eq_zero (Nat.le_zero.mp length))
    · rintro (rfl | harmless)
      · exact ⟨[], blank, fun _ => false, by simp, rfl⟩
      · exact absurd filled harmless.filled
  · have walk := escaped_walk filled parsed
    have escapes := walk_escapes_iff _ _ placed
    constructor
    · rintro ⟨result, escaped, only⟩
      rw [walk, Except.ok.injEq] at escaped
      obtain ⟨near, free⟩ := escapes.mp (escaped ▸ only)
      exact .inr ⟨filled, near, free⟩
    · rintro (rfl | harmless)
      · exact absurd rfl filled
      · exact ⟨_, walk, escapes.mpr ⟨harmless.near, harmless.free⟩⟩

/-! ## A document behind a pipe -/

def wordNode (start stop : Nat) : Node := .node .word ⟨start, stop⟩ none [] []

def echoed : Text := ['e', 'c', 'h', 'o', ' ', '\\', ';']

def echoTree : Node := .node (.other "command") ⟨0, 7⟩ none [wordNode 0 4, wordNode 5 7] []

theorem echo_escaped_iff :
    (∃ result, escapeBashSpecialChars (fun _ => .ok [echoTree]) echoed = .ok result ∧
      OnlyEscaped echoed [echoTree] result) ↔ echoed = [] ∨ Harmless echoed [echoTree] :=
  only_escaped_iff (fun _ => .ok [echoTree]) _ _ rfl
    (by simp [PartsPlaced, NodePlaced, echoTree, wordNode, Node.pos, echoed])

/-- `cat <<E | wc`, and two lines with the document. -/
def piped : Text :=
  ['c', 'a', 't', ' ', '<', '<', 'E', ' ', '|', ' ', 'w', 'c', '\n', 'h', 'i', '\n', 'E']

/-- The document ends behind the second command, its redirection before the pipe. -/
def pipedTree : Node :=
  .node (.other "pipeline") ⟨0, 12⟩ none
    [.node (.other "command") ⟨0, 7⟩ none
      [wordNode 0 3, .node .redirect ⟨4, 7⟩ (some ⟨13, 17⟩) [] [wordNode 6 7]] [],
     .node (.other "pipe") ⟨8, 9⟩ none [] [],
     .node (.other "command") ⟨10, 12⟩ none [wordNode 10 12] []] []

theorem piped_placed : PartsPlaced piped 0 piped.length [pipedTree] := by
  have document : DocumentPlaced piped ⟨4, 7⟩ ⟨13, 17⟩ := by
    constructor <;> decide
  simp [PartsPlaced, NodePlaced, pipedTree, wordNode, Node.pos, document]
  decide

theorem piped_twice :
    escapeBashSpecialChars (fun _ => .ok [pipedTree]) piped = .ok (piped ++ piped.drop 7) := rfl

theorem document_repeated :
    ¬ ∀ (parse : Text → Except ParseError (List Node)) (command : Text) (nodes : List Node),
      parse command = .ok nodes → PartsPlaced command 0 command.length nodes →
        ∃ result, escapeBashSpecialChars parse command = .ok result ∧ OnlyEscaped command nodes result := by
  intro all
  obtain ⟨result, escaped, marks, allowed, doubled⟩ := all (fun _ => .ok [pipedTree]) piped [pipedTree] rfl piped_placed
  rw [piped_twice, Except.ok.injEq] at escaped
  have lines := count_pairs fun position marked => (allowed position marked).1
  rw [← doubled, ← escaped] at lines
  cases lines

end ForgePilot.EscapedCommands
