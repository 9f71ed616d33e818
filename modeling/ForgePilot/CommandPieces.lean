import ForgePilot.BashCommands
import ForgePilot.ReportedOutput

/-!
# The pieces of a command line

Every command at the top of the trees becomes a piece, together with what stands between it and the next one.
Only whitespace is lost, at the ends of the commands and of what stands between them.
-/

namespace ForgePilot.CommandPieces

open BashCommands Characters Spans List
open JsonReading (Text)
open ReportedOutput (visible visible_append visible_lstrip visible_rstrip)

/-- The nodes that a command line is cut at; whitespace alone is not parsed. -/
def topLevel (parse : Text → Except ParseError (List Node)) (commands : Text) :
    Except ParseError (List Node) :=
  if strip commands = [] then .ok [] else parse commands

/-- The text of each node, followed by what stands between it and the next one. -/
def nodePieces (commands : Text) : List Span → List Text
  | [] => []
  | pos :: rest =>
      (rstrip (part commands pos.start pos.stop) ++ rstrip (gap commands pos.stop rest)) ::
        nodePieces commands rest

/-- What stands before the first node, unless it is whitespace; everything when there are no nodes. -/
def unparsed (commands : Text) : List Span → List Text
  | [] => [rstrip commands]
  | pos :: _ =>
      if strip (part commands 0 pos.start) = [] then [] else [rstrip (part commands 0 pos.start)]

variable (text commands : Text) (spans : List Span)

theorem length_nodePieces : (nodePieces commands spans).length = spans.length := by
  induction spans with
  | nil => rfl
  | cons pos rest ih => rw [nodePieces, length_cons, ih, length_cons]

theorem length_unparsed : (unparsed commands spans).length ≤ 1 := by
  cases spans with
  | nil => exact Nat.le_refl 1
  | cons pos rest =>
    rw [unparsed]
    split
    · exact Nat.zero_le 1
    · exact Nat.le_refl 1

/-! ## Texts of whitespace -/

theorem lstrip_nil_iff : lstrip text = [] ↔ visible text = [] := by
  constructor
  · intro empty
    rw [← visible_lstrip, empty]
    rfl
  · intro blank
    by_contra filled
    exact ReportedOutput.visible_lstrip_filled _ filled (by rw [visible_lstrip, blank])

theorem rstrip_nil_iff : rstrip text = [] ↔ visible text = [] := by
  rw [rstrip, reverse_eq_nil_iff, lstrip_nil_iff, visible, filter_reverse,
    reverse_eq_nil_iff, ← visible]

theorem strip_nil_iff : strip text = [] ↔ visible text = [] := by
  rw [strip, rstrip_nil_iff, visible_lstrip]

/-! ## Cutting at nodes that are in order -/

theorem appendLast_last (front : List Text) (last more : Text) :
    appendLast (front ++ [last]) more = front ++ [last ++ more] := by
  simp [appendLast]

/-- A node leaves the pieces before the last one alone. -/
theorem addNode_last (lastEnd : Nat) (front : List Text) (last : Text) (pos : Span)
    (rest : List Span) (early : lastEnd ≤ pos.start) :
    addNode commands lastEnd (front ++ [last]) pos =
      (front ++ [last ++ rstrip (gap commands lastEnd (pos :: rest))]) ++
        [rstrip (part commands pos.start pos.stop)] := by
  rw [addNode, gap]
  by_cases before : lastEnd < pos.start
  · rw [if_pos before, if_pos (by simp), appendLast_last]
  · have here : lastEnd = pos.start := by omega
    rw [if_neg before, here, part_empty]
    simp [rstrip, lstrip]

/-- The pieces that some nodes make of those before them. -/
theorem addNodes_last (lastEnd : Nat) (front : List Text) (last : Text) (spans : List Span)
    (ordered : InOrder commands.length lastEnd spans) :
    addNodes commands lastEnd (front ++ [last]) spans =
      front ++ [last ++ rstrip (gap commands lastEnd spans)] ++ nodePieces commands spans := by
  induction spans generalizing lastEnd front last with
  | nil =>
    rw [addNodes, gap, nodePieces, append_nil]
    by_cases inside : lastEnd < commands.length
    · rw [if_pos ⟨inside, by simp⟩, appendLast_last]
    · rw [if_neg (fun both => inside both.1), if_neg (fun both => inside both.1),
        drop_eq_nil_of_le (by omega)]
      simp [rstrip, lstrip]
  | cons pos rest ih =>
    obtain ⟨early, -, later⟩ := ordered
    rw [addNodes, addNode_last _ _ _ last pos rest early, ih pos.stop _ _ later, nodePieces]
    simp

/-- The pieces of a command line that is not only whitespace. -/
theorem addNodes_nothing (filled : strip commands ≠ []) (spans : List Span)
    (ordered : InOrder commands.length 0 spans) :
    addNodes commands 0 [] spans = unparsed commands spans ++ nodePieces commands spans := by
  cases spans with
  | nil =>
    have some : rstrip commands ≠ [] := by rwa [Ne, rstrip_nil_iff, ← strip_nil_iff]
    have long : 0 < commands.length := by
      apply length_pos_of_ne_nil
      rintro rfl
      exact filled rfl
    rw [addNodes, if_neg (by simp), drop_zero, if_pos ⟨long, some⟩]
    rfl
  | cons pos rest =>
    obtain ⟨-, -, later⟩ := ordered
    have first : addNode commands 0 [] pos =
        unparsed commands (pos :: rest) ++ [rstrip (part commands pos.start pos.stop)] := by
      rw [addNode, unparsed]
      by_cases before : 0 < pos.start
      · rw [if_pos before, if_neg (by simp)]
        by_cases blank : strip (part commands 0 pos.start) = []
        · rw [if_neg (by simpa using blank), if_pos blank]
        · rw [if_pos blank, if_neg blank]
      · have here : pos.start = 0 := by omega
        rw [if_neg before, here, part_empty, if_pos (by rfl)]
    rw [addNodes, first, addNodes_last _ _ _ _ _ later, nodePieces]
    simp

/-! ## Nothing but whitespace is lost -/

theorem visible_nodePieces (earliest : Nat) (spans : List Span)
    (ordered : InOrder commands.length earliest spans) :
    visible (gap commands earliest spans) ++ visible (nodePieces commands spans).flatten =
      visible (commands.drop earliest) := by
  induction spans generalizing earliest with
  | nil => exact append_nil _
  | cons pos rest ih =>
    rw [gap_append ordered, nodePieces, flatten_cons, visible_append,
      visible_append, visible_append, visible_append, visible_rstrip, visible_rstrip,
      ← ih pos.stop ordered.2.2, append_assoc (visible (part commands _ _))]

theorem visible_unparsed :
    visible (unparsed commands spans).flatten = visible (gap commands 0 spans) := by
  cases spans with
  | nil => rw [unparsed, flatten_singleton, visible_rstrip, gap, drop_zero]
  | cons pos rest =>
    rw [unparsed, gap]
    split
    · rename_i blank
      exact ((strip_nil_iff _).mp blank).symm
    · rw [flatten_singleton, visible_rstrip]

/-- The pieces are those of the nodes, behind at most one that no node belongs to, and together they are the
command line up to whitespace. -/
theorem pieces_of_nodes (parse : Text → Except ParseError (List Node)) (commands : Text) (nodes : List Node)
    (parsed : topLevel parse commands = .ok nodes)
    (ordered : InOrder commands.length 0 (nodes.map Node.pos)) :
    let spans := nodes.map Node.pos
    splitBashCommands parse commands = .ok (unparsed commands spans ++ nodePieces commands spans) ∧
      visible (unparsed commands spans ++ nodePieces commands spans).flatten = visible commands ∧
      (nodePieces commands spans).length = nodes.length ∧ (unparsed commands spans).length ≤ 1 := by
  intro spans
  refine ⟨?_, ?_, ?_, length_unparsed ..⟩
  · rw [topLevel] at parsed
    rw [splitBashCommands]
    by_cases blank : strip commands = []
    · rw [if_pos blank] at parsed ⊢
      cases parsed
      have empty : rstrip commands = [] := (rstrip_nil_iff ..).mpr ((strip_nil_iff ..).mp blank)
      change _ = Except.ok [rstrip commands]
      rw [empty]
    · rw [if_neg blank] at parsed ⊢
      rw [parsed]
      exact congrArg Except.ok (addNodes_nothing _ blank _ ordered)
  · rw [List.flatten_append, visible_append, visible_unparsed,
      visible_nodePieces _ 0 _ ordered, List.drop_zero]
  · rw [length_nodePieces, List.length_map]

/-- Two commands with a comment behind them, and a shebang before them. -/
theorem commented_pieces : let commands := "#!/bin/sh\nls -a ; pwd\n# done\n".toList
    let parse := fun _ : Text =>
      Except.ok [Node.node (.other "command") ⟨10, 15⟩ none [] [], .node (.other "command") ⟨18, 21⟩ none [] []]
    splitBashCommands parse commands = .ok ["#!/bin/sh".toList, "ls -a ;".toList, "pwd\n# done".toList] := by
  intro commands parse
  exact (pieces_of_nodes parse commands _ rfl (by decide)).1
end ForgePilot.CommandPieces
