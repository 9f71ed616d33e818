import ForgePilot.AuditSchema
import ForgePilot.CsvTables
import ForgePilot.FloatTexts

/-!
# The audit log as a spreadsheet

Events are exported in chronological order below a header. A text that a spreadsheet would take for a formula is put
behind an apostrophe; numbers are not.
-/

namespace ForgePilot

open CsvTables List

/-- A value of a row. -/
inductive CellValue where
  | str (text : String)
  | int (number : Int)
  | float (number : Rat)

/-- How dates, floating-point numbers and payloads are printed. -/
structure Printing where
  isoformat : Timestamp → String
  str : Rat → String
  dumps : List (String × Value) → String

variable (printing : Printing)

def CellValue.text : CellValue → Text
  | .str text => text.toList
  | .int number => FloatTexts.decimal number
  | .float number => (printing.str number).toList

def csvFormulaPrefixes : List Char := ['=', '+', '-', '@', '\t', '\r']

/-- Whether a spreadsheet takes a cell for a formula. -/
def startsFormula (cell : Text) : Bool := csvFormulaPrefixes.any (cell.head? = some ·)

def sanitizeCsvCell : CellValue → CellValue
  | .str text => if startsFormula text.toList then .str ("'" ++ text) else .str text
  | value => value

def fieldnames : List String :=
  ["trace_id", "task_id", "event_type", "phase", "timestamp", "summary", "duration_ms", "cost_usd", "payload"]

/-- The values of an event, in the order of the field names. A duration of zero is left out. -/
def modelDumpForExport (event : AuditEvent) : List CellValue := [
  .str event.traceId, .str (event.taskId.getD ""), .str event.eventType.value,
  .str (event.phase.getD ""), .str (printing.isoformat event.timestamp), .str event.summary,
  match event.durationMs with
  | some duration => if duration = 0 then .str "" else .int duration
  | none => .str "",
  match event.costUsd with
  | some cost => .float cost
  | none => .str "",
  .str (printing.dumps event.payload)]

/-- The record of an event. -/
def exportedRow (event : AuditEvent) : List Text :=
  (modelDumpForExport printing event).map fun value => (sanitizeCsvCell value).text printing

/-- The header and the records. -/
def exportedTable (timeline : List AuditEvent) : List (List Text) :=
  fieldnames.map String.toList :: timeline.map (exportedRow printing)

def exportAuditEventsCsv (events : List AuditEvent) : Except AuditError String :=
  (orderedTimeline events).map fun timeline =>
    String.ofList ((exportedTable printing timeline).flatMap writeRow)

/-- An export is read back as its table. -/
theorem read_exported (timeline : List AuditEvent) :
    read .plain [] [] ((exportedTable printing timeline).flatMap writeRow) = exportedTable printing timeline := by
  refine read_table _ fun row listed => ?_
  rcases mem_cons.mp listed with rfl | later
  · decide
  · obtain ⟨event, _, rfl⟩ := mem_map.mp later
    simp [exportedRow, modelDumpForExport]

@[simp] theorem sanitized_int (number : Int) :
    (sanitizeCsvCell (.int number)).text printing = FloatTexts.decimal number := rfl

@[simp] theorem sanitized_float (number : Rat) :
    (sanitizeCsvCell (.float number)).text printing = (printing.str number).toList := rfl

/-- A text is not exported as a formula. -/
theorem sanitized_text (text : String) :
    startsFormula ((sanitizeCsvCell (.str text)).text printing) = false := by
  rw [sanitizeCsvCell]
  split
  · simp [CellValue.text, startsFormula, csvFormulaPrefixes]
  · exact eq_false_of_ne_true ‹_›

/-- A printed integer starts a formula when it is negative. -/
theorem decimal_formula (number : Int) : startsFormula (FloatTexts.decimal number) = decide (number < 0) := by
  by_cases negative : number < 0
  · simp [FloatTexts.decimal, negative, startsFormula, csvFormulaPrefixes]
  · have noDigit : ∀ start ∈ csvFormulaPrefixes, start.isDigit = false := by simp [csvFormulaPrefixes]
    rw [startsFormula, decide_eq_false negative, any_eq_false]
    intro start listed found
    have first : start ∈ number.natAbs.repr.toList :=
      mem_of_mem_head? (by simpa [FloatTexts.decimal, negative] using found)
    exact absurd (FloatTexts.repr_digits _ _ first) (by simp [noDigit start listed])

/-- The cells of an event that start a formula: a negative duration, or a cost that prints as one. -/
def formulaCells (event : AuditEvent) : List Text :=
  (event.durationMs.toList.filter (· < 0)).map FloatTexts.decimal ++
    (event.costUsd.toList.map fun cost => (printing.str cost).toList).filter startsFormula

theorem row_formulas (event : AuditEvent) :
    (exportedRow printing event).filter startsFormula = formulaCells printing event := by
  simp only [exportedRow, modelDumpForExport, formulaCells, map_cons, map_nil, filter_cons, sanitized_text]
  rcases event.durationMs with none | duration
  · cases event.costUsd <;> simp [sanitized_text, filter_cons]
  · by_cases zero : duration = 0 <;> by_cases negative : duration < 0 <;> cases event.costUsd <;>
      simp_all [sanitized_text, decimal_formula, filter_cons]

/-- A spreadsheet takes no cell of an export for a formula but negative durations and such costs. -/
theorem export_csv_formulas (events : List AuditEvent) :
    (exportAuditEventsCsv printing events).map
        (fun text => (read .plain [] [] text.toList).tail.flatten.filter startsFormula) =
      (orderedTimeline events).map (List.flatMap (formulaCells printing)) := by
  rw [exportAuditEventsCsv]
  cases orderedTimeline events with
  | error raised => rfl
  | ok timeline =>
    simp only [Except.map, String.toList_ofList, read_exported]
    rw [exportedTable, tail_cons, filter_flatten, map_map, flatMap_def]
    congr 3
    exact funext fun _ => row_formulas ..

end ForgePilot
