import Mathlib.Data.List.Basic

/-!
# Tables as comma-separated text

A cell with a separator, a quotation mark or a line end is quoted, and a record ends with a carriage return and a
line feed. Reading undoes this, so that different tables have different texts.
-/

namespace ForgePilot.CsvTables

open List

abbrev Text := List Char

/-- Quotation marks are doubled inside a quoted cell. -/
def doubled (cell : Text) : Text :=
  cell.flatMap (fun char => if char = '"' then ['"', '"'] else [char])

/-- A cell is quoted only when it has to be. -/
def writeCell (cell : Text) : Text :=
  if cell.any [',', '"', '\r', '\n'].contains then '"' :: (doubled cell ++ ['"']) else cell

def writeCells : List Text → Text
  | [] => []
  | cell :: rest => writeCell cell ++ rest.flatMap (fun next => ',' :: writeCell next)

/-- A record with a single empty cell is told from one without cells. -/
def writeRow (row : List Text) : Text :=
  (if row = [[]] then ['"', '"'] else writeCells row) ++ ['\r', '\n']

/-- A reader is outside of quotation marks, between them, or after one that may be the first of two. -/
inductive Place where
  | plain | quoted | closed
deriving DecidableEq

/-- The records of a written text, with the cell and the record read so far. -/
def read (place : Place) (field : Text) (fields : List Text) : Text → List (List Text)
  | [] => []
  | char :: rest =>
      if place = .quoted then
        if char = '"' then read .closed field fields rest
        else read .quoted (field ++ [char]) fields rest
      else if char = '"' then
        read .quoted (if place = .closed then field ++ [char] else field) fields rest
      else if char = ',' then read .plain [] (fields ++ [field]) rest
      else if char = '\r' then read place field fields rest
      else if char = '\n' then (fields ++ [field]) :: read .plain [] [] rest
      else read .plain (field ++ [char]) fields rest

variable (field cell rest : Text) (fields : List Text)

theorem read_doubled : read .quoted field fields (doubled cell ++ '"' :: rest) =
    read .closed (field ++ cell) fields rest := by
  induction cell generalizing field with
  | nil => simp [doubled, read]
  | cons char cell ih =>
    have next := ih (field ++ [char])
    by_cases mark : char = '"' <;> simp_all [doubled, read]

theorem read_plain {cell : Text} (plain : ∀ char ∈ cell, char ∉ [',', '"', '\r', '\n']) :
    read .plain field fields (cell ++ rest) = read .plain (field ++ cell) fields rest := by
  induction cell generalizing field with
  | nil => simp
  | cons char cell ih =>
    obtain ⟨ordinary, others⟩ := forall_mem_cons.mp plain
    simp only [mem_cons, not_mem_nil, or_false, not_or] at ordinary
    simp [read, ordinary, ih _ others]

/-- A written cell is read up to what ends it. -/
theorem read_cell (cell : Text) : ∃ place ≠ Place.quoted, ∀ fields rest,
    read .plain [] fields (writeCell cell ++ rest) = read place cell fields rest := by
  by_cases special : cell.any [',', '"', '\r', '\n'].contains = true
  · refine ⟨.closed, by decide, fun fields rest => ?_⟩
    rw [writeCell, if_pos special]
    simpa [read] using read_doubled [] cell rest fields
  · refine ⟨.plain, by decide, fun fields rest => ?_⟩
    rw [writeCell, if_neg special]
    exact read_plain [] rest fields (by simpa using special)

/-- Written cells are read in order, up to the end of their record. -/
theorem read_cells (cells : List Text) :
    read .plain [] fields (writeCells (cell :: cells) ++ '\r' :: '\n' :: rest) =
      (fields ++ cell :: cells) :: read .plain [] [] rest := by
  rw [writeCells]
  induction cells generalizing cell fields with
  | nil =>
    obtain ⟨place, unquoted, next⟩ := read_cell cell
    rw [flatMap_nil, append_nil, next]
    cases place <;> first | rfl | contradiction
  | cons other cells ih =>
    obtain ⟨place, unquoted, next⟩ := read_cell cell
    have stepped more : read place cell fields (',' :: more) = read .plain [] (fields ++ [cell]) more := by
      cases place <;> first | rfl | contradiction
    rw [flatMap_cons, append_assoc, next, cons_append, cons_append, stepped]
    simpa using ih other (fields ++ [cell])

/-- A written table without empty records is read back. -/
theorem read_table (table : List (List Text)) (filled : ∀ row ∈ table, row ≠ []) :
    read .plain [] [] (table.flatMap writeRow) = table := by
  induction table with
  | nil => rfl
  | cons row table ih =>
    obtain ⟨first, others⟩ := forall_mem_cons.mp filled
    rw [flatMap_cons, writeRow, append_assoc]
    split
    · simp_all [read]
    · cases row with
      | nil => contradiction
      | cons cell cells => simpa [ih others] using read_cells cell (table.flatMap writeRow) [] cells

end ForgePilot.CsvTables
