import ForgePilot.StoreAgreement

/-!
# Texts as lines

A text is opened for reading with a line end, or without one. With a line end, lines are read up to it and keep it.
Without one, carriage returns and line feeds are read as line feeds.
-/

namespace ForgePilot.LineEnds

open Characters StoredFiles

inductive LineEnd where
  | lf
  | crlf
deriving DecidableEq

/-- Lines up to a line feed, which they keep, with the beginning of the first one pending. -/
def keepLf (pending : Text) : Text → List Text
  | [] => if pending = [] then [] else [pending]
  | character :: rest =>
      if character = '\n' then (pending ++ ['\n']) :: keepLf [] rest
      else keepLf (pending ++ [character]) rest

/-- Lines up to a carriage return and a line feed. -/
def keepCrlf (pending : Text) : Text → List Text
  | [] => if pending = [] then [] else [pending]
  | '\r' :: '\n' :: rest => (pending ++ ['\r', '\n']) :: keepCrlf [] rest
  | character :: rest => keepCrlf (pending ++ [character]) rest

/-- The lines of a text that is opened with a line end or without one. -/
def readlines (newline : Option LineEnd) (contents : Text) : List Text :=
  match newline with
  | some .crlf => keepCrlf [] contents
  | some .lf => keepLf [] contents
  | none => keepLf [] (LocalFileStore.universalNewlines contents)

/-- Carriage returns are not read without a line end. -/
theorem universalNewlines_return (text : Text) : '\r' ∉ LocalFileStore.universalNewlines text := by
  fun_induction LocalFileStore.universalNewlines text with
  | case1 => simp
  | case2 rest ih => simpa using ih
  | case3 character rest _ ih =>
    intro member
    rcases List.mem_cons.mp member with same | later
    · split at same
      · cases same
      · exact absurd same.symm ‹_›
    · exact ih later

end ForgePilot.LineEnds
