import ForgePilot.Characters

/-!
# Lexical POSIX paths

A path is its root and its components. Reading a text drops empty components and
single dots and keeps double dots; exactly two leading slashes are a root of
their own. Joining an absolute path replaces what it is joined to.
-/

namespace ForgePilot

open Characters

/-- A path without empty components and single dots. -/
structure PosixPath where
  root : String
  parts : List String
deriving DecidableEq

namespace PosixPath

/-- The root of a text: none, a slash, or exactly two of them. -/
def rootOf (text : List Char) : String :=
  match (text.takeWhile (· == '/')).length with
  | 0 => ""
  | 2 => "//"
  | _ => "/"

/-- The components of a text between slashes. -/
def components (text : List Char) : List String :=
  ((words (· == '/') text).filter (· ≠ ['.'])).map String.ofList

/-- The components on both sides of a slash. -/
theorem components_slash (front rest : List Char) :
    components (front ++ '/' :: rest) = components front ++ components rest := by
  rw [components, words, words_from_separator _ _ _ rfl, List.filter_append, List.map_append]
  rfl

def ofText (text : String) : PosixPath := ⟨rootOf text.toList, components text.toList⟩

/-- Write a path as a text; the empty relative path is a dot. -/
def text (path : PosixPath) : String :=
  if path.root = "" ∧ path.parts = [] then "." else path.root ++ "/".intercalate path.parts

def isAbsolute (path : PosixPath) : Bool := path.root ≠ ""

/-- Extend a path by another one. -/
def join (path other : PosixPath) : PosixPath :=
  if other.isAbsolute then other else ⟨path.root, path.parts ++ other.parts⟩

/-- The components of a path below another one, when it lies below it. -/
def relativeTo (path base : PosixPath) : Option (List String) :=
  if path.root = base.root ∧ base.parts.isPrefixOf path.parts then
    some (path.parts.drop base.parts.length)
  else none

end PosixPath

end ForgePilot
