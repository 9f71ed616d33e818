import ForgePilot.Characters

/-!
# Splitting a command line into shell words

The reader of quoted words in its POSIX mode: words are separated by blanks,
tabs and line breaks; single quotes keep everything, double quotes keep
everything but a backslash before a backslash or a double quote, and a backslash
outside quotes keeps the next character. A text that ends inside quotes or after
a backslash is refused. Comment characters have no meaning here.
-/

namespace ForgePilot.ShellWords

open Characters

/-- What separates words outside quotes. -/
def isBlank (character : Char) : Bool :=
  character == ' ' || character == '\t' || character == '\r' || character == '\n'

def isQuote (character : Char) : Bool := character == '\'' || character == '"'

/-- Where the reader stands: between words, in a word, inside a quotation, or
after a backslash in a word or in a quotation. -/
inductive Mode where
  | blank
  | word
  | quoted (mark : Char)
  | escaped (mark : Option Char)
deriving DecidableEq

/-- Read the rest of the input with a word pending. -/
def read : Mode → List Char → List Char → Except String (List (List Char))
  | .blank, _, [] => .ok []
  | .word, pending, [] => .ok [pending]
  | .quoted _, _, [] => .error "No closing quotation"
  | .escaped _, _, [] => .error "No escaped character"
  | .blank, _, character :: rest =>
      if isBlank character then read .blank [] rest
      else if character = '\\' then read (.escaped none) [] rest
      else if isQuote character then read (.quoted character) [] rest
      else read .word [character] rest
  | .word, pending, character :: rest =>
      if isBlank character then (read .blank [] rest).map (pending :: ·)
      else if isQuote character then read (.quoted character) pending rest
      else if character = '\\' then read (.escaped none) pending rest
      else read .word (pending ++ [character]) rest
  | .quoted mark, pending, character :: rest =>
      if character = mark then read .word pending rest
      else if character = '\\' ∧ mark = '"' then read (.escaped (some mark)) pending rest
      else read (.quoted mark) (pending ++ [character]) rest
  | .escaped none, pending, character :: rest => read .word (pending ++ [character]) rest
  | .escaped (some mark), pending, character :: rest =>
      if character ≠ '\\' ∧ character ≠ mark then
        read (.quoted mark) (pending ++ ['\\', character]) rest
      else read (.quoted mark) (pending ++ [character]) rest

/-- The words of a command line, or the reason it cannot be read. -/
def split (command : String) : Except String (List String) :=
  (read .blank [] command.toList).map (List.map String.ofList)

/-- The words of a command line; an unreadable one is split at whitespace. -/
def splitOrWords (command : String) : List String :=
  match split command with
  | .ok parts => parts
  | .error _ => (words isSpace command.toList).map String.ofList

/-- A text in which nothing is quoted. -/
def Plain (text : List Char) : Prop :=
  ∀ character ∈ text, isQuote character = false ∧ character ≠ '\\'

/-- Blanks between words are skipped. -/
theorem read_skip (blanks rest : List Char) (all : ∀ char ∈ blanks, isBlank char = true) :
    read .blank [] (blanks ++ rest) = read .blank [] rest := by
  induction blanks with
  | nil => rfl
  | cons char others ih =>
    have here := all char (.head _)
    have later := ih (fun other member => all other (.tail char member))
    simpa [read, here] using later

/-- A plain text before a blank is read as its words, whether or not a word is pending. -/
theorem read_plain (text rest : List Char) (blank : Char) (separates : isBlank blank = true)
    (plain : Plain text) :
    read .blank [] (text ++ blank :: rest) = (read .blank [] rest).map (words isBlank text ++ ·) ∧
      ∀ pending, pending ≠ [] → read .word pending (text ++ blank :: rest) =
        (read .blank [] rest).map (wordsFrom isBlank pending text ++ ·) := by
  induction text with
  | nil =>
    constructor
    · simp only [List.nil_append, read, separates, if_true, words, wordsFrom, flush]
      cases read .blank [] rest <;> rfl
    · intro pending started
      simp [read, separates, wordsFrom, flush, started]
  | cons char others ih =>
    obtain ⟨unquoted, unescaped⟩ := plain char (.head _)
    obtain ⟨fromBlank, fromWord⟩ := ih (fun other member => plain other (.tail char member))
    cases here : isBlank char with
    | true =>
      constructor
      · simpa [read, here, words, wordsFrom, flush] using fromBlank
      · intro pending started
        simp only [List.cons_append, read, here, if_true, fromBlank, wordsFrom, flush, started,
          if_false]
        cases read .blank [] rest <;> simp [Except.map, words]
    | false =>
      constructor
      · simpa [read, here, unquoted, unescaped, words, wordsFrom] using
          fromWord [char] (by simp)
      · intro pending started
        simpa [read, here, unquoted, unescaped, wordsFrom] using
          fromWord (pending ++ [char]) (by simp)

/-- A plain text is read as its words to its end, whether or not a word is pending. -/
theorem read_plain_end {text : List Char} (plain : Plain text) :
    read .blank [] text = .ok (words isBlank text) ∧
      ∀ pending, pending ≠ [] → read .word pending text = .ok (wordsFrom isBlank pending text) := by
  induction text with
  | nil =>
    constructor
    · rfl
    · intro pending started
      simp [read, wordsFrom, flush, started]
  | cons char others ih =>
    obtain ⟨unquoted, unescaped⟩ := plain char (.head _)
    obtain ⟨fromBlank, fromWord⟩ := ih (fun other member => plain other (.tail char member))
    cases here : isBlank char with
    | true =>
      constructor
      · simpa [read, here, words, wordsFrom, flush] using fromBlank
      · intro pending started
        simp [read, here, fromBlank, wordsFrom, flush, started, Except.map, words]
    | false =>
      constructor
      · simpa [read, here, unquoted, unescaped, words, wordsFrom] using
          fromWord [char] (by simp)
      · intro pending started
        simpa [read, here, unquoted, unescaped, wordsFrom] using
          fromWord (pending ++ [char]) (by simp)

theorem is_space_of_blank {char : Char} (blank : isBlank char = true) : isSpace char = true := by
  simp only [isBlank, Bool.or_eq_true, beq_iff_eq] at blank
  rcases blank with ((rfl | rfl) | rfl) | rfl <;> decide

/-- Characters that need no quoting on a command line. -/
def isSafe (character : Char) : Bool :=
  character.isAlphanum || "_@%+=:,./-".toList.contains character

/-- A word as it is written on a command line. -/
def quote (word : String) : String :=
  if word = "" then "''"
  else if word.toList.all isSafe then word
  else "'" ++ String.ofList (word.toList.flatMap (fun character =>
    if character = '\'' then "'\"'\"'".toList else [character])) ++ "'"

/-- A command line that is read back as the given words. -/
def join (parts : List String) : String := " ".intercalate (parts.map quote)

end ForgePilot.ShellWords
