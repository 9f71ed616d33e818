import ForgePilot.Characters
import Mathlib.Algebra.GroupWithZero.Nat

/-!
# Reading a command line as a POSIX shell does

Tokens are recognized character by character. An unquoted blank or operator
delimits a word, a backslash outside single quotes keeps the next character and
removes a line end, single quotes keep everything, double quotes keep everything
but expansions and a backslash before one of the characters it can escape there,
and an unquoted hash sign that begins a word begins a comment.

A text in which the shell would put something in place of what is written is
refused: a parameter expansion, a command substitution, a tilde prefix or a
filename pattern. What such a text means is not in the text. A quotation that is
never closed is refused too. The bodies of here-documents, aliases and reserved
words are not treated: they change no word that is an argument.
-/

namespace ForgePilot.ShellLexing

open List

/-- A character of a word, and whether it was quoted. -/
abbrev Piece := Char × Bool

inductive Token where
  | word (text : List Char)
  | operator (text : List Char)
deriving DecidableEq

/-- Why a text is not read to its end as it stands. -/
inductive Refusal where
  | unterminated
  | expansion
deriving DecidableEq

/-- What is begun outside quotes: nothing, a word or an operator. -/
inductive Outside where
  | between
  | word (pieces : List Piece)
  | operator (text : List Char)
deriving DecidableEq

/-- Where the reader stands. A word begun before a quotation is kept with it. -/
inductive State where
  | outside (begun : Outside)
  | escaped (begun : Outside)
  | single (pieces : List Piece)
  | double (pieces : List Piece)
  | escapedDouble (pieces : List Piece)
  | comment
deriving DecidableEq

/-- The control operators and the redirection operators. -/
def operators : List (List Char) :=
  [['&'], ['|'], [';'], ['<'], ['>'], ['('], [')'], ['\n'], ['&', '&'], ['|', '|'], [';', ';'],
    [';', '&'], ['<', '<'], ['>', '>'], ['<', '&'], ['>', '&'], ['<', '>'], ['>', '|'],
    ['<', '<', '-']]

/-- What separates words within a line. -/
def isBlank (character : Char) : Bool := character == ' ' || character == '\t'

/-- A dollar sign before one of these begins an expansion: a name, a special
parameter, a brace or a parenthesis. -/
def opensExpansion : Option Char → Bool
  | none => false
  | some next => next.isAlphanum || ['_', '@', '*', '#', '?', '-', '$', '!', '{', '('].contains next

/-- An expansion begins at the character. -/
def expands (character : Char) (next : Option Char) : Bool :=
  character == '\x60' || character == '$' && opensExpansion next

/-- A backslash inside double quotes escapes these, and removes a line end. -/
def escapable (character : Char) : Bool := ['$', '\x60', '"', '\\', '\n'].contains character

/-- An unquoted tilde begins the word and nothing before the first unquoted
slash is quoted. -/
def tilde (pieces : List Piece) : Bool :=
  pieces.head? == some ('~', false) &&
    (pieces.takeWhile (fun piece => piece != ('/', false))).all (fun piece => !piece.2)

/-- An unquoted closing bracket comes before a slash does. -/
def closesBracket : List Piece → Bool
  | [] => false
  | (character, quoted) :: rest =>
      if character = '/' then false
      else if character = ']' ∧ quoted = false then true
      else closesBracket rest

/-- What follows an opening bracket makes it a bracket expression: after a
negation, at least one character and then a closing bracket. -/
def bracketExpression : List Piece → Bool
  | [] => false
  | first :: rest =>
      match (if first = ('!', false) then rest else first :: rest) with
      | [] => false
      | (character, _) :: others => character != '/' && closesBracket others

/-- The word is a filename pattern. -/
def pattern : List Piece → Bool
  | [] => false
  | (character, quoted) :: rest =>
      (!quoted && (character == '*' || character == '?' ||
        character == '[' && bracketExpression rest)) || pattern rest

def finishWord (pieces : List Piece) : Except Refusal Token :=
  if tilde pieces || pattern pieces then .error .expansion
  else .ok (.word (pieces.map Prod.fst))

/-- What was begun is complete. -/
def Outside.close : Outside → Except Refusal (List Token)
  | .between => .ok []
  | .word pieces => (finishWord pieces).map ([·])
  | .operator text => .ok [.operator text]

/-- What is complete before a character of a word, and the word that goes on. -/
def Outside.resume : Outside → List Token × List Piece
  | .between => ([], [])
  | .word pieces => ([], pieces)
  | .operator text => ([.operator text], [])

/-- The longer operator that the character makes of the one begun. -/
def Outside.longer : Outside → Char → Option (List Char)
  | .operator text, character =>
      if operators.contains (text ++ [character]) then some (text ++ [character]) else none
  | _, _ => none

/-- A hash sign here is a character of a word. -/
def Outside.inWord : Outside → Bool
  | .word _ => true
  | _ => false

def readOutside (begun : Outside) (character : Char) (next : Option Char) :
    Except Refusal (List Token × State) :=
  if character = '\\' then .ok ([], .escaped begun)
  else if character = '\'' then .ok (begun.resume.1, .single begun.resume.2)
  else if character = '"' then .ok (begun.resume.1, .double begun.resume.2)
  else if expands character next then .error .expansion
  else
    match begun.longer character with
    | some text => .ok ([], .outside (.operator text))
    | none =>
      if operators.contains [character] then
        begun.close.map fun tokens => (tokens, .outside (.operator [character]))
      else if isBlank character then begun.close.map fun tokens => (tokens, .outside .between)
      else if character = '#' ∧ begun.inWord = false then
        begun.close.map fun tokens => (tokens, .comment)
      else .ok (begun.resume.1, .outside (.word (begun.resume.2 ++ [(character, false)])))

/-- Read one character, with the one after it in sight. -/
def step : State → Char → Option Char → Except Refusal (List Token × State)
  | .outside begun, character, next => readOutside begun character next
  | .escaped begun, character, _ =>
      if character = '\n' then .ok ([], .outside begun)
      else .ok (begun.resume.1, .outside (.word (begun.resume.2 ++ [(character, true)])))
  | .single pieces, character, _ =>
      if character = '\'' then .ok ([], .outside (.word pieces))
      else .ok ([], .single (pieces ++ [(character, true)]))
  | .double pieces, character, next =>
      if character = '"' then .ok ([], .outside (.word pieces))
      else if character = '\\' then .ok ([], .escapedDouble pieces)
      else if expands character next then .error .expansion
      else .ok ([], .double (pieces ++ [(character, true)]))
  | .escapedDouble pieces, character, _ =>
      if character = '\n' then .ok ([], .double pieces)
      else if escapable character then .ok ([], .double (pieces ++ [(character, true)]))
      else .ok ([], .double (pieces ++ [('\\', true), (character, true)]))
  | .comment, character, _ =>
      if character = '\n' then .ok ([], .outside (.operator ['\n'])) else .ok ([], .comment)

/-- The text ends here. -/
def finish : State → Except Refusal (List Token)
  | .outside begun => begun.close
  | .comment => .ok []
  | _ => .error .unterminated

/-- Read the rest of a text. -/
def run : State → List Char → Except Refusal (List Token)
  | state, [] => finish state
  | state, character :: rest =>
      match step state character rest.head? with
      | .error refusal => .error refusal
      | .ok (tokens, after) => (run after rest).map (tokens ++ ·)

def lex (command : List Char) : Except Refusal (List Token) := run (.outside .between) command

/-- Words one after another, then whatever follows. -/
def wordTokens (parts : List (List Char)) : List Token := parts.map .word

/-! ## Texts that need no quotes -/

/-- The character stands for itself inside an unquoted word. -/
def isPlain (character : Char) : Bool :=
  !(['\\', '\'', '"'].contains character) && !operators.contains [character] && !isBlank character

/-- The text stands for itself inside an unquoted word, patterns apart. -/
def bare : List Char → Bool
  | [] => true
  | character :: rest =>
      isPlain character && !expands character rest.head? && bare rest

def unquoted (text : List Char) : List Piece := text.map fun character => (character, false)

def quoted (text : List Char) : List Piece := text.map fun character => (character, true)

@[simp] theorem unquoted_append (text more : List Char) :
    unquoted (text ++ more) = unquoted text ++ unquoted more := map_append

variable (text : List Char)

@[simp] theorem unquoted_fst : (unquoted text).map Prod.fst = text := by
  simp [unquoted, Function.comp_def]

@[simp] theorem quoted_fst : (quoted text).map Prod.fst = text := by
  simp [quoted, Function.comp_def]

@[simp] theorem run_nil (state : State) : run state [] = finish state := by
  cases state <;> rfl

theorem run_cons (state : State) (character : Char) (rest : List Char) :
    run state (character :: rest) = match step state character rest.head? with
      | .error refusal => .error refusal
      | .ok (tokens, after) => (run after rest).map (tokens ++ ·) := by
  cases state <;> rfl

variable {character : Char} {rest : List Char}

/-- A step that completes nothing. -/
theorem run_silent (state after : State)
    (stepped : step state character rest.head? = .ok ([], after)) :
    run state (character :: rest) = run after rest := by
  simp only [run_cons, stepped]
  cases run after rest <;> simp [Except.map]

variable {tokens : List Token}

/-- What a text that is read gives at its first character, and after it. -/
theorem run_ok {state : State} (read : run state (character :: rest) = .ok tokens) :
    ∃ early after more, step state character rest.head? = .ok (early, after) ∧
      run after rest = .ok more ∧ tokens = early ++ more := by
  rw [run_cons] at read
  split at read
  · cases read
  rename_i early after stepped
  cases later : run after rest with
  | error refusal => simp [later, Except.map] at read
  | ok more =>
    simp only [later, Except.map, Except.ok.injEq] at read
    exact ⟨early, after, more, stepped, later, read.symm⟩

variable {next : Option Char}

/-- A plain character goes on with the word begun. -/
theorem step_plain (pieces : List Piece) (plain : isPlain character = true)
    (still : expands character next = false) :
    step (.outside (.word pieces)) character next =
      .ok ([], .outside (.word (pieces ++ [(character, false)]))) := by
  simp only [isPlain, Bool.and_eq_true, Bool.not_eq_true', contains_eq_mem,
    decide_eq_false_iff_not, mem_cons, not_mem_nil, or_false, not_or] at plain
  obtain ⟨⟨⟨escape, single, double⟩, control⟩, spaced⟩ := plain
  simp [step, readOutside, escape, single, double, still, Outside.longer, control, spaced,
    Outside.inWord, Outside.resume]

/-- A plain character that is no hash sign begins a word. -/
theorem step_first (plain : isPlain character = true) (still : expands character next = false)
    (uncommented : character ≠ '#') :
    step (.outside .between) character next = .ok ([], .outside (.word [(character, false)])) := by
  simp only [isPlain, Bool.and_eq_true, Bool.not_eq_true', contains_eq_mem,
    decide_eq_false_iff_not, mem_cons, not_mem_nil, or_false, not_or] at plain
  obtain ⟨⟨⟨escape, single, double⟩, control⟩, spaced⟩ := plain
  simp [step, readOutside, escape, single, double, still, Outside.longer, control, spaced,
    uncommented, Outside.resume]

/-- What follows a text begins no expansion with the text's last character. -/
theorem still_before {text : List Char} (still : expands character text.head? = false)
    (calm : opensExpansion rest.head? = false) :
    expands character (text ++ rest).head? = false := by
  cases text with
  | nil =>
    simp only [expands, Bool.or_eq_false_iff] at still
    simp [expands, calm, still.1]
  | cons _ _ => exact still

/-- A bare text goes on with the word begun. -/
theorem run_bare (text rest : List Char) (pieces : List Piece) (clear : bare text = true)
    (calm : opensExpansion rest.head? = false) :
    run (.outside (.word pieces)) (text ++ rest) =
      run (.outside (.word (pieces ++ unquoted text))) rest := by
  induction text generalizing pieces with
  | nil => simp [unquoted]
  | cons character others ih =>
    simp only [bare, Bool.and_eq_true, Bool.not_eq_true'] at clear
    obtain ⟨⟨plain, still⟩, later⟩ := clear
    have ahead := still_before still calm
    rw [cons_append, run_silent _ _ (step_plain _ plain ahead), ih _ later]
    simp [unquoted]

/-- The text stands for itself as a word of its own. -/
def isWord (text : List Char) : Bool :=
  text != [] && text.head? != some '#' && bare text && !tilde (unquoted text) &&
    !pattern (unquoted text)

theorem run_begin (text rest : List Char) (some_ : text ≠ []) (uncommented : text.head? ≠ some '#')
    (clear : bare text = true) (calm : opensExpansion rest.head? = false) :
    run (.outside .between) (text ++ rest) = run (.outside (.word (unquoted text))) rest := by
  cases text with
  | nil => exact absurd rfl some_
  | cons character others =>
    simp only [bare, Bool.and_eq_true, Bool.not_eq_true'] at clear
    obtain ⟨⟨plain, still⟩, later⟩ := clear
    have ahead := still_before still calm
    have uncommented : character ≠ '#' := by simpa using uncommented
    rw [cons_append, run_silent _ _ (step_first plain ahead uncommented),
      run_bare _ _ _ later calm]
    simp [unquoted]

variable {pieces : List Piece}

/-- A word that is inert is the word it is written as. -/
theorem finish_inert (whole : tilde pieces = false) (matchless : pattern pieces = false) :
    finishWord pieces = .ok (.word (pieces.map Prod.fst)) := by
  simp [finishWord, whole, matchless]

/-- A blank completes the word before it. -/
theorem run_blank (pieces : List Piece) (rest : List Char) :
    run (.outside (.word pieces)) (' ' :: rest) = match finishWord pieces with
      | .error refusal => .error refusal
      | .ok token => (run (.outside .between) rest).map (token :: ·) := by
  have spaced : step (.outside (.word pieces)) ' ' rest.head? =
      (finishWord pieces).map fun token => ([token], .outside .between) := by
    have control : operators.contains [' '] = false := by decide
    have still : expands ' ' rest.head? = false := by simp [expands]
    simp only [step, readOutside, Outside.longer, still, control, Outside.close]
    cases finishWord pieces <;> simp [Except.map, isBlank]
  simp only [run_cons, spaced]
  cases finishWord pieces <;> simp [Except.map]

/-- A word written as it is, and the blank after it. -/
theorem run_word (text rest : List Char) (standing : isWord text = true) :
    run (.outside .between) (text ++ ' ' :: rest) =
      (run (.outside .between) rest).map (.word text :: ·) := by
  simp only [isWord, Bool.and_eq_true, bne_iff_ne, ne_eq, Bool.not_eq_true'] at standing
  obtain ⟨⟨⟨⟨some_, uncommented⟩, clear⟩, whole⟩, matchless⟩ := standing
  rw [run_begin _ _ some_ uncommented clear rfl, run_blank,
    finish_inert whole matchless, unquoted_fst]

/-- The words of a template, each with the blank after it. -/
theorem run_words (parts : List (List Char)) (rest : List Char)
    (standing : ∀ part ∈ parts, isWord part = true) :
    run (.outside .between) (parts.flatMap (· ++ [' ']) ++ rest) =
      (run (.outside .between) rest).map (wordTokens parts ++ ·) := by
  induction parts with
  | nil =>
    simp only [flatMap_nil, nil_append, wordTokens, map_nil]
    cases run (.outside .between) rest <;> simp [Except.map]
  | cons part others ih =>
    simp only [flatMap_cons, append_assoc, cons_append, nil_append]
    rw [run_word _ _ (standing part (.head _)),
      ih (fun other member => standing other (.tail part member))]
    cases run (.outside .between) rest <;> simp [Except.map, wordTokens]

/-- The operator between two commands, and the blank after it. -/
theorem run_and (rest : List Char) : run (.outside .between) ('&' :: '&' :: ' ' :: rest) =
      (run (.outside .between) rest).map (.operator ['&', '&'] :: ·) := by
  rw [run_silent _ _ rfl, run_silent _ _ rfl, run_cons]
  have spaced : step (.outside (.operator ['&', '&'])) ' ' rest.head? =
      .ok ([.operator ['&', '&']], .outside .between) := by
    have still : expands ' ' rest.head? = false := by simp [expands]
    have short : (Outside.operator ['&', '&']).longer ' ' = none := by decide
    have control : operators.contains [' '] = false := by decide
    simp only [step, readOutside, still, short, control, Outside.close]
    simp [Except.map, isBlank]
  simp [spaced]

/-! ## Texts between double quotes -/

/-- The text stands for itself between double quotes. -/
def quotable : List Char → Bool
  | [] => true
  | character :: rest =>
      character != '"' && !expands character rest.head? &&
        (character != '\\' || rest.head?.any (fun next => !escapable next)) && quotable rest

/-- A quotable text is kept between double quotes. -/
theorem run_quotable (text rest : List Char) (pieces : List Piece) (clear : quotable text = true)
    (calm : opensExpansion rest.head? = false) :
    run (.double pieces) (text ++ rest) = run (.double (pieces ++ quoted text)) rest ∧
      (text.head?.any (fun next => !escapable next) = true →
        run (.escapedDouble pieces) (text ++ rest) =
          run (.double (pieces ++ ('\\', true) :: quoted text)) rest) := by
  induction text generalizing pieces with
  | nil => simp [quoted]
  | cons character others ih =>
    simp only [quotable, Bool.and_eq_true, bne_iff_ne, ne_eq, Bool.not_eq_true'] at clear
    obtain ⟨⟨⟨unclosed, still⟩, kept⟩, later⟩ := clear
    have ahead := still_before still calm
    constructor
    · by_cases escape : character = '\\'
      · have stepped : step (.double pieces) character (others ++ rest).head? =
            .ok ([], .escapedDouble pieces) := by
          simp [step, escape]
        have next : others.head?.any (fun next => !escapable next) = true := by
          simpa [escape] using kept
        rw [cons_append, run_silent _ _ stepped, (ih pieces later).2 next]
        simp [quoted, escape]
      · have stepped : step (.double pieces) character (others ++ rest).head? =
            .ok ([], .double (pieces ++ [(character, true)])) := by
          simp only [step, escape, unclosed, ahead, if_false, Bool.false_eq_true]
        rw [cons_append, run_silent _ _ stepped, (ih _ later).1]
        simp [quoted]
    · intro plain
      have plain : escapable character = false := by simpa using plain
      have unbroken : character ≠ '\n' := by
        rintro rfl
        revert plain
        decide
      have stepped : step (.escapedDouble pieces) character (others ++ rest).head? =
          .ok ([], .double (pieces ++ [('\\', true), (character, true)])) := by
        simp [step, plain, unbroken]
      rw [cons_append, run_silent _ _ stepped, (ih _ later).1]
      simp [quoted]

/-- A quotable text between double quotes goes on with the word begun. -/
theorem run_double (text rest : List Char) (pieces : List Piece) (clear : quotable text = true) :
    run (.double pieces) (text ++ '"' :: rest) =
      run (.outside (.word (pieces ++ quoted text))) rest := by
  rw [(run_quotable _ _ _ clear rfl).1]
  exact run_silent _ _ (by simp [step])

/-! ## Texts between single quotes -/

/-- A text between single quotes, its own single quotes written between double ones. -/
def singleQuoted (text : List Char) : List Char :=
  text.flatMap fun character =>
    if character = '\'' then ['\'', '"', '\'', '"', '\''] else [character]

/-- Any text written so is kept between single quotes. -/
theorem run_single (text rest : List Char) (pieces : List Piece) :
    run (.single pieces) (singleQuoted text ++ '\'' :: rest) =
      run (.outside (.word (pieces ++ quoted text))) rest := by
  induction text generalizing pieces with
  | nil =>
    simp only [singleQuoted, flatMap_nil, nil_append, quoted, map_nil,
      append_nil]
    exact run_silent _ _ (by simp [step])
  | cons character others ih =>
    by_cases mark : character = '\''
    · subst mark
      have written : singleQuoted ('\'' :: others) ++ '\'' :: rest =
          '\'' :: '"' :: '\'' :: '"' :: '\'' :: (singleQuoted others ++ '\'' :: rest) := by
        simp [singleQuoted]
      rw [written, run_silent _ (.outside (.word pieces)) (by simp [step]),
        run_silent _ (.double pieces) (by simp [step, readOutside, Outside.resume]),
        run_silent _ (.double (pieces ++ [('\'', true)])) (by simp [step, expands]),
        run_silent _ (.outside (.word (pieces ++ [('\'', true)]))) (by simp [step]),
        run_silent _ (.single (pieces ++ [('\'', true)]))
          (by simp [step, readOutside, Outside.resume]),
        ih]
      simp [quoted]
    · have written : singleQuoted (character :: others) ++ '\'' :: rest =
          character :: (singleQuoted others ++ '\'' :: rest) := by
        simp [singleQuoted, mark]
      rw [written, run_silent _ (.single (pieces ++ [(character, true)]))
        (by simp [step, mark]), ih]
      simp [quoted]

/-- Quoted pieces are no tilde prefix and no pattern. -/
theorem quoted_inert : tilde (quoted text) = false ∧ pattern (quoted text) = false := by
  constructor
  · cases text <;> simp [tilde, quoted]
  · induction text with
    | nil => rfl
    | cons character others ih => simpa [quoted, pattern] using ih

/-! ## No character is lost from a text read as it stands -/

variable (weight : Char → Nat)

def heft (text : List Char) : Nat := (text.map weight).sum

@[simp] theorem heft_nil : heft weight [] = 0 := rfl

@[simp] theorem heft_cons (character : Char) (rest : List Char) :
    heft weight (character :: rest) = weight character + heft weight rest := by
  simp [heft]

@[simp] theorem heft_append (text more : List Char) :
    heft weight (text ++ more) = heft weight text + heft weight more := by
  simp [heft]

/-- The weight of the characters of a token's word. -/
def Token.heft : Token → Nat
  | .word text => ShellLexing.heft weight text
  | .operator _ => 0

/-- The weight of the words among the tokens. -/
def tokensHeft (tokens : List Token) : Nat := (tokens.map (Token.heft weight)).sum

@[simp] theorem tokensHeft_append (tokens more : List Token) :
    tokensHeft weight (tokens ++ more) = tokensHeft weight tokens + tokensHeft weight more := by
  simp [tokensHeft]

@[simp] theorem tokensHeft_nil : tokensHeft weight [] = 0 := rfl

@[simp] theorem tokensHeft_cons (token : Token) (rest : List Token) :
    tokensHeft weight (token :: rest) = token.heft weight + tokensHeft weight rest := by
  simp [tokensHeft]

def piecesHeft (pieces : List Piece) : Nat := heft weight (pieces.map Prod.fst)

@[simp] theorem piecesHeft_append (pieces more : List Piece) :
    piecesHeft weight (pieces ++ more) = piecesHeft weight pieces + piecesHeft weight more := by
  simp [piecesHeft]

@[simp] theorem piecesHeft_nil : piecesHeft weight [] = 0 := rfl

@[simp] theorem piecesHeft_cons (piece : Piece) (rest : List Piece) :
    piecesHeft weight (piece :: rest) = weight piece.1 + piecesHeft weight rest := by
  simp [piecesHeft]

/-- The weight of what is begun. -/
def Outside.heft : Outside → Nat
  | .word pieces => piecesHeft weight pieces
  | _ => 0

/-- The weight of what is kept in a state. -/
def State.heft : State → Nat
  | .outside begun => begun.heft weight
  | .escaped begun => begun.heft weight
  | .single pieces => piecesHeft weight pieces
  | .double pieces => piecesHeft weight pieces
  | .escapedDouble pieces => piecesHeft weight pieces + weight '\\'
  | .comment => 0

theorem word_heft (pieces : List Piece) :
    (State.outside (.word pieces)).heft weight = piecesHeft weight pieces := rfl

theorem finishWord_heft {token : Token} (finished : finishWord pieces = .ok token) :
    token.heft weight = piecesHeft weight pieces := by
  unfold finishWord at finished
  split at finished
  · cases finished
  · cases finished
    rfl

variable (begun : Outside)

theorem close_heft (tokens : List Token) (closed : begun.close = .ok tokens) :
    tokensHeft weight tokens = begun.heft weight := by
  cases begun with
  | between =>
    cases closed
    rfl
  | word pieces =>
    simp only [Outside.close] at closed
    cases finished : finishWord pieces with
    | error refusal => simp [finished, Except.map] at closed
    | ok token =>
      simp only [finished, Except.map, Except.ok.injEq] at closed
      subst closed
      simp [Outside.heft, finishWord_heft _ finished]
  | operator text =>
    cases closed
    simp [Token.heft, Outside.heft]

theorem resume_heft :
    tokensHeft weight begun.resume.1 + piecesHeft weight begun.resume.2 = begun.heft weight := by
  cases begun <;> simp [Outside.resume, Outside.heft, Token.heft]

/-- A step outside quotes keeps the character that was read where it is one of a word's own. -/
theorem readOutside_heft {begun : Outside} {after : State}
    (stepped : readOutside begun character next = .ok (tokens, after)) :
    tokensHeft weight tokens + after.heft weight ≤ begun.heft weight ∨
      isPlain character = true ∧ ¬(character = '#' ∧ begun.inWord = false) ∧
        tokensHeft weight tokens + after.heft weight = begun.heft weight + weight character := by
  have resumed := resume_heft weight begun
  -- a delimiter completes what was begun and is itself no character of a word
  have closing : ∀ after : State, after.heft weight = 0 → ∀ outcome : List Token × State,
      (begun.close.map fun tokens => (tokens, after)) = .ok outcome →
      tokensHeft weight outcome.1 + outcome.2.heft weight ≤ begun.heft weight := by
    intro after empty outcome completed
    cases closed : begun.close with
    | error refusal => simp [closed, Except.map] at completed
    | ok tokens =>
      simp only [closed, Except.map, Except.ok.injEq] at completed
      subst completed
      simp [empty, close_heft _ _ _ closed]
  unfold readOutside at stepped
  split at stepped
  · cases stepped
    exact .inl (by simp [State.heft])
  iterate 2
    split at stepped
    · cases stepped
      exact .inl resumed.le
  split at stepped
  · cases stepped
  split at stepped
  · cases stepped
    exact .inl (by simp [State.heft, Outside.heft])
  iterate 3
    split at stepped
    · exact .inl (closing _ rfl _ stepped)
  rename_i escape single double _ _ _ control spaced uncommented
  cases stepped
  refine .inr ⟨?_, uncommented, ?_⟩
  · simp only [isPlain, Bool.and_eq_true, Bool.not_eq_true']
    exact ⟨⟨by simp [escape, single, double], by simpa using control⟩, by simpa using spaced⟩
  · simp only [word_heft, piecesHeft_append, piecesHeft_cons, piecesHeft_nil]
    omega

/-- A step keeps at most the character that was read. -/
theorem step_heft (state after : State) (character : Char) (next : Option Char)
    (tokens : List Token) (stepped : step state character next = .ok (tokens, after)) :
    tokensHeft weight tokens + after.heft weight ≤ state.heft weight + weight character := by
  cases state with
  | outside begun =>
    have same : (State.outside begun).heft weight = begun.heft weight := rfl
    rcases readOutside_heft weight stepped with lost | ⟨-, -, kept⟩ <;> omega
  | escaped begun =>
    have resumed := resume_heft weight begun
    have same : (State.escaped begun).heft weight = begun.heft weight := rfl
    simp only [step] at stepped
    split at stepped
    · cases stepped
      simp [State.heft]
    · cases stepped
      simp only [word_heft, piecesHeft_append, piecesHeft_cons, piecesHeft_nil]
      omega
  | single pieces =>
    simp only [step] at stepped
    split at stepped <;> obtain ⟨rfl, rfl⟩ := Prod.mk.inj (Except.ok.inj stepped) <;>
      simp [State.heft, Outside.heft]
  | double pieces =>
    simp only [step] at stepped
    split at stepped
    · cases stepped
      simp [State.heft, Outside.heft]
    split at stepped
    · rename_i escape
      cases stepped
      simp [State.heft, escape]
    split at stepped
    · cases stepped
    · cases stepped
      simp [State.heft]
  | escapedDouble pieces =>
    simp only [step] at stepped
    split at stepped
    · cases stepped
      simp only [State.heft, tokensHeft_nil]
      omega
    split at stepped
    · cases stepped
      simp [State.heft]
    · cases stepped
      simp [State.heft]
      omega
  | comment =>
    simp only [step] at stepped
    split at stepped <;> obtain ⟨rfl, rfl⟩ := Prod.mk.inj (Except.ok.inj stepped) <;>
      simp [State.heft, Outside.heft]

/-- The words of a text hold at most its characters. -/
theorem run_heft (state : State) (text : List Char) (tokens : List Token)
    (read : run state text = .ok tokens) :
    tokensHeft weight tokens ≤ state.heft weight + heft weight text := by
  induction text generalizing state tokens with
  | nil =>
    rw [run_nil] at read
    cases state with
    | outside begun =>
      have := close_heft weight begun tokens read
      simp [State.heft, this]
    | comment =>
      cases read
      simp
    | _ => cases read
  | cons character rest ih =>
    obtain ⟨early, after, more, stepped, later, rfl⟩ := run_ok read
    have first := step_heft weight state after character rest.head? early stepped
    have := ih after more later
    simp only [tokensHeft_append, heft_cons]
    omega

/-! ## Texts that cannot be read as they stand -/

/-- A text is bare, or it is read up to a character with a meaning of its own. -/
theorem bare_or_special (text rest : List Char) (pieces : List Piece) :
    bare text = true ∨ ∃ before character after, text = before ++ character :: after ∧
      run (.outside (.word pieces)) (text ++ rest) =
        run (.outside (.word (pieces ++ unquoted before))) (character :: (after ++ rest)) ∧
      (isPlain character = false ∨ expands character (after ++ rest).head? = true) := by
  induction text generalizing pieces with
  | nil => exact .inl rfl
  | cons character others ih =>
    by_cases special : isPlain character = false ∨ expands character (others ++ rest).head? = true
    · exact .inr ⟨[], character, others, rfl, by simp [unquoted], special⟩
    simp only [not_or, Bool.not_eq_false, Bool.not_eq_true] at special
    obtain ⟨plain, still⟩ := special
    have onward := run_silent _ _ (step_plain pieces plain still)
    rcases ih (pieces ++ [(character, false)]) with clear |
      ⟨before, found, after, rfl, reached, meaning⟩
    · have alone : expands character others.head? = false := by
        cases others with
        | nil =>
          simp only [expands, Bool.or_eq_false_iff] at still ⊢
          exact ⟨still.1, by simp [opensExpansion]⟩
        | cons _ _ => exact still
      exact .inl (by simp [bare, plain, alone, clear])
    · refine .inr ⟨character :: before, found, after, rfl, ?_, meaning⟩
      rw [cons_append, onward, reached]
      simp [unquoted]

/-- A character with a meaning of its own is no character of a word. -/
theorem special_lost {begun : Outside} (next : Option Char)
    (special : isPlain character = false ∨ character = '#' ∧ begun.inWord = false) {after : State}
    (stepped : step (.outside begun) character next = .ok (tokens, after)) :
    tokensHeft weight tokens + after.heft weight ≤ begun.heft weight := by
  rcases readOutside_heft _ stepped with lost | ⟨plain, uncommented, -⟩
  · exact lost
  · rcases special with special | comment
    · exact absurd plain (by simp [special])
    · exact absurd comment uncommented

/-- An expansion is refused wherever it begins outside quotes. -/
theorem run_expands (opening : expands character rest.head? = true) :
    run (.outside begun) (character :: rest) = .error .expansion := by
  have unquoting : character ≠ '\\' ∧ character ≠ '\'' ∧ character ≠ '"' := by
    refine ⟨?_, ?_, ?_⟩ <;> rintro rfl <;> cases opening
  have stepped : step (.outside begun) character rest.head? = .error .expansion := by
    simp [step, readOutside, unquoting, opening]
  simp [run_cons, stepped]

/-- What a word holds when the characters after a special one are read with it. -/
theorem run_special (special : isPlain character = false ∨ expands character rest.head? = true)
    (read : run (.outside (.word pieces)) (character :: rest) = .ok tokens) :
    tokensHeft weight tokens ≤ piecesHeft weight pieces + heft weight rest := by
  rcases special with special | opening
  · obtain ⟨early, after, more, stepped, later, rfl⟩ := run_ok read
    have lost : tokensHeft weight early + after.heft weight ≤ piecesHeft weight pieces :=
      special_lost _ rest.head? (.inl special) stepped
    have := run_heft weight after rest more later
    simp only [tokensHeft_append]
    omega
  · rw [run_expands _ opening] at read
    cases read

theorem heft_one : heft (fun _ => 1) text = text.length := by
  induction text with
  | nil => rfl
  | cons character others ih =>
    simp only [heft_cons, ih, length_cons]
    omega

theorem piecesHeft_unquoted (text : List Char) :
    piecesHeft weight (unquoted text) = heft weight text := by
  simp [piecesHeft]

/-- A text that ends in the word begun before it, none of its characters lost, is bare. -/
theorem bare_of_kept (text : List Char) (read : run (.outside (.word pieces)) text = .ok tokens)
    (kept : piecesHeft (fun _ => 1) pieces + text.length ≤ tokensHeft (fun _ => 1) tokens) :
    bare text = true := by
  rcases bare_or_special text [] _ with
    clear | ⟨before, character, after, rfl, reached, special⟩
  · exact clear
  simp only [append_nil] at reached special
  rw [reached] at read
  have := run_special (fun _ => 1) special read
  simp only [piecesHeft_append, piecesHeft_unquoted, heft_one] at this
  simp only [length_append, length_cons] at kept
  omega

/-- Between double quotes a character closes them, begins an escape, or is kept. -/
theorem run_double_ok (read : run (.double pieces) (character :: rest) = .ok tokens) :
    (character = '"' ∧ run (.outside (.word pieces)) rest = .ok tokens) ∨
      (character = '\\' ∧ run (.escapedDouble pieces) rest = .ok tokens) ∨
      ((character ≠ '"' ∧ character ≠ '\\' ∧ expands character rest.head? = false) ∧
        run (.double (pieces ++ [(character, true)])) rest = .ok tokens) := by
  obtain ⟨early, after, more, stepped, later, rfl⟩ := run_ok read
  simp only [step] at stepped
  split at stepped
  · cases stepped
    exact .inl ⟨‹_›, later⟩
  split at stepped
  · cases stepped
    exact .inr (.inl ⟨‹_›, later⟩)
  split at stepped
  · cases stepped
  · rename_i closing escape opening
    cases stepped
    exact .inr (.inr ⟨⟨closing, escape, by simpa using opening⟩, later⟩)

/-- After a backslash there a line end is dropped, and the backslash with what it escapes. -/
theorem run_escaped_ok (read : run (.escapedDouble pieces) (character :: rest) = .ok tokens) :
    (character = '\n' ∧ run (.double pieces) rest = .ok tokens) ∨
      (escapable character = true ∧ run (.double (pieces ++ [(character, true)])) rest = .ok tokens) ∨
      (escapable character = false ∧
        run (.double (pieces ++ [('\\', true), (character, true)])) rest = .ok tokens) := by
  obtain ⟨early, after, more, stepped, later, rfl⟩ := run_ok read
  simp only [step] at stepped
  split at stepped
  · cases stepped
    exact .inl ⟨‹_›, later⟩
  split at stepped
  · cases stepped
    exact .inr (.inl ⟨‹_›, later⟩)
  · rename_i kept
    cases stepped
    exact .inr (.inr ⟨by simpa using kept, later⟩)

/-- A quotation that is closed loses its closing mark. -/
theorem double_closes (pieces : List Piece) (tokens : List Token) :
    (run (.double pieces) text = .ok tokens →
      tokensHeft (fun _ => 1) tokens + 1 ≤ piecesHeft (fun _ => 1) pieces + text.length) ∧
    (run (.escapedDouble pieces) text = .ok tokens →
      tokensHeft (fun _ => 1) tokens ≤ piecesHeft (fun _ => 1) pieces + text.length) := by
  induction text generalizing pieces with
  | nil => constructor <;> exact fun read => absurd read (by simp [finish])
  | cons character rest ih =>
    have onward (more : List Piece) (later : run (.double (pieces ++ more)) rest = .ok tokens) :
        tokensHeft (fun _ => 1) tokens + 1 ≤
          piecesHeft (fun _ => 1) pieces + piecesHeft (fun _ => 1) more + rest.length := by
      rw [← piecesHeft_append]
      exact (ih _).1 later
    simp only [length_cons]
    constructor
    · intro read
      rcases run_double_ok read with ⟨-, later⟩ | ⟨-, later⟩ | ⟨-, later⟩
      · have := run_heft (fun _ => 1) _ _ _ later
        simp only [word_heft, heft_one] at this
        omega
      · have := (ih pieces).2 later
        omega
      · have := onward _ later
        simp only [piecesHeft_cons, piecesHeft_nil] at this
        omega
    · intro read
      rcases run_escaped_ok read with ⟨-, later⟩ | ⟨-, later⟩ | ⟨-, later⟩
      · have := (ih pieces).1 later
        omega
      all_goals
        have := onward _ later
        simp only [piecesHeft_cons, piecesHeft_nil] at this
        omega

/-- A text before a closing double quote, none of its characters lost, is quotable. -/
theorem quotable_of_kept (pieces : List Piece) (tokens : List Token) :
    (run (.double pieces) (text ++ ['"']) = .ok tokens →
      piecesHeft (fun _ => 1) pieces + text.length ≤ tokensHeft (fun _ => 1) tokens →
      quotable text = true) ∧
    (run (.escapedDouble pieces) (text ++ ['"']) = .ok tokens →
      piecesHeft (fun _ => 1) pieces + 1 + text.length ≤ tokensHeft (fun _ => 1) tokens →
      text.head?.any (fun next => !escapable next) = true ∧ quotable text = true) := by
  induction text generalizing pieces with
  | nil =>
    constructor
    · exact fun _ _ => rfl
    · intro read
      rw [nil_append, run_silent _ (.double (pieces ++ [('"', true)]))
        (by simp [step, escapable]), run_nil] at read
      cases read
  | cons character rest ih =>
    constructor
    · intro read kept
      simp only [length_cons] at kept
      rcases run_double_ok read with ⟨-, later⟩ | ⟨rfl, later⟩ | ⟨⟨closing, escape, still⟩, later⟩
      · have clear := bare_of_kept _ later (by simp; omega)
        have closed : bare (rest ++ ['"']) = false := by
          clear read later kept ih clear
          induction rest with
          | nil => decide
          | cons _ _ ih => simp [bare, ih]
        exact absurd clear (by simp [closed])
      · obtain ⟨next, quotes⟩ := (ih pieces).2 later (by omega)
        simp [quotable, expands, quotes, next]
      · have alone : expands character rest.head? = false := by
          cases rest with
          | nil =>
            simp only [expands, Bool.or_eq_false_iff] at still ⊢
            exact ⟨still.1, by simp [opensExpansion]⟩
          | cons _ _ => exact still
        have quotes := (ih _).1 later (by
          simp only [piecesHeft_append, piecesHeft_cons, piecesHeft_nil]
          omega)
        simp [quotable, closing, escape, alone, quotes]
    · intro read kept
      simp only [length_cons] at kept
      rcases run_escaped_ok read with ⟨-, later⟩ | ⟨-, later⟩ | ⟨special, later⟩
      · have := (double_closes (rest ++ ['"']) pieces tokens).1 later
        simp only [length_append, length_singleton] at this
        omega
      · have := (double_closes (rest ++ ['"']) _ tokens).1 later
        simp only [piecesHeft_append, piecesHeft_cons, piecesHeft_nil, length_append,
          length_singleton] at this
        omega
      · have quotes := (ih _).1 later (by
          simp only [piecesHeft_append, piecesHeft_cons, piecesHeft_nil]
          omega)
        have plain : character ≠ '"' ∧ character ≠ '\\' ∧ character ≠ '\x60' ∧ character ≠ '$' := by
          refine ⟨?_, ?_, ?_, ?_⟩ <;> rintro rfl <;> cases special
        have still : expands character rest.head? = false := by
          simp [expands, plain.2.2.1, plain.2.2.2]
        refine ⟨by simpa using special, ?_⟩
        simp [quotable, plain.1, plain.2.1, still, quotes]

/-! ## Which texts are read as they stand -/

theorem tilde_unquoted : tilde (unquoted text) = (text.head? == some '~') := by
  have whole : ∀ pieces : List Piece, (∀ piece ∈ pieces, piece.2 = false) →
      (pieces.takeWhile (fun piece => piece != ('/', false))).all (fun piece => !piece.2) = true := by
    intro pieces unmarked
    rw [all_eq_true]
    intro piece member
    simp [unmarked piece (takeWhile_subset _ member)]
  rw [tilde, whole _ (by simp [unquoted]), Bool.and_true]
  cases text with
  | nil => simp [unquoted]
  | cons character others => simp [unquoted, Bool.beq_eq_decide_eq]

variable (before after : List Piece) (mark : Bool)

/-- A slash ends a bracket expression that is not closed before it. -/
theorem closesBracket_slash :
    closesBracket (before ++ ('/', mark) :: after) = closesBracket before := by
  induction before with
  | nil => simp [closesBracket]
  | cons piece others ih => simp [closesBracket, ih]

theorem bracketExpression_slash :
    bracketExpression (before ++ ('/', mark) :: after) = bracketExpression before := by
  cases before with
  | nil => simp [bracketExpression]
  | cons first others =>
    simp only [cons_append, bracketExpression]
    by_cases negated : first = ('!', false)
    · simp only [negated, if_true]
      cases others with
      | nil => simp
      | cons second rest => simp [closesBracket_slash]
    · simp only [negated, if_false]
      rw [closesBracket_slash]

/-- The parts of a path are patterns on their own. -/
theorem pattern_slash :
    pattern (before ++ ('/', mark) :: after) = (pattern before || pattern after) := by
  induction before with
  | nil => simp [pattern]
  | cons piece others ih =>
    simp only [cons_append, pattern, bracketExpression_slash, ih, Bool.or_assoc]

/-- A text is read as the one word it is exactly if it is such a word. -/
theorem lex_word_iff : run (.outside .between) text = .ok [.word text] ↔ isWord text = true := by
  constructor
  · intro read
    cases text with
    | nil => cases read
    | cons character rest =>
      have full : tokensHeft (fun _ => 1) [.word (character :: rest)] = 1 + rest.length := by
        simp [Token.heft, heft_one]
      -- the first character is one of the word's own
      have plain : isPlain character = true ∧ character ≠ '#' := by
        by_contra special
        have special : isPlain character = false ∨ character = '#' ∧ Outside.between.inWord = false := by
          by_cases plain : isPlain character = true
          · exact .inr ⟨by_contra fun named => special ⟨plain, named⟩, rfl⟩
          · exact .inl (by simpa using plain)
        obtain ⟨early, after, more, stepped, later, both⟩ := run_ok read
        have lost : tokensHeft (fun _ => 1) early + after.heft (fun _ => 1) ≤ 0 :=
          special_lost (fun _ => 1) rest.head? special stepped
        rw [both, tokensHeft_append] at full
        have := run_heft (fun _ => 1) _ _ _ later
        rw [heft_one] at this
        omega
      have still : expands character rest.head? = false := by
        by_contra opening
        rw [run_expands _ (by simpa using opening)] at read
        cases read
      have begun := read
      rw [run_silent _ _ (step_first plain.1 still plain.2)] at begun
      have clear := bare_of_kept _ begun (by simp [Token.heft, heft_one])
      have whole : bare (character :: rest) = true := by simp [bare, plain.1, still, clear]
      have reached := run_begin _ [] (by simp) (by simpa using plain.2) whole
        rfl
      rw [append_nil] at reached
      rw [reached, run_nil] at read
      have inert : tilde (unquoted (character :: rest)) = false ∧
          pattern (unquoted (character :: rest)) = false := by
        by_contra expanding
        have expanding : (tilde (unquoted (character :: rest)) ||
            pattern (unquoted (character :: rest))) = true := by
          simpa only [not_and_or, Bool.not_eq_false, Bool.or_eq_true] using expanding
        simp [finish, Outside.close, finishWord, expanding, Except.map] at read
      simp [isWord, plain.2, whole, inert.1, inert.2]
  · intro standing
    simp only [isWord, Bool.and_eq_true, bne_iff_ne, ne_eq, Bool.not_eq_true'] at standing
    obtain ⟨⟨⟨⟨some_, uncommented⟩, clear⟩, whole⟩, matchless⟩ := standing
    have reached := run_begin _ [] some_ uncommented clear rfl
    rw [append_nil] at reached
    rw [reached, run_nil, finish, Outside.close, finish_inert whole matchless]
    simp [Except.map]

/-- A text between double quotes is read as the one word it is exactly if it is quotable. -/
theorem run_double_iff :
    run (.outside .between) ('"' :: text ++ ['"']) = .ok [.word text] ↔ quotable text = true := by
  have opened : run (.outside .between) ('"' :: text ++ ['"']) = run (.double []) (text ++ ['"']) :=
    run_silent _ _ (by simp [step, readOutside, Outside.resume])
  rw [opened]
  constructor
  · intro read
    exact (quotable_of_kept ..).1 read (by simp [Token.heft, heft_one])
  · intro clear
    obtain ⟨whole, matchless⟩ := quoted_inert _
    rw [run_double _ [] [] clear, run_nil, finish, nil_append, Outside.close,
      finish_inert whole matchless]
    simp [Except.map]

/-- A character that delimits words completes the word before it. -/
theorem run_delimits (character : Char)
    (delimits : operators.contains [character] = true ∨ isBlank character = true)
    (read : run (.outside (.word pieces)) (character :: rest) = .ok tokens) :
    ∃ more, tokens = .word (pieces.map Prod.fst) :: more := by
  have unquoting : character ≠ '\\' ∧ character ≠ '\'' ∧ character ≠ '"' := by
    refine ⟨?_, ?_, ?_⟩ <;> rintro rfl <;> revert delimits <;> decide
  have still : expands character rest.head? = false := by
    have : character ≠ '\x60' ∧ character ≠ '$' := by
      refine ⟨?_, ?_⟩ <;> rintro rfl <;> revert delimits <;> decide
    simp [expands, this]
  have stepped : ∃ after, step (.outside (.word pieces)) character rest.head? =
      ((finishWord pieces).map ([·])).map fun tokens => (tokens, after) := by
    by_cases control : operators.contains [character] = true
    · refine ⟨.outside (.operator [character]), ?_⟩
      simp only [step, readOutside, unquoting, if_false, still, Outside.longer, control,
        if_true, Outside.close, Bool.false_eq_true]
    · have spaced : isBlank character = true := delimits.resolve_left control
      refine ⟨.outside .between, ?_⟩
      simp only [step, readOutside, unquoting, if_false, still, Outside.longer, control,
        spaced, if_true, Outside.close, Bool.false_eq_true]
  obtain ⟨after, stepped⟩ := stepped
  obtain ⟨early, _, more, same, -, rfl⟩ := run_ok read
  rw [stepped] at same
  cases finished : finishWord pieces with
  | error refusal => simp [finished, Except.map] at same
  | ok token =>
    simp only [finished, Except.map, Except.ok.injEq, Prod.mk.injEq] at same
    rw [finishWord] at finished
    split at finished
    · cases finished
    · cases finished
      exact ⟨more, by rw [← same.1]; rfl⟩

end ForgePilot.ShellLexing
