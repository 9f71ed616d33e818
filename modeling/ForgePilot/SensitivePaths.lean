import ForgePilot.ApprovalPolicy
import ForgePilot.PosixPath
import Mathlib.Data.List.Forall2

/-!
# Sensitive paths

A path is compared with a pattern component by component. Two stars stand for any components, and every
other component of a pattern for one that the wildcard match accepts.
-/

namespace ForgePilot.SensitivePaths

open Characters Approval List PosixPath

/-! ## Paths and patterns -/

/-- The components of a path, the root among them. -/
def parts (path : PosixPath) : List String := if path.root = "" then path.parts else path.root :: path.parts

def patternParts (pattern : String) : List String :=
  (parts (PosixPath.ofText (replace pattern "\\" "/"))).filter (· ≠ ".")

variable (fnmatch : String → String → Bool)

/-- Components against the components of a pattern. -/
def partsMatch : List String → List String → Bool
  | parts, [] => parts.isEmpty
  | parts, head :: rest =>
      if head = "**" then (List.range (parts.length + 1)).any fun taken => partsMatch (parts.drop taken) rest
      else match parts with
        | [] => false
        | part :: others => fnmatch part head && partsMatch others rest

def pathMatches (path : PosixPath) (pattern : String) : Bool :=
  partsMatch fnmatch (parts path) (patternParts pattern)

structure FilePolicy extends ApprovalPolicy where
  sensitiveFilePatterns : List String

def defaultFilePolicy : FilePolicy where
  toApprovalPolicy := defaultApprovalPolicy
  sensitiveFilePatterns := ["**/.env", "**/.env.*", "**/*secret*", "**/*credential*", "**/secrets/**", "**/.ssh/**",
    "**/id_rsa", "**/id_ed25519"]

def evaluateFileChange (policy : FilePolicy) (requestId path : String) : Option ApprovalRequest :=
  let normalized := replace path "\\" "/"
  if policy.sensitiveFilePatterns.any (pathMatches fnmatch (PosixPath.ofText normalized)) then
    some {
      requestId
      subjectType := "file_change"
      subject := normalized
      reasons := [.sensitiveFileChange]
      detail := "sensitive file pattern matched: " ++ normalized }
  else none

/-! ## Blocks of components -/

def Takes (component : String) (block : List String) : Prop :=
  component = "**" ∨ ∃ part, block = [part] ∧ fnmatch part component = true

/-- The components fall into one block for each component of the pattern. -/
def Splits (parts pattern : List String) : Prop :=
  ∃ blocks, blocks.flatten = parts ∧ List.Forall₂ (Takes fnmatch) pattern blocks

theorem splits_cons (head : String) (rest parts : List String) :
    Splits fnmatch parts (head :: rest) ↔
      ∃ block behind, block ++ behind = parts ∧ Takes fnmatch head block ∧ Splits fnmatch behind rest := by
  constructor
  · rintro ⟨blocks, rfl, taken⟩
    cases taken with
    | cons takes others => exact ⟨_, _, rfl, takes, _, rfl, others⟩
  · rintro ⟨block, _, rfl, takes, blocks, rfl, others⟩
    exact ⟨block :: blocks, rfl, .cons takes others⟩

theorem parts_match_iff (parts pattern : List String) :
    partsMatch fnmatch parts pattern = true ↔ Splits fnmatch parts pattern := by
  induction pattern generalizing parts with
  | nil =>
    rw [partsMatch, List.isEmpty_iff]
    constructor
    · rintro rfl
      exact ⟨[], rfl, .nil⟩
    · rintro ⟨_, rfl, ⟨⟩⟩
      rfl
  | cons head rest ih =>
    rw [partsMatch.eq_def, splits_cons]
    dsimp only
    by_cases stars : head = "**"
    · rw [if_pos stars, any_eq_true]
      constructor
      · rintro ⟨taken, -, matched⟩
        exact ⟨parts.take taken, parts.drop taken, take_append_drop .., .inl stars, (ih _).mp matched⟩
      · rintro ⟨block, behind, rfl, -, matched⟩
        refine ⟨block.length, mem_range.mpr (by rw [length_append]; omega), ?_⟩
        rw [drop_left]
        exact (ih behind).mpr matched
    · rw [if_neg stars]
      cases parts with
      | nil =>
        refine iff_of_false Bool.false_ne_true ?_
        rintro ⟨block, behind, empty, taken | ⟨part, rfl, -⟩, -⟩
        · exact stars taken
        · cases empty
      | cons part others =>
        rw [Bool.and_eq_true, ih]
        constructor
        · rintro ⟨accepted, matched⟩
          exact ⟨[part], others, rfl, .inr ⟨part, rfl, accepted⟩, matched⟩
        · rintro ⟨block, behind, whole, taken | ⟨_, rfl, accepted⟩, matched⟩
          · exact absurd taken stars
          · cases whole
            exact ⟨accepted, matched⟩

/-! ## Directories in front -/

/-- Behind two stars nothing is lost when components are put in front. -/
theorem splits_behind (front parts rest : List String) (matched : Splits fnmatch parts ("**" :: rest)) :
    Splits fnmatch (front ++ parts) ("**" :: rest) := by
  obtain ⟨block, behind, rfl, -, others⟩ := (splits_cons ..).mp matched
  exact (splits_cons ..).mpr ⟨front ++ block, behind, append_assoc .., .inl rfl, others⟩

/-- The root of a path counts for nothing when the component behind the two stars does not accept it. -/
theorem splits_unrooted {root component : String} {parts rest : List String} (single : component ≠ "**")
    (refused : fnmatch root component = false)
    (matched : Splits fnmatch (root :: parts) ("**" :: component :: rest)) :
    Splits fnmatch parts ("**" :: component :: rest) := by
  obtain ⟨block, behind, whole, -, others⟩ := (splits_cons ..).mp matched
  cases block with
  | nil =>
    obtain rfl := whole
    obtain ⟨taken, later, same, stars | ⟨part, rfl, accepted⟩, -⟩ := (splits_cons ..).mp others
    · exact absurd stars single
    · cases same
      rw [refused] at accepted
      cases accepted
  | cons first block =>
    cases whole
    exact (splits_cons ..).mpr ⟨block, behind, rfl, .inl rfl, others⟩

/-- The path of a text is its components, and perhaps a root in front. -/
theorem parts_of_text (text : String) : parts (PosixPath.ofText text) = PosixPath.components text.toList ∨
    ∃ root, (root = "/" ∨ root = "//") ∧
      parts (PosixPath.ofText text) = root :: PosixPath.components text.toList := by
  rw [parts, ofText, rootOf]
  split
  · exact .inl (if_pos rfl)
  · exact .inr ⟨"//", .inr rfl, if_neg (by simp)⟩
  · exact .inr ⟨"/", .inl rfl, if_neg (by simp)⟩

theorem parts_joined (directory path : String) (separator : Char) (separates : separator = '/' ∨ separator = '\\') :
    ∃ front, parts (PosixPath.ofText (replace (directory ++ separator.toString ++ path) "\\" "/")) =
      front ++ PosixPath.components (replace path "\\" "/").toList := by
  have whole : (replace (directory ++ separator.toString ++ path) "\\" "/").toList =
      (replace directory "\\" "/").toList ++ '/' :: (replace path "\\" "/").toList := by
    have slash : (if separator = '\\' then '/' else separator) = '/' := by
      rcases separates with rfl | rfl <;> rfl
    have replaced := fun text => replace_character text '\\' '/'
    simp only [show String.singleton '\\' = "\\" from rfl, show String.singleton '/' = "/" from rfl] at replaced
    simp [replaced, slash, Char.toString]
  rcases parts_of_text .. with same | ⟨root, -, same⟩
  · exact ⟨_, by rw [same, whole, components_slash]⟩
  · exact ⟨root :: _, by rw [same, whole, components_slash, cons_append]⟩

/-! ## The default patterns -/

/-- A letter of a pattern without brackets is a letter of every name that it accepts. -/
def Literal : Prop := ∀ name pattern : String, '[' ∉ pattern.toList → fnmatch name pattern = true →
  ∀ character ∈ pattern.toList, character ≠ '*' → character ≠ '?' → character ∈ name.toList

/-- Every default pattern begins with two stars and goes on with a component that has a letter. -/
theorem default_pattern (pattern : String) (listed : pattern ∈ defaultFilePolicy.sensitiveFilePatterns) :
    ∃ component rest, patternParts pattern = "**" :: component :: rest ∧ component ≠ "**" ∧
      '[' ∉ component.toList ∧ ∃ letter ∈ component.toList, letter.isAlpha = true := by
  have checked : ∀ pattern ∈ defaultFilePolicy.sensitiveFilePatterns,
      (patternParts pattern).head? = some "**" ∧ ∃ component ∈ (patternParts pattern)[1]?,
        component ≠ "**" ∧ '[' ∉ component.toList ∧ component.toList.any Char.isAlpha = true := by
    decide +kernel
  obtain ⟨stars, component, second, single, closed, letter⟩ := checked pattern listed
  obtain ⟨rest, begins⟩ := List.head?_eq_some_iff.mp stars
  rw [begins, List.getElem?_cons_succ, Option.mem_def, ← List.head?_eq_getElem?] at second
  obtain ⟨more, rfl⟩ := List.head?_eq_some_iff.mp second
  exact ⟨component, more, begins, single, closed, List.any_eq_true.mp letter⟩

theorem root_refused (literal : Literal fnmatch) (root : String) (isRoot : root = "/" ∨ root = "//")
    (component : String) (closed : '[' ∉ component.toList)
    (lettered : ∃ letter ∈ component.toList, letter.isAlpha = true) : fnmatch root component = false := by
  obtain ⟨letter, member, alpha⟩ := lettered
  rw [← Bool.not_eq_true]
  intro accepted
  have apart : letter ≠ '*' ∧ letter ≠ '?' ∧ letter ≠ '/' := by
    refine ⟨?_, ?_, ?_⟩ <;> rintro rfl <;> revert alpha <;> decide
  have found := literal root component closed accepted letter member apart.1 apart.2.1
  rcases isRoot with rfl | rfl <;> simp [apart.2.2] at found

theorem flagged_iff (requestId path : String) :
    (evaluateFileChange fnmatch defaultFilePolicy requestId path).isSome = true ↔
      ∃ pattern ∈ defaultFilePolicy.sensitiveFilePatterns,
        Splits fnmatch (parts (PosixPath.ofText (replace path "\\" "/"))) (patternParts pattern) := by
  simp [evaluateFileChange, pathMatches, parts_match_iff]

/-- Components are compared as the pattern says, and a directory in front hides no sensitive path. -/
theorem sensitive_paths_exact (literal : Literal fnmatch) :
    (∀ parts pattern, partsMatch fnmatch parts pattern = true ↔ Splits fnmatch parts pattern) ∧
      ∀ requestId path directory separator, (separator = '/' ∨ separator = '\\') →
        (evaluateFileChange fnmatch defaultFilePolicy requestId path).isSome = true →
          (evaluateFileChange fnmatch defaultFilePolicy requestId
            (directory ++ separator.toString ++ path)).isSome = true := by
  refine ⟨parts_match_iff _, fun requestId path directory separator separates flagged => ?_⟩
  obtain ⟨pattern, listed, splits⟩ := (flagged_iff ..).mp flagged
  refine (flagged_iff ..).mpr ⟨pattern, listed, ?_⟩
  obtain ⟨component, rest, begins, single, closed, lettered⟩ := default_pattern _ listed
  obtain ⟨front, joined⟩ := parts_joined _ _ _ separates
  rw [begins] at splits ⊢
  rw [joined]
  apply splits_behind
  rcases parts_of_text .. with same | ⟨root, isRoot, same⟩
  · rw [same] at splits
    exact splits
  · rw [same] at splits
    exact splits_unrooted _ single
      (root_refused _ literal _ isRoot _ closed lettered) splits

/-- A sensitive file at the top is flagged, and so it is in a directory. -/
theorem env_flagged : Literal (fun name pattern => name == pattern) ∧
    (evaluateFileChange (fun name pattern => name == pattern) defaultFilePolicy "r" ".env").isSome = true ∧
      (evaluateFileChange (fun name pattern => name == pattern) defaultFilePolicy "r"
        ("deploy" ++ '\\'.toString ++ ".env")).isSome = true := by
  have literal : Literal fun name pattern => name == pattern := by
    rintro name pattern - same character member - -
    rw [beq_iff_eq.mp same]
    exact member
  have flagged : (evaluateFileChange (fun name pattern => name == pattern) defaultFilePolicy "r" ".env").isSome =
      true := by decide +kernel
  exact ⟨literal, flagged, (sensitive_paths_exact _ literal).2 "r" ".env" "deploy" '\\' (.inr rfl) flagged⟩

end ForgePilot.SensitivePaths
