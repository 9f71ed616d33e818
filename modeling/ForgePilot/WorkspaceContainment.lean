import ForgePilot.FileStores
import ForgePilot.ToolRegistry

/-!
# Paths inside a workspace

The guard joins a path to its workspace, follows the components of both, and looks whether this leads back into the
workspace. A path with a NUL is refused by the file system, and the guard then answers nothing. A shell tool hands
its directory to the guard in this way, and to the operating system as it is.
-/

namespace ForgePilot.ToolRegistries

open Characters FileStores Fnmatch List PosixPath

/-- Where the components of a path lead to. -/
def normal (path : PosixPath) : PosixPath := ⟨"/", walk [] path.parts⟩

/-- No component has a NUL. -/
def Clean (path : PosixPath) : Prop := ∀ part ∈ path.parts, '\x00' ∉ part.toList

/-- There are no symbolic links: absolute paths resolve to where their components lead, but for those with a NUL. -/
structure Lexical (host : Host) : Prop where
  resolves : ∀ path : PosixPath, path.isAbsolute = true → Clean path → host.resolve path = .ok (normal path)
  raises : ∀ path : PosixPath, path.isAbsolute = true → ¬ Clean path → ∃ error, host.resolve path = .error error

/-- A workspace root as the guard keeps it. -/
def Workspace (root : PosixPath) : Prop := ∃ given : PosixPath, given.isAbsolute = true ∧ Clean given ∧ root = normal given

/-- A path for the guard, with backslashes read as slashes. -/
def posix (rawPath : String) : PosixPath := .ofText (replace rawPath "\\" "/")

/-- Where a path leads to from the workspace. -/
def named (root : PosixPath) (rawPath : String) : PosixPath := normal (root.join (posix rawPath))

/-- What the guard makes of a path in its workspace. -/
structure Contained (host : Host) (guard : ToolAccessGuard) (root : PosixPath) (rawPath : String) : Prop where
  success : (∃ resolved, resolveTargetPath host guard rawPath = .ok (.ok resolved)) ↔
    root.parts <+: (named root rawPath).parts
  relative : ∀ resolved, resolveTargetPath host guard rawPath = .ok (.ok resolved) →
    ∃ rest, resolved = (PosixPath.mk "" rest).text ∧ ".." ∉ rest ∧ root.join ⟨"", rest⟩ = named root rawPath
  decided : ∀ registry toolId required, ∃ allowed,
    (check host registry guard toolId required (some rawPath)).1 = .ok allowed
  same : ∀ other, Clean (posix other) → named root other = named root rawPath → ∀ registry toolId required,
    (check host registry guard toolId required (some other)).1 =
      (check host registry guard toolId required (some rawPath)).1
  blocked : ∀ rest, (named root rawPath).parts = root.parts ++ rest →
    guard.pathBlocklist.any (fnmatch (PosixPath.mk "" rest).text) = true → ∀ registry toolId required,
      (check host registry guard toolId required (some rawPath)).1 ≠ .ok true

/-! ## Following components -/

theorem mem_walk (location parts : List String) (part : String) (member : part ∈ walk location parts) :
    part ∈ location ∨ (part ∈ parts ∧ part ≠ "..") := by
  induction parts generalizing location with
  | nil => exact .inl member
  | cons first rest ih =>
    rcases ih _ member with before | ⟨later, proper⟩
    · rw [follow] at before
      split at before
      case isTrue => exact .inl (dropLast_subset _ before)
      case isFalse proper =>
        rcases mem_append.mp before with early | here
        · exact .inl early
        · obtain rfl := mem_singleton.mp here
          exact .inr ⟨.head _, proper⟩
    · exact .inr ⟨.tail _ later, proper⟩

theorem normal_rooted (path : PosixPath) : (⟨"/", (normal path).parts⟩ : PosixPath) = normal path := rfl

theorem normal_proper (path : PosixPath) : ".." ∉ (normal path).parts := by
  intro member
  change ".." ∈ walk [] path.parts at member
  exact ((mem_walk [] _ _ member).resolve_left not_mem_nil).2 rfl

variable (host : Host) (guard : ToolAccessGuard) (root : PosixPath) (rawPath : String)

/-- Whether the rules let a call through to its path. -/
def Passes (registry : ToolRegistry) (toolId : String) (required : ToolPermission) : Prop :=
  ∃ entry, registry.entries.get toolId = some entry ∧ entry.enabled = true ∧
    meetsPermission entry.permission required = true

/-- The answer of the guard is that about the tool, and then that about the path. -/
theorem check_answer (registry : ToolRegistry) (toolId : String) (required : ToolPermission) :
    (Passes registry toolId required → (check host registry guard toolId required (some rawPath)).1 =
      (targetRefusal host guard (some rawPath)).map Option.isNone) ∧
    (¬ Passes registry toolId required → (check host registry guard toolId required (some rawPath)).1 = .ok false) := by
  rw [check, refusal]
  constructor
  · rintro ⟨entry, found, enabled, meets⟩
    simp only [found, enabled, meets, Bool.true_eq_false, if_false]
    rcases targetRefusal host guard (some rawPath) with error | _ | detail <;> rfl
  · intro refused
    cases found : registry.entries.get toolId with
    | none => rfl
    | some entry =>
      by_cases enabled : entry.enabled = false
      · simp [enabled]
      have unmet : meetsPermission entry.permission required = false := by
        rw [← Bool.not_eq_true]
        exact fun meets => refused ⟨entry, found, by simpa using enabled, meets⟩
      simp [enabled, unmet]

/-- The answer about where a path leads. -/
def allowed (path : PosixPath) : Bool :=
  match path.relativeTo root with
  | none => false
  | some parts => (pathRefusal guard (PosixPath.mk "" parts).text).isNone

variable (lexical : Lexical host) (workspace : Workspace root) (given : guard.workspaceRoot = some root)

include workspace in
theorem joined_path : (root.join (posix rawPath)).isAbsolute = true ∧
    (Clean (root.join (posix rawPath)) ↔ Clean (posix rawPath)) := by
  obtain ⟨text, -, clean, rfl⟩ := workspace
  rw [join]
  split
  case isTrue absolute => exact ⟨absolute, Iff.rfl⟩
  case isFalse =>
    refine ⟨by simp [isAbsolute, normal], ?_⟩
    simp only [Clean, forall_mem_append]
    exact and_iff_right fun part member => clean part ((mem_walk [] _ _ member).resolve_left nofun).1

section Resolved

include lexical workspace given

/-- A path resolves to where it leads from the workspace, unless it has a NUL. -/
theorem resolve_named : (Clean (posix rawPath) → resolveTargetPath host guard rawPath =
      match (named root rawPath).relativeTo root with
      | none => .ok (.error ("path " ++ host.repr rawPath ++ " escapes workspace (resolved to " ++
          (named root rawPath).text ++ ")"))
      | some parts => .ok (.ok (PosixPath.mk "" parts).text)) ∧
    (¬ Clean (posix rawPath) → ∃ error, resolveTargetPath host guard rawPath = .error error) := by
  obtain ⟨absolute, whole⟩ := joined_path _ _ workspace
  constructor
  · intro clean
    have resolved := lexical.resolves _ absolute (whole.mpr clean)
    rw [posix] at resolved
    simp only [resolveTargetPath, given, resolved]
    rfl
  · intro unclean
    obtain ⟨⟨typeName, message⟩, raised⟩ := lexical.raises _ absolute (mt whole.mp unclean)
    rw [posix] at raised
    exact ⟨.propagated typeName message, by simp [resolveTargetPath, given, raised]⟩

theorem target_allowed (clean : Clean (posix rawPath)) :
    (targetRefusal host guard (some rawPath)).map Option.isNone = .ok (allowed guard root (named root rawPath)) := by
  rw [targetRefusal, (resolve_named _ _ _ _ lexical workspace given).1 clean, allowed]
  cases (named root rawPath).relativeTo root <;> rfl

end Resolved

/-! ## A path with a NUL -/

instance (path : PosixPath) : Decidable (Clean path) := inferInstanceAs (Decidable (∀ part ∈ path.parts, _))

/-- A host without symbolic links. -/
def lexicalHost : Host :=
  { plainHost with
    resolve := fun path => if Clean path then .ok (normal path) else .error ("ValueError", "embedded null byte")
    currentDirectory := "/p" }

theorem lexical_host : Lexical lexicalHost where
  resolves _ _ clean := if_pos clean
  raises _ _ unclean := ⟨_, if_neg unclean⟩

def workspaceRoot : PosixPath := normal (.ofText "/w")

theorem workspace_root : Workspace workspaceRoot := ⟨.ofText "/w", by decide, by decide, rfl⟩

def workspaceGuard : ToolAccessGuard := { registry := 0, workspaceRoot := some workspaceRoot }

/-- Where a directory leads to from that of the process. -/
def landed (host : Host) (directory : String) : PosixPath :=
  normal ((PosixPath.ofText host.currentDirectory).join (.ofText directory))

/-- The subprocess could be run. -/
def SubprocessOutcome.Ran : SubprocessOutcome → Prop
  | .failed _ _ => False
  | _ => True

/-- A subprocess runs in the workspace, and in the directory that the guard accepted, where there was one. -/
def RunsInside (host : Host) (root : PosixPath) (request : ShellRequest) (start : Start) : Prop :=
  ∀ command directory, start.started = .subprocess command directory →
    root.parts <+: (landed host directory).parts ∧
      ∀ cwd, shellTarget request = some cwd → landed host directory = named root cwd

/-- The directory of a call leads to the same place from the process as from the workspace, and into the workspace
where the call gives none. -/
def Agrees (host : Host) (root : PosixPath) (request : ShellRequest) : Prop :=
  match shellTarget request with
  | some cwd => landed host (PosixPath.ofText cwd).text = named root cwd
  | none => root.parts <+: (landed host (request.workspaceRoot.getD host.currentDirectory)).parts

include lexical workspace given in
/-- An accepted path lies in the workspace. -/
theorem accepted_inside (accepted : targetRefusal host guard (some rawPath) = .ok none) :
    root.parts <+: (named root rawPath).parts := by
  by_cases clean : Clean (posix rawPath)
  · have answer := target_allowed _ _ _ _ lexical workspace given clean
    rw [accepted] at answer
    have inside : allowed guard root (named root rawPath) = true := (Except.ok.inj answer).symm
    rw [allowed, relativeTo] at inside
    by_cases front : root.parts <+: (named root rawPath).parts
    · exact front
    · rw [if_neg fun both => front (List.isPrefixOf_iff_prefix.mp both.2)] at inside
      cases inside
  · obtain ⟨error, raised⟩ := (resolve_named _ _ _ _ lexical workspace given).2 clean
    rw [targetRefusal, raised] at accepted
    cases accepted

/-- An admitted target is accepted. -/
theorem admitted_target {host : Host} {registry : ToolRegistry} {guard : ToolAccessGuard} {toolId : String}
    {required : ToolPermission} {targetPath : Option String}
    (admitted : refusal host registry guard toolId required targetPath = .ok none) :
    targetRefusal host guard targetPath = .ok none := by
  rw [refusal] at admitted
  split at admitted
  case h_1 => cases admitted
  case h_2 =>
    split at admitted
    case isTrue => cases admitted
    case isFalse =>
      split at admitted
      case isTrue => cases admitted
      case isFalse =>
        rcases answer : targetRefusal host guard targetPath with error | _ | detail
        all_goals simp_all [Except.map]

/-- Shell tools run inside the workspace exactly when those that are admitted agree on their directory. -/
theorem guarded_shell_inside_iff (host : Host) (registry : ToolRegistry) (guard : ToolAccessGuard)
    (guarded : ToolRegistry) (request : ShellRequest) (root : PosixPath) (lexical : Lexical host)
    (workspace : Workspace root) (given : guard.workspaceRoot = some root) :
    (request.outcome.Ran → ∀ start ∈ (executeGuardedShellTool host registry guard guarded request).1.starts,
      RunsInside host root request start) ↔
    (request.outcome.Ran →
      refusal host guarded guard request.spec.toolId .execute (shellTarget request) = .ok none →
      (∃ entry, registry.entries.get request.spec.toolId = some entry ∧ ¬ Unconfirmed entry request.confirmed) →
      Agrees host root request) := by
  refine imp_congr_right fun _ => ?_
  simp only [guarded_shell_starts]
  have same (admitted : refusal host guarded guard request.spec.toolId .execute (shellTarget request) = .ok none) :
      RunsInside host root request (shellStart host registry request) ↔ Agrees host root request := by
    have accepted := admitted_target admitted
    have runs : RunsInside host root request (shellStart host registry request) ↔
        root.parts <+: (landed host (shellDirectory host request)).parts ∧
          ∀ cwd, shellTarget request = some cwd → landed host (shellDirectory host request) = named root cwd :=
      ⟨fun inside => inside _ _ rfl, by rintro both _ _ ⟨⟩; exact both⟩
    rw [runs, Agrees, shellDirectory]
    by_cases absent : request.spec.cwd.getD "" = ""
    · have target : shellTarget request = none := if_pos absent
      simp [target, absent]
    have some_cwd : request.spec.cwd ≠ none := fun missing => absent (by rw [missing]; rfl)
    obtain ⟨cwd, present⟩ := Option.ne_none_iff_exists'.mp some_cwd
    have target : shellTarget request = some cwd := (if_neg absent).trans present
    rw [target] at accepted ⊢
    rw [if_pos absent, present]
    have inside := accepted_inside _ _ _ cwd lexical workspace given accepted
    constructor
    · exact fun both => both.2 cwd rfl
    · intro agrees
      exact ⟨agrees ▸ inside, by rintro _ ⟨⟩; exact agrees⟩
  constructor
  · intro inside admitted confirmed
    exact (same admitted).mp (inside _ ⟨rfl, admitted, confirmed⟩)
  · rintro agrees _ ⟨rfl, admitted, confirmed⟩
    exact (same admitted).mpr (agrees admitted confirmed)

/-- A registry with one tool, and a call of it in a directory. -/
def listingTools : ToolRegistry :=
  ⟨OrderedDict.empty.set "ls" { disabledTool with permission := .execute, enabled := true }, [], .empty⟩

def listing (cwd : String) : ShellRequest where
  spec := { toolId := "ls", displayName := "ls", command := "ls", cwd := some cwd }
  parameters := []
  traceId := none
  workspaceRoot := none
  confirmed := false
  outcome := .completed 0 "" ""
  stamp := ⟨"id", 0, 0⟩

/-- With an absolute directory the tool runs in it. -/
theorem absolute_inside :
    RunsInside lexicalHost workspaceRoot (listing "/w/src") (shellStart lexicalHost listingTools (listing "/w/src")) := by
  have agrees : landed lexicalHost (PosixPath.ofText "/w/src").text = named workspaceRoot "/w/src" := by
    decide +kernel
  exact (guarded_shell_inside_iff _ listingTools workspaceGuard listingTools (listing "/w/src") workspaceRoot
    lexical_host workspace_root rfl).mpr (fun _ _ _ => agrees) trivial _ (.head _)

/-- The guard accepts a relative directory of the workspace, and the tool runs in that of the process. -/
theorem relative_outside : ¬ ∀ request : ShellRequest, request.outcome.Ran →
    ∀ start ∈ (executeGuardedShellTool lexicalHost listingTools workspaceGuard listingTools request).1.starts,
      RunsInside lexicalHost workspaceRoot request start := by
  intro claimed
  have started : shellStart lexicalHost listingTools (listing "src") ∈
      (executeGuardedShellTool lexicalHost listingTools workspaceGuard listingTools (listing "src")).1.starts :=
    .head _
  have same := (claimed (listing "src") trivial _ started _ _ rfl).2 "src" rfl
  revert same
  decide +kernel

end ForgePilot.ToolRegistries
