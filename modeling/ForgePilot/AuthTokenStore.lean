import ForgePilot.Processes

/-!
# The refresh tokens of one user and provider

A load reads the row without a lock, and where the access token has expired it locks the
row, reads it again, checks it again, and hands the refresh token to the refresh function.
A store reads the row without a lock and writes the columns that differ from what it read.
Both write under the lock of the row, which they keep until their transaction ends; what
is written becomes visible to others when the transaction commits.

The time is given to each check from outside. The table keeps, beside its row, which
refresh tokens have been seen at all and which have been passed to the refresh function.
-/

namespace ForgePilot.AuthTokenStore

open Runs Processes

/-- The row of a user and provider. -/
structure AuthTokens where
  accessToken : String
  refreshToken : String
  accessTokenExpiresAt : Int
  refreshTokenExpiresAt : Int
deriving DecidableEq

/-- An access token counts as expired this many seconds before it expires. -/
def accessTokenExpiryBuffer : Int := 900

/-- Whether the access token and the refresh token have expired. -/
def isTokenExpired (currentTime accessTokenExpiresAt refreshTokenExpiresAt : Int) : Bool × Bool :=
  (if accessTokenExpiresAt = 0 then false
    else decide (accessTokenExpiresAt < currentTime + accessTokenExpiryBuffer),
   if refreshTokenExpiresAt = 0 then false else decide (refreshTokenExpiresAt < currentTime))

def AuthTokens.accessExpired (record : AuthTokens) (currentTime : Int) : Bool :=
  (isTokenExpired currentTime record.accessTokenExpiresAt record.refreshTokenExpiresAt).1

/-- An update of the columns in which the new tokens differ from those that were read. -/
def AuthTokens.write (current read tokens : AuthTokens) : AuthTokens where
  accessToken :=
    if tokens.accessToken = read.accessToken then current.accessToken else tokens.accessToken
  refreshToken :=
    if tokens.refreshToken = read.refreshToken then current.refreshToken else tokens.refreshToken
  accessTokenExpiresAt :=
    if tokens.accessTokenExpiresAt = read.accessTokenExpiresAt then current.accessTokenExpiresAt
    else tokens.accessTokenExpiresAt
  refreshTokenExpiresAt :=
    if tokens.refreshTokenExpiresAt = read.refreshTokenExpiresAt then current.refreshTokenExpiresAt
    else tokens.refreshTokenExpiresAt

/-- A call; a load may come without a refresh function. -/
inductive Call where
  | loadTokens (refreshes : Bool)
  | storeTokens (tokens : AuthTokens)

/-- What a call raises. -/
inductive Failure where
  | tokenRefreshError
  | refreshFunction
  | integrityError
  | staleData

/-- What a call answers. -/
inductive Answer where
  | loaded (tokens : Option AuthTokens)
  | stored
  | raised (failure : Failure)

/-- How far a call is. -/
inductive Phase where
  | idle
  /-- A load is about to read without a lock. -/
  | loading (refreshes : Bool)
  | checking (refreshes : Bool) (record : AuthTokens)
  /-- A load is about to read under the lock. -/
  | locking
  | locked (record : AuthTokens)
  /-- The refresh function was called with the refresh token of the row. -/
  | refreshing (record : AuthTokens)
  | updating (tokens : AuthTokens)
  /-- Updated and not committed. -/
  | updated (tokens : AuthTokens)
  /-- A store is about to read. -/
  | storing (tokens : AuthTokens)
  | writing (tokens : AuthTokens) (read : Option AuthTokens)
  /-- Written and not committed. -/
  | written (record : AuthTokens)
  | returning (answer : Answer)
  | answered (answer : Answer)

/-- A call is in progress from its beginning to its answer. -/
def Phase.InProgress : Phase → Prop
  | .idle => False
  | .answered _ => False
  | _ => True

/-- What a call is given from outside. -/
inductive Given where
  | call (call : Call)
  /-- Let the call take its next step, with the clock at a time. -/
  | next (now : Int)
  | refreshed (outcome : Option (Option AuthTokens))
  | lockTimeout

/-- The table, for one user and provider. -/
structure Table (ρ : Type) where
  row : Option AuthTokens
  /-- The call whose transaction holds the row. -/
  lock : Option ρ
  /-- The refresh tokens that were stored, or brought by a call. -/
  seen : List String
  /-- The refresh tokens that were passed to the refresh function. -/
  passed : List String

variable {ρ : Type} [DecidableEq ρ]

/-- No call has begun. -/
def initial (row : Option AuthTokens) : World (Table ρ) ρ Phase where
  shared := ⟨row, none, row.toList.map AuthTokens.refreshToken, []⟩
  phases := fun _ => .idle

/-- A transaction ends. -/
def Table.release (table : Table ρ) (name : ρ) : Table ρ :=
  if table.lock = some name then { table with lock := none } else table

/-- A transaction commits what it has written. -/
def Table.commit (table : Table ρ) (record : AuthTokens) : Table ρ :=
  { table with row := some record, lock := none }

/-- A refresh token is brought. -/
def Table.bring (table : Table ρ) (tokens : AuthTokens) : Table ρ :=
  { table with seen := tokens.refreshToken :: table.seen }

def begin (table : Table ρ) : Call → Table ρ × Phase
  | .loadTokens refreshes => (table, .loading refreshes)
  | .storeTokens tokens => (table.bring tokens, .storing tokens)

/-- Read without a lock. -/
def select (table : Table ρ) (refreshes : Bool) : Phase :=
  match table.row with
  | none => .returning (.loaded none)
  | some record => .checking refreshes record

/-- Read under the lock; wait while another transaction holds the row. -/
def selectForUpdate (name : ρ) (table : Table ρ) : Table ρ × Phase :=
  match table.row, table.lock with
  | none, _ => (table, .returning (.loaded none))
  | some record, none => ({ table with lock := some name }, .locked record)
  | some _, some _ => (table, .locking)

/-- Check under the lock, and call the refresh function where the access token has expired. -/
def checkAgain (table : Table ρ) (record : AuthTokens) (now : Int) : Table ρ × Phase :=
  if record.accessExpired now then
    ({ table with passed := record.refreshToken :: table.passed }, .refreshing record)
  else (table, .returning (.loaded (some record)))

/-- The refresh function answers or raises. -/
def receive (table : Table ρ) (record : AuthTokens) : Option (Option AuthTokens) → Table ρ × Phase
  | none => (table, .returning (.raised .refreshFunction))
  | some none => (table, .returning (.loaded (some record)))
  | some (some tokens) => (table.bring tokens, .updating tokens)

/-- Insert or update; wait while another transaction holds the row. -/
def flush (name : ρ) (table : Table ρ) (tokens : AuthTokens) (read : Option AuthTokens) :
    Table ρ × Phase :=
  if read = some tokens then (table, .returning .stored)
  else
    match table.lock, read, table.row with
    | some _, _, _ => (table, .writing tokens read)
    | none, none, none => ({ table with lock := some name }, .written tokens)
    | none, none, some _ => (table, .returning (.raised .integrityError))
    | none, some _, none => (table, .returning (.raised .staleData))
    | none, some record, some current =>
        ({ table with lock := some name }, .written (current.write record tokens))

/-- The next step of a call. -/
def move (name : ρ) (table : Table ρ) (phase : Phase) (given : Given) : Table ρ × Phase :=
  match phase, given with
  | .idle, .call call => begin table call
  | .loading refreshes, .next _ => (table, select table refreshes)
  | .checking refreshes record, .next now =>
      (table, if !record.accessExpired now || !refreshes then .returning (.loaded (some record))
        else .locking)
  | .locking, .next _ => selectForUpdate name table
  | .locking, .lockTimeout => (table, .returning (.raised .tokenRefreshError))
  | .locked record, .next now => checkAgain table record now
  | .refreshing record, .refreshed outcome => receive table record outcome
  | .updating tokens, .next _ => (table, .updated tokens)
  | .updated tokens, .next _ => (table.commit tokens, .returning (.loaded (some tokens)))
  | .storing tokens, .next _ => (table, .writing tokens table.row)
  | .writing tokens read, .next _ => flush name table tokens read
  | .written record, .next _ => (table.commit record, .returning .stored)
  | .returning answer, .next _ => (table.release name, .answered answer)
  | _, _ => (table, phase)

/-- The step does not fail. -/
def Unfailing (table : Table ρ) : Phase → Given → Prop
  | .locking, .lockTimeout => False
  | .refreshing _, .refreshed none => False
  | .writing _ none, .next _ => table.lock = none → table.row = none
  | _, _ => True

/-- A refresh token that the step brings was never seen before. -/
def Fresh (table : Table ρ) : Phase → Given → Prop
  | .idle, .call (.storeTokens tokens) => tokens.refreshToken ∉ table.seen
  | .refreshing _, .refreshed (some none) => False
  | .refreshing _, .refreshed (some (some tokens)) => tokens.refreshToken ∉ table.seen
  | _, _ => True

def Assumed (_name : ρ) (table : Table ρ) (phase : Phase) (given : Given) : Prop :=
  Unfailing table phase given ∧ Fresh table phase given

instance (table : Table ρ) (phase : Phase) (given : Given) :
    Decidable (Unfailing table phase given) := by
  unfold Unfailing
  split <;> infer_instance

instance (table : Table ρ) (phase : Phase) (given : Given) :
    Decidable (Fresh table phase given) := by
  unfold Fresh
  split <;> infer_instance

instance (world : World (Table ρ) ρ Phase) (label : ρ × Given) :
    Decidable (Assuming Assumed world label) := instDecidableAnd

/-! ## What is kept -/

/-- The refresh token of the row was not passed on. -/
def Clean (table : Table ρ) : Prop :=
  ∀ record, table.row = some record → record.refreshToken ∉ table.passed

/-- A refresh token was seen, and neither stored nor passed on. -/
structure Unused (table : Table ρ) (token : String) : Prop where
  seen : token ∈ table.seen
  notPassed : token ∉ table.passed
  notStored : ∀ record, table.row = some record → record.refreshToken ≠ token

structure Common (table : Table ρ) : Prop where
  once : table.passed.Nodup
  passedSeen : ∀ token ∈ table.passed, token ∈ table.seen
  rowSeen : ∀ record, table.row = some record → record.refreshToken ∈ table.seen
  clean : table.lock = none → Clean table

/-- The refresh token that a call is about to store. -/
def Phase.brought : Phase → Option String
  | .updating tokens => some tokens.refreshToken
  | .updated tokens => some tokens.refreshToken
  | .storing tokens => some tokens.refreshToken
  | .writing tokens _ => some tokens.refreshToken
  | .written record => some record.refreshToken
  | _ => none

def Relied (name : ρ) (table : Table ρ) : Phase → Prop
  | .locked record => table.lock = some name ∧ table.row = some record ∧ Clean table
  | .refreshing record => table.lock = some name ∧ table.row = some record
  | .updating tokens => table.lock = some name ∧ Unused table tokens.refreshToken
  | .updated tokens => table.lock = some name ∧ Unused table tokens.refreshToken
  | .storing tokens => table.lock ≠ some name ∧ Unused table tokens.refreshToken
  | .writing tokens read => table.lock ≠ some name ∧ Unused table tokens.refreshToken ∧
      ∀ record, read = some record →
        record.refreshToken ≠ tokens.refreshToken ∧ table.row.isSome
  | .written record => table.lock = some name ∧ Unused table record.refreshToken ∧ Clean table
  | .returning _ => table.lock = some name → Clean table
  | _ => table.lock ≠ some name

/-- Two calls do not store the same refresh token. -/
def Apart (first second : Phase) : Prop :=
  ∀ token, first.brought = some token → second.brought ≠ some token

/-- What a step of a call does to the table. -/
structure Effect (name : ρ) (brought : Option String) (table next : Table ρ) : Prop where
  seen : ∀ token ∈ table.seen, token ∈ next.seen
  locks : ∀ other, other ≠ name → (next.lock = some other ↔ table.lock = some other)
  keeps : ∀ other, other ≠ name → table.lock = some other → next = { table with seen := next.seen }
  passed : ∀ token ∈ next.passed, token ∈ table.passed ∨
    ∃ record, table.row = some record ∧ record.refreshToken = token
  row : next.row = table.row ∨
    ∃ record, next.row = some record ∧ brought = some record.refreshToken

variable (name : ρ) (brought : Option String) (table : Table ρ)

omit [DecidableEq ρ] in
/-- A step may leave the table alone. -/
theorem effect_refl : Effect name brought table table :=
  ⟨fun _ member => member, fun _ _ => Iff.rfl, fun _ _ _ => rfl, fun _ member => .inl member,
    .inl rfl⟩

omit [DecidableEq ρ] in
theorem effect_bring (tokens : AuthTokens) : Effect name brought table (table.bring tokens) :=
  ⟨fun _ member => .tail _ member, fun _ _ => Iff.rfl, fun _ _ _ => rfl,
    fun _ member => .inl member, .inl rfl⟩

theorem effect_release : Effect name brought table (table.release name) := by
  rw [Table.release]
  split
  case isTrue held =>
    refine ⟨fun _ member => member, ?_, ?_, fun _ member => .inl member, .inl rfl⟩
    · intro other different
      simp [held, different.symm]
    · intro other different otherHeld
      rw [held] at otherHeld
      exact absurd (Option.some.inj otherHeld).symm different
  case isFalse => exact effect_refl ..

omit [DecidableEq ρ] in
theorem effect_lock (free : table.lock = none) :
    Effect name brought table { table with lock := some name } := by
  refine ⟨fun _ member => member, ?_, ?_, fun _ member => .inl member, .inl rfl⟩
  · intro other different
    simp [free, different.symm]
  · intro other different otherHeld
    rw [free] at otherHeld
    cases otherHeld

variable (record : AuthTokens)

omit [DecidableEq ρ] in
theorem effect_commit {name : ρ} {table : Table ρ} (held : table.lock = some name) :
    Effect name (some record.refreshToken) table (table.commit record) := by
  refine ⟨fun _ member => member, ?_, ?_, fun _ member => .inl member, .inr ⟨record, rfl, rfl⟩⟩
  · intro other different
    simp [Table.commit, held, different.symm]
  · intro other different otherHeld
    rw [held] at otherHeld
    exact absurd (Option.some.inj otherHeld).symm different

omit [DecidableEq ρ] in
/-- Passing on the refresh token of the row under the lock. -/
theorem effect_pass (held : table.lock = some name) (stored : table.row = some record) :
    Effect name brought table { table with passed := record.refreshToken :: table.passed } := by
  refine ⟨fun _ member => member, fun _ _ => Iff.rfl, ?_, ?_, .inl rfl⟩
  · intro other different otherHeld
    rw [held] at otherHeld
    exact absurd (Option.some.inj otherHeld).symm different
  · intro token member
    rcases member with _ | ⟨_, earlier⟩
    · exact .inr ⟨record, stored, rfl⟩
    · exact .inl earlier

/-- Where a step of one call leads, and what it does to the table. -/
theorem move_effect (phase : Phase) (given : Given) (relied : Relied name table phase) :
    Effect name phase.brought table (move name table phase given).1 := by
  unfold move
  split
  case h_1 call =>
    cases call with
    | loadTokens refreshes => exact effect_refl ..
    | storeTokens tokens => exact effect_bring ..
  case h_2 => exact effect_refl ..
  case h_3 => exact effect_refl ..
  case h_4 =>
    unfold selectForUpdate
    split
    · exact effect_refl ..
    · exact effect_lock _ _ _ ‹_›
    · exact effect_refl ..
  case h_5 => exact effect_refl ..
  case h_6 record now =>
    unfold checkAgain
    split
    · exact effect_pass _ _ _ _ relied.1 relied.2.1
    · exact effect_refl ..
  case h_7 record outcome =>
    unfold receive
    split
    · exact effect_refl ..
    · exact effect_refl ..
    · exact effect_bring ..
  case h_8 => exact effect_refl ..
  case h_9 tokens _ => exact effect_commit _ relied.1
  case h_10 => exact effect_refl ..
  case h_11 tokens read _ =>
    unfold flush
    split
    · exact effect_refl ..
    split
    · exact effect_refl ..
    · exact effect_lock _ _ _ ‹_›
    · exact effect_refl ..
    · exact effect_refl ..
    · exact effect_lock _ _ _ ‹_›
  case h_12 record _ => exact effect_commit _ relied.1
  case h_13 => exact effect_release ..
  case h_14 => exact effect_refl ..

omit [DecidableEq ρ] in
/-- What another call does leaves a refresh token unused that it does not store. -/
theorem unused_kept {name : ρ} {brought : Option String} {table next : Table ρ} {token : String}
    (effect : Effect name brought table next) (unused : Unused table token)
    (other : brought ≠ some token) : Unused next token := by
  refine ⟨effect.seen token unused.seen, ?_, ?_⟩
  · intro passed
    rcases effect.passed token passed with earlier | ⟨record, stored, same⟩
    · exact unused.notPassed earlier
    · exact unused.notStored record stored same
  · intro record stored same
    rcases effect.row with kept | ⟨written, now, was⟩
    · exact unused.notStored record (kept ▸ stored) same
    · rw [now] at stored
      cases stored
      exact other (was.trans (congrArg some same))

omit [DecidableEq ρ] in
theorem row_kept {name : ρ} {brought : Option String} {table next : Table ρ}
    (effect : Effect name brought table next) (stored : table.row.isSome) : next.row.isSome := by
  rcases effect.row with kept | ⟨written, now, -⟩
  · rwa [kept]
  · rw [now]
    rfl

omit [DecidableEq ρ] in
/-- While another call holds the row its refresh token stays as it is. -/
theorem clean_kept {name other : ρ} {brought : Option String} {table next : Table ρ}
    (effect : Effect name brought table next) (different : other ≠ name)
    (held : table.lock = some other) (clean : Clean table) : Clean next := by
  rw [effect.keeps other different held]
  exact clean

variable {phase : Phase}

omit [DecidableEq ρ] in
/-- What one call does to the table does not disturb another. -/
theorem relied_kept {name other : ρ} {brought : Option String} {table next : Table ρ}
    (effect : Effect name brought table next) (different : other ≠ name)
    (apart : ∀ token, brought = some token → phase.brought ≠ some token)
    (relied : Relied other table phase) : Relied other next phase := by
  have stillHeld : table.lock = some other → next.lock = some other :=
    (effect.locks other different).mpr
  have stillFree : table.lock ≠ some other → next.lock ≠ some other :=
    fun free held => free ((effect.locks other different).mp held)
  have stillUnused : ∀ token, phase.brought = some token → Unused table token →
      Unused next token := fun token brings unused =>
    unused_kept effect unused fun same => apart token same brings
  have stillClean : table.lock = some other → Clean table → Clean next :=
    clean_kept effect different
  cases phase with
  | idle => exact stillFree relied
  | loading refreshes => exact stillFree relied
  | checking refreshes record => exact stillFree relied
  | locking => exact stillFree relied
  | locked record =>
    obtain ⟨held, stored, clean⟩ := relied
    refine ⟨stillHeld held, ?_, stillClean held clean⟩
    rw [effect.keeps other different held]
    exact stored
  | refreshing record =>
    obtain ⟨held, stored⟩ := relied
    refine ⟨stillHeld held, ?_⟩
    rw [effect.keeps other different held]
    exact stored
  | updating tokens => exact ⟨stillHeld relied.1, stillUnused _ rfl relied.2⟩
  | updated tokens => exact ⟨stillHeld relied.1, stillUnused _ rfl relied.2⟩
  | storing tokens => exact ⟨stillFree relied.1, stillUnused _ rfl relied.2⟩
  | writing tokens read =>
    obtain ⟨free, unused, known⟩ := relied
    refine ⟨stillFree free, stillUnused _ rfl unused, fun record was => ?_⟩
    obtain ⟨fresh, stored⟩ := known record was
    exact ⟨fresh, row_kept effect stored⟩
  | written record =>
    obtain ⟨held, unused, clean⟩ := relied
    exact ⟨stillHeld held, stillUnused _ rfl unused, stillClean held clean⟩
  | returning answer =>
    intro heldNext
    have held : table.lock = some other := (effect.locks other different).mp heldNext
    exact stillClean held (relied held)
  | answered answer => exact stillFree relied

variable {tokens : AuthTokens}

omit [DecidableEq ρ] in
/-- A fresh refresh token is unused once it was brought. -/
theorem bring_unused {table : Table ρ} (common : Common table)
    (fresh : tokens.refreshToken ∉ table.seen) :
    Unused (table.bring tokens) tokens.refreshToken := by
  refine ⟨.head _, fun passed => fresh (common.passedSeen _ passed), ?_⟩
  intro record stored same
  exact fresh (same ▸ common.rowSeen record stored)

omit [DecidableEq ρ] in
/-- Bringing a refresh token keeps what holds of the table. -/
theorem bring_common (tokens : AuthTokens) (common : Common table) :
    Common (table.bring tokens) where
  once := common.once
  passedSeen token passed := .tail _ (common.passedSeen token passed)
  rowSeen record stored := .tail _ (common.rowSeen record stored)
  clean := common.clean

omit [DecidableEq ρ] in
/-- Committing an unused refresh token leaves it in a clean row. -/
theorem commit_common {table : Table ρ} {record : AuthTokens} (common : Common table)
    (unused : Unused table record.refreshToken) :
    Common (table.commit record) ∧ Clean (table.commit record) := by
  have clean : Clean (table.commit record) := by
    rintro stored ⟨⟩
    exact unused.notPassed
  refine ⟨⟨common.once, common.passedSeen, ?_, fun _ => clean⟩, clean⟩
  rintro stored ⟨⟩
  exact unused.seen

omit [DecidableEq ρ] in
/-- The update of a store writes its refresh token when it differs from the one that was read. -/
theorem write_refresh (current read tokens : AuthTokens)
    (different : read.refreshToken ≠ tokens.refreshToken) :
    (current.write read tokens).refreshToken = tokens.refreshToken :=
  if_neg different.symm

omit [DecidableEq ρ] in
/-- A call that reads under the lock holds a clean row. -/
theorem select_for_update_own (common : Common table) (free : table.lock ≠ some name) :
    Common (selectForUpdate name table).1 ∧
      Relied name (selectForUpdate name table).1 (selectForUpdate name table).2 := by
  unfold selectForUpdate
  split
  case h_1 => exact ⟨common, fun held => absurd held free⟩
  case h_2 record stored unheld =>
    refine ⟨⟨common.once, common.passedSeen, common.rowSeen, fun held => ?_⟩, rfl, stored,
      common.clean unheld⟩
    cases held
  case h_3 => exact ⟨common, free⟩

omit [DecidableEq ρ] in
/-- A call that checks under the lock passes on a refresh token that was not passed on. -/
theorem check_again_own (now : Int) (common : Common table) (held : table.lock = some name)
    (stored : table.row = some record) (clean : Clean table) :
    Common (checkAgain table record now).1 ∧
      Relied name (checkAgain table record now).1 (checkAgain table record now).2 := by
  unfold checkAgain
  split
  case isTrue =>
    refine ⟨⟨List.nodup_cons.mpr ⟨clean record stored, common.once⟩, ?_, common.rowSeen, ?_⟩,
      held, stored⟩
    · intro token member
      rcases member with _ | ⟨_, earlier⟩
      · exact common.rowSeen record stored
      · exact common.passedSeen token earlier
    · intro unheld
      rw [held] at unheld
      cases unheld
  case isFalse => exact ⟨common, fun _ => clean⟩

omit [DecidableEq ρ] in
/-- A store that writes keeps what it relies on. -/
theorem flush_own {name : ρ} {table : Table ρ} {read : Option AuthTokens} (common : Common table)
    (free : table.lock ≠ some name) (unused : Unused table tokens.refreshToken)
    (known : ∀ record, read = some record →
      record.refreshToken ≠ tokens.refreshToken ∧ table.row.isSome) :
    Common (flush name table tokens read).1 ∧
      Relied name (flush name table tokens read).1 (flush name table tokens read).2 := by
  have locked : Common { table with lock := some name } :=
    ⟨common.once, common.passedSeen, common.rowSeen, fun held => by cases held⟩
  unfold flush
  split
  · exact ⟨common, fun held => absurd held free⟩
  split
  case h_1 => exact ⟨common, free, unused, known⟩
  case h_2 unheld _ _ =>
    exact ⟨locked, rfl, ⟨unused.seen, unused.notPassed, unused.notStored⟩, common.clean unheld⟩
  case h_3 => exact ⟨common, fun held => absurd held free⟩
  case h_4 => exact ⟨common, fun held => absurd held free⟩
  case h_5 record current unheld _ _ =>
    refine ⟨locked, rfl, ?_, common.clean unheld⟩
    rw [write_refresh _ _ _ (known record rfl).1]
    exact ⟨unused.seen, unused.notPassed, unused.notStored⟩

variable {given : Given}

/-- A step of a call keeps what holds of the table and what the call relies on. -/
theorem move_own {name : ρ} {table : Table ρ} (common : Common table)
    (relied : Relied name table phase) (assumed : Assumed name table phase given) :
    Common (move name table phase given).1 ∧
      Relied name (move name table phase given).1 (move name table phase given).2 := by
  unfold move
  split
  case h_1 call =>
    cases call with
    | loadTokens refreshes => exact ⟨common, relied⟩
    | storeTokens tokens => exact ⟨bring_common _ _ common, relied, bring_unused common assumed.2⟩
  case h_2 refreshes now =>
    refine ⟨common, ?_⟩
    dsimp [select]
    split
    · exact fun held => absurd held relied
    · exact relied
  case h_3 refreshes record now =>
    refine ⟨common, ?_⟩
    split
    · exact fun held => absurd held relied
    · exact relied
  case h_4 => exact select_for_update_own _ _ common relied
  case h_5 => exact absurd assumed.1 id
  case h_6 record now => exact check_again_own _ _ _ now common relied.1 relied.2.1 relied.2.2
  case h_7 record outcome =>
    match outcome, assumed with
    | none, assumed => exact absurd assumed.1 id
    | some none, assumed => exact absurd assumed.2 id
    | some (some tokens), assumed =>
      exact ⟨bring_common _ _ common, relied.1, bring_unused common assumed.2⟩
  case h_8 => exact ⟨common, relied⟩
  case h_9 tokens now =>
    obtain ⟨kept, clean⟩ := commit_common common relied.2
    exact ⟨kept, fun _ => clean⟩
  case h_10 tokens now =>
    obtain ⟨free, unused⟩ := relied
    refine ⟨common, free, unused, fun record stored => ⟨unused.notStored record stored, ?_⟩⟩
    rw [stored]
    rfl
  case h_11 tokens read now => exact flush_own common relied.1 relied.2.1 relied.2.2
  case h_12 record now =>
    obtain ⟨kept, clean⟩ := commit_common common relied.2.1
    exact ⟨kept, fun _ => clean⟩
  case h_13 answer now =>
    dsimp [Table.release]
    split
    case isTrue held =>
      exact ⟨⟨common.once, common.passedSeen, common.rowSeen, fun _ => relied held⟩,
        fun held => by cases held⟩
    case isFalse free => exact ⟨common, free⟩
  case h_14 => exact ⟨common, relied⟩

/-- A step of a call brings a refresh token that it brought before, or a fresh one. -/
theorem move_brings {name : ρ} {table : Table ρ} (relied : Relied name table phase)
    (assumed : Assumed name table phase given) {token : String}
    (brings : (move name table phase given).2.brought = some token) :
    phase.brought = some token ∨ token ∉ table.seen := by
  unfold move at brings
  split at brings
  case h_1 call =>
    cases call with
    | loadTokens refreshes => cases brings
    | storeTokens tokens =>
      cases brings
      exact .inr assumed.2
  case h_2 =>
    dsimp only [select] at brings
    split at brings <;> cases brings
  case h_3 => split at brings <;> cases brings
  case h_4 =>
    unfold selectForUpdate at brings
    split at brings <;> cases brings
  case h_5 => cases brings
  case h_6 =>
    unfold checkAgain at brings
    split at brings <;> cases brings
  case h_7 record outcome =>
    match outcome, assumed with
    | none, _ => cases brings
    | some none, _ => cases brings
    | some (some tokens), assumed =>
      cases brings
      exact .inr assumed.2
  case h_8 => exact .inl brings
  case h_9 => cases brings
  case h_10 => exact .inl brings
  case h_11 tokens read now =>
    unfold flush at brings
    split at brings
    · cases brings
    split at brings
    · exact .inl brings
    · exact .inl brings
    · cases brings
    · cases brings
    case h_5 record current unheld _ _ =>
      refine .inl (Eq.trans ?_ brings)
      exact congrArg some (write_refresh _ _ _ (relied.2.2 record rfl).1).symm
  case h_12 => cases brings
  case h_13 => cases brings
  case h_14 => exact .inl brings

omit [DecidableEq ρ] in
/-- What a call is about to store was seen. -/
theorem brought_seen {name : ρ} {table : Table ρ} (relied : Relied name table phase)
    {token : String} (brings : phase.brought = some token) : token ∈ table.seen := by
  cases phase with
  | updating tokens =>
    cases brings
    exact relied.2.seen
  | updated tokens =>
    cases brings
    exact relied.2.seen
  | storing tokens =>
    cases brings
    exact relied.2.seen
  | writing tokens read =>
    cases brings
    exact relied.2.1.seen
  | written record =>
    cases brings
    exact relied.2.1.seen
  | _ => cases brings

/-- A step of one call keeps another one apart from it. -/
theorem move_others {name other : ρ} {table : Table ρ} {phase otherPhase : Phase}
    (different : other ≠ name) (relied : Relied name table phase)
    (otherRelied : Relied other table otherPhase) (apart : Apart phase otherPhase)
    (assumed : Assumed name table phase given) :
    Relied other (move name table phase given).1 otherPhase ∧
      Apart (move name table phase given).2 otherPhase := by
  refine ⟨relied_kept
    (move_effect _ _ _ _ relied) different apart otherRelied, ?_⟩
  intro token brings otherBrings
  rcases move_brings relied assumed brings with same | fresh
  · exact apart token same otherBrings
  · exact fresh (brought_seen otherRelied otherBrings)

/-- A step of a call keeps the invariant. -/
theorem advance_keeps {world : World (Table ρ) ρ Phase} {label : ρ × Given}
    (sound : Sound Common Relied Apart world) (assumed : Assuming Assumed world label) :
    Sound Common Relied Apart (advance move world label) := by
  refine advance_sound _ _ ?_ ?_ ?_ sound assumed
  · intro first second apart token brings same
    exact apart token same brings
  · exact fun name table phase given common relied met => move_own common relied met
  · exact fun name other table phase otherPhase given different _ relied otherRelied apart met =>
      move_others different relied otherRelied apart met

omit [DecidableEq ρ] in
/-- The invariant holds before any call. -/
theorem initial_sound (row : Option AuthTokens) :
    Sound Common Relied Apart (initial row : World (Table ρ) ρ Phase) := by
  refine ⟨⟨List.nodup_nil, ?_, ?_, ?_⟩, ?_, ?_⟩
  · rintro token ⟨⟩
  · rintro record stored
    have stored' : row = some record := stored
    simp [initial, stored']
  · rintro - record - ⟨⟩
  · rintro name ⟨⟩
  · rintro first second - token ⟨⟩

/-- The tokens that a load has read or been given, and answers with. -/
def Shows : Phase → AuthTokens → Prop
  | .checking _ record, tokens => record = tokens
  | .locked record, tokens => record = tokens
  | .refreshing record, tokens => record = tokens
  | .returning (.loaded (some record)), tokens => record = tokens
  | .answered (.loaded (some record)), tokens => record = tokens
  | _, _ => False

/-- The tokens are stored while the call is in progress. -/
def StoredDuring (table : Table ρ) (phase : Phase) (tokens : AuthTokens) : Prop :=
  phase.InProgress ∧ table.row = some tokens

/-- The tokens that a load shows after a step it showed before, or they are stored before or after
the step. -/
theorem move_shows (showing : Shows (move name table phase given).2 tokens) :
    Shows phase tokens ∨ StoredDuring table phase tokens ∨
      StoredDuring (move name table phase given).1 (move name table phase given).2 tokens := by
  unfold move at showing ⊢
  split at showing
  case h_1 call => cases call <;> cases showing
  case h_2 refreshes now =>
    dsimp only [select] at showing
    split at showing
    · cases showing
    case h_2 record stored =>
      cases showing
      exact .inr (.inl ⟨trivial, stored⟩)
  case h_3 refreshes record now =>
    split at showing
    · exact .inl showing
    · cases showing
  case h_4 now =>
    unfold selectForUpdate at showing
    split at showing
    · cases showing
    case h_2 record stored unheld =>
      cases showing
      exact .inr (.inl ⟨trivial, stored⟩)
    · cases showing
  case h_5 => cases showing
  case h_6 record now =>
    unfold checkAgain at showing
    split at showing <;> exact .inl showing
  case h_7 record outcome =>
    match outcome with
    | none => cases showing
    | some none => exact .inl showing
    | some (some brought) => cases showing
  case h_8 => cases showing
  case h_9 updated now =>
    cases showing
    exact .inr (.inr ⟨trivial, rfl⟩)
  case h_10 => cases showing
  case h_11 tokens read now =>
    unfold flush at showing
    split at showing
    · cases showing
    · split at showing <;> cases showing
  case h_12 => cases showing
  case h_13 answer now =>
    match answer with
    | .loaded (some record) => exact .inl showing
    | .loaded none => cases showing
    | .stored => cases showing
    | .raised failure => cases showing
  case h_14 => exact .inl showing

/-- Each refresh token is passed to the refresh function at most once, what a load answers was
stored while it was in progress, and when no call is in progress the stored refresh token was
not passed on. -/
theorem refresh_token_once (row : Option AuthTokens) (labels : List (ρ × Given))
    (assumed : Along (advance move) (Assuming Assumed) (initial row) labels) :
    (run (advance move) (initial row) labels).shared.passed.Nodup ∧
    (∀ name tokens,
      (run (advance move) (initial row) labels).phases name = .answered (.loaded (some tokens)) →
      ∃ world, Reached (advance move) (initial row) labels world ∧
        (world.phases name).InProgress ∧ world.shared.row = some tokens) ∧
    ((∀ name, ¬ ((run (advance move) (initial row) labels).phases name).InProgress) →
      ∀ record, (run (advance move) (initial row) labels).shared.row = some record →
        record.refreshToken ∉ (run (advance move) (initial row) labels).shared.passed) := by
  have sound : Sound Common Relied Apart (run (advance move) (initial row) labels) :=
    invariant_along _ _ _
      (fun world label holds met => advance_keeps holds met) _ _
      (initial_sound row) assumed _ ⟨labels, [], by simp, rfl⟩
  refine ⟨sound.common.once, ?_, ?_⟩
  · intro name tokens answered
    refine shown_witnessed move name (Shows · tokens) (StoredDuring · · tokens)
      (fun _ _ => True) ?_ (initial row) labels (fun _ _ => trivial) ?_ (by rw [answered]; rfl)
    · exact fun table phase given _ showing => move_shows _ _ showing
    · rintro ⟨⟩
  · intro ended
    have unheld : (run (advance move) (initial row) labels).shared.lock = none := by
      cases held : (run (advance move) (initial row) labels).shared.lock with
      | none => rfl
      | some name =>
        have relied := sound.relied name
        have finished := ended name
        cases phase : (run (advance move) (initial row) labels).phases name with
        | idle => rw [phase] at relied; exact absurd held relied
        | answered answer => rw [phase] at relied; exact absurd held relied
        | _ => rw [phase] at finished; exact absurd trivial finished
    exact sound.common.clean unheld

/-- Two loads and a store: the second load waits for the refresh of the first one, and the store
overwrites what it brought. -/
theorem refresh_token_once_handover : let row := some ⟨"a0", "r0", 1000, 0⟩
    let labels := [(0, .call (.loadTokens true)), (0, .next 1000), (0, .next 1000),
      (1, .call (.loadTokens true)), (1, .next 1000), (1, .next 1000),
      (2, .call (.storeTokens ⟨"a2", "r2", 9000, 0⟩)), (2, .next 1000),
      (0, .next 1000), (0, .next 1000), (1, .next 1000), (2, .next 1000),
      (0, .refreshed (some (some ⟨"a1", "r1", 9000, 0⟩))), (0, .next 1000), (0, .next 1000),
      (1, .next 1000), (1, .next 1000), (1, .next 1000), (0, .next 1000),
      (2, .next 1000), (2, .next 1000), (2, .next 1000)]
    let final : World (Table Nat) Nat Phase := run (advance move) (initial row) labels
    final.shared.passed = ["r0"] ∧ final.shared.passed.Nodup ∧
      final.phases 1 = .answered (.loaded (some ⟨"a1", "r1", 9000, 0⟩)) ∧
      final.shared.row = some ⟨"a2", "r2", 9000, 0⟩ := by
  intro row labels final
  have assumed : Along (advance move) (Assuming Assumed) (initial row : World (Table Nat) Nat Phase)
      labels := by
    decide +kernel
  exact ⟨by decide, (refresh_token_once row _ assumed).1, by rfl, by decide⟩

end ForgePilot.AuthTokenStore
