import ForgePilot.Processes
import Mathlib.Data.List.Nodup

/-!
# Device codes and their keys

A device asks for a device code and a user code. A user who submits the user code
authorises the device code, and a key for the device is then created in the user's name;
where that fails the device code is to be denied again. Meanwhile the device polls with
its device code, and is given the key once the code is authorised.

Each call of a store is one step, and so is what a request computes between two of them.
Time is counted in microseconds and passes between the steps. Any call of a store may raise;
what the database and the generators of codes and keys answer is given from outside.
-/

namespace ForgePilot.DeviceCodes

open Runs Processes List

/-! ## The tables -/

inductive DeviceCodeStatus where
  | pending
  | authorized
  | expired
  | denied
deriving DecidableEq

structure DeviceCode where
  deviceCode : String
  userCode : String
  status : DeviceCodeStatus
  keycloakUserId : Option String
  expiresAt : Nat
  authorizedAt : Option Nat
  lastPollTime : Option Nat
  currentInterval : Nat
deriving DecidableEq

structure ApiKey where
  key : String
  userId : String
  name : String
  expiresAt : Nat
deriving DecidableEq

/-- The tables of both stores, and the time. -/
structure Store where
  clock : Nat
  codes : List DeviceCode
  keys : List ApiKey

def second : Nat := 1000000

/-- How many seconds a device code lasts. -/
def deviceCodeExpiresIn : Nat := 600

/-- How many seconds a key lasts. -/
def keyExpirationTime : Nat := 7 * 24 * 60 * 60

def apiKeyName : String := "Device Link Access Key"

def deviceKeyName (userCode : String) : String := apiKeyName ++ " (" ++ userCode ++ ")"

namespace DeviceCode

def isExpired (entry : DeviceCode) (now : Nat) : Bool := entry.expiresAt < now

/-- The code is still to be authorised. -/
def isPending (entry : DeviceCode) (now : Nat) : Bool :=
  entry.status = .pending && !entry.isExpired now

def authorize (entry : DeviceCode) (userId : String) (now : Nat) : DeviceCode :=
  { entry with status := .authorized, keycloakUserId := some userId, authorizedAt := some now }

def deny (entry : DeviceCode) : DeviceCode := { entry with status := .denied }

/-- Whether the device polls too fast, and the interval to use. -/
def checkRateLimit (entry : DeviceCode) (now : Nat) : Bool × Nat :=
  match entry.lastPollTime with
  | none => (false, entry.currentInterval)
  | some lastPollTime =>
      if (now : Int) - lastPollTime < entry.currentInterval * second then
        (true, min (entry.currentInterval + 5) 60)
      else (false, entry.currentInterval)

def updatePollTime (entry : DeviceCode) (increaseInterval : Bool) (now : Nat) : DeviceCode :=
  { entry with
    lastPollTime := some now
    currentInterval :=
      if increaseInterval then min (entry.currentInterval + 5) 60 else entry.currentInterval }

end DeviceCode

/-! ## The stores -/

def getByDeviceCode (codes : List DeviceCode) (deviceCode : String) : Option DeviceCode :=
  codes.find? (fun entry => entry.deviceCode = deviceCode)

def getByUserCode (codes : List DeviceCode) (userCode : String) : Option DeviceCode :=
  codes.find? (fun entry => entry.userCode = userCode)

/-- Change the rows that match. -/
def modify (codes : List DeviceCode) (matching : DeviceCode → Bool)
    (change : DeviceCode → DeviceCode) : List DeviceCode :=
  codes.map (fun entry => if matching entry then change entry else entry)

/-- How often codes are drawn. -/
def maxAttempts : Nat := 10

/-- The new row for a pair of codes, unless one of them is taken. -/
def tryCodes (codes : List DeviceCode) (now : Nat) (drawn : String × String) : Option DeviceCode :=
  if codes.any (fun entry => entry.userCode = drawn.1 || entry.deviceCode = drawn.2) then none
  else some {
    deviceCode := drawn.2
    userCode := drawn.1
    status := .pending
    keycloakUserId := none
    expiresAt := now + deviceCodeExpiresIn * second
    authorizedAt := none
    lastPollTime := none
    currentInterval := 5 }

/-- Draw codes until a pair is free. -/
def createDeviceCode (codes : List DeviceCode) (now : Nat) (draws : Nat → String × String) :
    Option DeviceCode :=
  (List.range maxAttempts).findSome? (fun attempt => tryCodes codes now (draws attempt))

def authorizeDeviceCode (store : Store) (userCode userId : String) : Store × Bool :=
  match getByUserCode store.codes userCode with
  | none => (store, false)
  | some entry =>
      if entry.isPending store.clock then
        ({ store with
            codes := modify store.codes (fun other => other.userCode = userCode)
              (fun other => other.authorize userId store.clock) }, true)
      else (store, false)

def denyDeviceCode (store : Store) (userCode : String) : Store × Bool :=
  match getByUserCode store.codes userCode with
  | none => (store, false)
  | some entry =>
      if entry.isPending store.clock then
        ({ store with
            codes := modify store.codes (fun other => other.userCode = userCode)
              DeviceCode.deny }, true)
      else (store, false)

def Store.updatePollTime (store : Store) (deviceCode : String) (increaseInterval : Bool) : Store :=
  { store with
    codes := modify store.codes (fun entry => entry.deviceCode = deviceCode)
      (fun entry => entry.updatePollTime increaseInterval store.clock) }

def createApiKey (store : Store) (key userId name : String) : Store :=
  { store with
    keys := store.keys ++ [⟨key, userId, name, store.clock + keyExpirationTime * second⟩] }

def retrieveApiKeyByName (keys : List ApiKey) (userId : Option String) (name : String) :
    Option String :=
  (keys.find? (fun record => some record.userId = userId && record.name = name)).map ApiKey.key

/-! ## The requests -/

inductive Request where
  | deviceAuthorization (webUrl : String)
  | deviceToken (deviceCode : String)
  | deviceVerificationAuthenticated (userCode : String) (userId : Option String)

inductive Answer where
  | authorization (deviceCode userCode verificationUri verificationUriComplete : String)
      (expiresIn interval : Nat)
  | token (accessToken : String)
  | oauthError (statusCode : Nat) (error description : String) (interval : Option Nat)
  | message (text : String)
  | httpException (statusCode : Nat) (detail : String)

/-- How far a request is. -/
inductive Phase where
  | idle
  /-- A poll that has read its device code. -/
  | limiting (entry : DeviceCode)
  /-- A poll that is within its rate. -/
  | deciding (entry : DeviceCode)
  /-- A poll that found its device code authorised. -/
  | retrieving (entry : DeviceCode)
  /-- A verification that has read its device code. -/
  | checking (userId : String) (entry : DeviceCode)
  | approving (userId : String)
  | creatingKey (userId : String)
  /-- A verification that could not create the key. -/
  | denying
  | answered (answer : Answer)

/-- A request is in progress from its first step to its answer. -/
def Phase.InProgress : Phase → Prop
  | .idle => False
  | .answered _ => False
  | _ => True

/-- What a step is given from outside. -/
inductive Outcome where
  | done
  | drawn (draws : Nat → String × String)
  | created (key : String)
  | raised

/-- A step after some time. -/
structure Given where
  elapsed : Nat
  outcome : Outcome

/-- Time passes. -/
def Store.tick (store : Store) (elapsed : Nat) : Store :=
  { store with clock := store.clock + elapsed }

/-- Create a device code and answer with it. -/
def authorization (webUrl : String) (store : Store) (draws : Nat → String × String) :
    Store × Phase :=
  match createDeviceCode store.codes store.clock draws with
  | none => (store, .answered (.httpException 500 "Internal server error"))
  | some entry =>
      let verificationUri := webUrl ++ "/oauth/device/verify"
      ({ store with codes := store.codes ++ [entry] },
        .answered (.authorization entry.deviceCode entry.userCode verificationUri
          (verificationUri ++ "?user_code=" ++ entry.userCode) deviceCodeExpiresIn
          entry.currentInterval))

/-- Check the rate of a poll and remember it. -/
def limitRate (store : Store) (deviceCode : String) (entry : DeviceCode) : Store × Phase :=
  let limit := entry.checkRateLimit store.clock
  if limit.1 then
    (store.updatePollTime deviceCode true,
      .answered (.oauthError 400 "slow_down"
        ("Polling too frequently. Wait at least " ++ toString limit.2 ++
          " seconds between requests.") (some limit.2)))
  else (store.updatePollTime deviceCode false, .deciding entry)

/-- What a poll makes of its device code. -/
def decideToken (entry : DeviceCode) (now : Nat) : Phase :=
  if entry.isExpired now then
    .answered (.oauthError 400 "expired_token" "Device code has expired" none)
  else
    match entry.status with
    | .denied =>
        .answered (.oauthError 400 "access_denied" "User denied the authorization request" none)
    | .pending =>
        .answered (.oauthError 400 "authorization_pending"
          "User has not yet completed authorization" none)
    | .authorized => .retrieving entry
    | .expired => .answered (.oauthError 500 "server_error" "Unknown device code status" none)

/-- Look for the key of an authorised device code. -/
def retrieve (store : Store) (entry : DeviceCode) : Phase :=
  match retrieveApiKeyByName store.keys entry.keycloakUserId (deviceKeyName entry.userCode) with
  | none => .answered (.oauthError 500 "server_error" "API key not found" none)
  | some key => .answered (.token key)

/-- The user of a verification, where there is one. -/
def authenticated (userId : Option String) : Option String := userId.filter (fun id => id ≠ "")

/-- The answer to a verification without a user. -/
def unauthenticated : Phase := .answered (.httpException 401 "Authentication required")

def readUserCode (store : Store) (userCode : String) (userId : Option String) : Phase :=
  match authenticated userId with
  | none => unauthenticated
  | some userId =>
      match getByUserCode store.codes userCode with
      | none => .answered (.httpException 400 "The device code is invalid or has expired.")
      | some entry => .checking userId entry

/-- Authorise the device code of a verification. -/
def approve (store : Store) (userCode userId : String) : Store × Phase :=
  let authorised := authorizeDeviceCode store userCode userId
  (authorised.1, if authorised.2 then .creatingKey userId
    else .answered (.httpException 500 "Failed to authorize the device. Please try again."))

/-- The answer to a verification whose key could not be created. -/
def keyFailed : Phase :=
  .answered (.httpException 500 "Failed to create API key for device access.")

/-- The answer to a verification in which something else raised. -/
def unexpected : Phase :=
  .answered (.httpException 500 "An unexpected error occurred. Please try again.")

/-- The answer to a poll in which something raised. -/
def internalError : Phase :=
  .answered (.oauthError 500 "server_error" "Internal server error" none)

/-- The next step of a poll. -/
def tokenStep (deviceCode : String) (store : Store) : Phase → Outcome → Store × Phase
  | .idle, .done =>
      (store, match getByDeviceCode store.codes deviceCode with
        | none => .answered (.oauthError 400 "invalid_grant" "Invalid device code" none)
        | some entry => .limiting entry)
  | .limiting entry, .done => limitRate store deviceCode entry
  | .deciding entry, .done => (store, decideToken entry store.clock)
  | .retrieving entry, .done => (store, retrieve store entry)
  | .idle, .raised => (store, internalError)
  | .limiting _, .raised => (store, internalError)
  | .retrieving _, .raised => (store, internalError)
  | phase, _ => (store, phase)

def verificationStep (userCode : String) (userId : Option String) (store : Store) :
    Phase → Outcome → Store × Phase
  | .idle, .done => (store, readUserCode store userCode userId)
  | .checking userId entry, .done =>
      (store, if entry.isPending store.clock then .approving userId
        else .answered (.httpException 400 "This device code has already been processed."))
  | .approving userId, .done => approve store userCode userId
  | .creatingKey userId, .created key =>
      (createApiKey store key userId (deviceKeyName userCode),
        .answered (.message "Device authorized successfully!"))
  | .creatingKey _, .raised => (store, .denying)
  | .denying, .done => ((denyDeviceCode store userCode).1, keyFailed)
  | .denying, .raised => (store, keyFailed)
  | .idle, .raised =>
      (store, if (authenticated userId).isNone then unauthenticated else unexpected)
  | .approving _, .raised => (store, unexpected)
  | phase, _ => (store, phase)

/-- The next step of a request. -/
def act (store : Store) (phase : Phase) (outcome : Outcome) : Request → Store × Phase
  | .deviceAuthorization webUrl =>
      match phase, outcome with
      | .idle, .drawn draws => authorization webUrl store draws
      | .idle, .raised => (store, .answered (.httpException 500 "Internal server error"))
      | phase, _ => (store, phase)
  | .deviceToken deviceCode => tokenStep deviceCode store phase outcome
  | .deviceVerificationAuthenticated userCode userId =>
      verificationStep userCode userId store phase outcome

variable {ρ : Type} [DecidableEq ρ] (requests : ρ → Request)

/-- Time passes, and a request takes its next step. -/
def move (name : ρ) (store : Store) (phase : Phase) (given : Given) : Store × Phase :=
  act (store.tick given.elapsed) phase given.outcome (requests name)

/-- No codes, no keys and no requests. -/
def initial : World Store ρ Phase := ⟨⟨0, [], []⟩, fun _ => .idle⟩

/-! ## What is promised -/

/-- A verification for a user code is in progress. -/
def Verifying (world : World Store ρ Phase) (userCode : String) : Prop :=
  ∃ name userId, requests name = .deviceVerificationAuthenticated userCode userId ∧
    (world.phases name).InProgress

def Authorised (store : Store) (userCode userId : String) : Prop :=
  ∃ entry ∈ store.codes, entry.userCode = userCode ∧ entry.status = .authorized ∧
    entry.keycloakUserId = some userId

/-- While no verification for it is in progress, a device code is authorised just when there is a
key that is named for it and belongs to the user stored in it. -/
def Paired (world : World Store ρ Phase) : Prop :=
  ∀ entry ∈ world.shared.codes, ¬ Verifying requests world entry.userCode →
    (entry.status = .authorized ↔ ∃ record ∈ world.shared.keys,
      record.name = deviceKeyName entry.userCode ∧ entry.keycloakUserId = some record.userId)

/-- The creation of a key does not raise. -/
def KeyCreated (_name : ρ) (_store : Store) : Phase → Given → Prop
  | .creatingKey _, ⟨_, .raised⟩ => False
  | _, _ => True

instance (world : World Store ρ Phase) (label : ρ × Given) :
    Decidable (Assuming KeyCreated world label) := by
  unfold Assuming KeyCreated
  split <;> infer_instance

/-! ## What a step does to the tables -/

/-- A later state of a row. -/
structure Follows (earlier later : DeviceCode) : Prop where
  deviceCode : later.deviceCode = earlier.deviceCode
  userCode : later.userCode = earlier.userCode
  expiresAt : later.expiresAt = earlier.expiresAt
  authorized : earlier.status = .authorized →
    later.status = .authorized ∧ later.keycloakUserId = earlier.keycloakUserId

/-- Rows and keys stay, and authorised rows stay authorised. -/
structure Grows (store next : Store) : Prop where
  codes : ∀ earlier ∈ store.codes, ∃ later ∈ next.codes, Follows earlier later
  keys : ∀ record ∈ store.keys, record ∈ next.keys

/-- What holds of the tables. -/
structure Common (store : Store) : Prop where
  distinct : (store.codes.map DeviceCode.userCode).Nodup
  devices : (store.codes.map DeviceCode.deviceCode).Nodup
  user : ∀ entry ∈ store.codes, entry.status = .authorized ↔ entry.keycloakUserId.isSome
  keyed : ∀ record ∈ store.keys, ∃ userCode, record.name = deviceKeyName userCode ∧
    Authorised store userCode record.userId

theorem follows_refl (entry : DeviceCode) : Follows entry entry :=
  ⟨rfl, rfl, rfl, fun authorized => ⟨authorized, rfl⟩⟩

/-- A row follows what the row before it follows. -/
theorem follows_trans {first second third : DeviceCode} (prior : Follows first second)
    (later : Follows second third) : Follows first third := by
  refine ⟨later.deviceCode.trans prior.deviceCode, later.userCode.trans prior.userCode,
    later.expiresAt.trans prior.expiresAt, fun authorized => ?_⟩
  obtain ⟨second_authorized, second_user⟩ := prior.authorized authorized
  obtain ⟨third_authorized, third_user⟩ := later.authorized second_authorized
  exact ⟨third_authorized, third_user.trans second_user⟩

variable (webUrl : String) (labels : List (ρ × Given)) (world : World Store ρ Phase) {name : ρ}
  {codes : List DeviceCode} (store : Store)

/-- The tables may stay as they are. -/
theorem grows_refl : Grows store store :=
  ⟨fun entry member => ⟨entry, member, follows_refl _⟩, fun _ member => member⟩

theorem grows_authorised (next : Store) (grows : Grows store next) {userCode userId : String}
    (authorised : Authorised store userCode userId) : Authorised next userCode userId := by
  obtain ⟨entry, member, named, status, user⟩ := authorised
  obtain ⟨later, memberLater, follows⟩ := grows.codes entry member
  obtain ⟨statusLater, userLater⟩ := follows.authorized status
  exact ⟨later, memberLater, follows.userCode.trans named, statusLater, userLater.trans user⟩

variable {change : DeviceCode → DeviceCode} {matching : DeviceCode → Bool}

/-- Changing rows keeps the tables growing when each changed row follows what it was. -/
theorem modify_grows {store : Store}
    (follows : ∀ entry ∈ store.codes, matching entry = true → Follows entry (change entry)) :
    Grows store { store with codes := modify store.codes matching change } := by
  constructor
  · intro entry member
    refine ⟨_, mem_map_of_mem member, ?_⟩
    split
    case isTrue matched => exact follows entry member matched
    case isFalse => exact follows_refl _
  · exact fun _ member => member

variable {column : DeviceCode → String}

/-- Changing rows keeps a column that each changed row keeps. -/
theorem modify_column {codes : List DeviceCode} {matching : DeviceCode → Bool}
    {change : DeviceCode → DeviceCode}
    (kept : ∀ entry ∈ codes, matching entry = true → column (change entry) = column entry) :
    (modify codes matching change).map column = codes.map column := by
  rw [modify, map_map]
  refine map_congr_left fun entry member => ?_
  dsimp
  split
  case isTrue matched => exact kept entry member matched
  case isFalse => rfl

/-- Changing rows keeps what holds of the tables when each changed row keeps its user code, has a
user just when it is authorised, and stays authorised for its user. -/
theorem modify_common {store : Store} (common : Common store)
    (follows : ∀ entry ∈ store.codes, matching entry = true → Follows entry (change entry))
    (user : ∀ entry ∈ store.codes, matching entry = true →
      ((change entry).status = .authorized ↔ (change entry).keycloakUserId.isSome)) :
    Common { store with codes := modify store.codes matching change } := by
  have grows := modify_grows follows
  refine ⟨?_, ?_, ?_, ?_⟩
  · rw [modify_column fun entry member matched => (follows entry member matched).userCode]
    exact common.distinct
  · rw [modify_column fun entry member matched => (follows entry member matched).deviceCode]
    exact common.devices
  · intro changed member
    obtain ⟨entry, memberBefore, rfl⟩ := mem_map.mp member
    split
    case isTrue matched => exact user entry memberBefore matched
    case isFalse => exact common.user entry memberBefore
  · intro record member
    obtain ⟨userCode, named, authorised⟩ := common.keyed record member
    exact ⟨userCode, named, grows_authorised _ _ grows authorised⟩

variable {userCode : String}

variable {found : DeviceCode}

/-- A row that is found by a user code is in the table and has it. -/
theorem found_named (finds : getByUserCode codes userCode = some found) :
    found ∈ codes ∧ found.userCode = userCode :=
  ⟨mem_of_find?_eq_some finds, by simpa using find?_some finds⟩

variable {entry : DeviceCode}

/-- A row that is found by its user code is the only one with it. -/
theorem found_only (distinct : (codes.map DeviceCode.userCode).Nodup)
    (finds : getByUserCode codes userCode = some found) (member : entry ∈ codes)
    (named : entry.userCode = userCode) : entry = found := by
  obtain ⟨present, foundNamed⟩ := found_named finds
  exact inj_on_of_nodup_map distinct member present (named.trans foundNamed.symm)

theorem poll_follows (entry : DeviceCode) (increaseInterval : Bool) (now : Nat) :
    Follows entry (entry.updatePollTime increaseInterval now) :=
  ⟨rfl, rfl, rfl, fun authorized => ⟨authorized, rfl⟩⟩

/-- A pending row may become anything. -/
theorem pending_follows {now : Nat} (pending : entry.isPending now = true)
    (change : DeviceCode → DeviceCode) (deviceCode : (change entry).deviceCode = entry.deviceCode)
    (userCode : (change entry).userCode = entry.userCode)
    (expiresAt : (change entry).expiresAt = entry.expiresAt) : Follows entry (change entry) := by
  refine ⟨deviceCode, userCode, expiresAt, fun authorized => ?_⟩
  simp [DeviceCode.isPending, authorized] at pending

/-- What a change of the tables does: they grow, and keep what holds of them. -/
structure Keeps (store next : Store) : Prop where
  grows : Grows store next
  common : Common next

theorem tick_keeps (elapsed : Nat) (common : Common store) : Keeps store (store.tick elapsed) :=
  ⟨⟨fun entry member => ⟨entry, member, follows_refl _⟩, fun _ member => member⟩,
    ⟨common.distinct, common.devices, common.user, common.keyed⟩⟩

theorem update_poll_time_keeps (deviceCode : String) (increaseInterval : Bool)
    (common : Common store) : Keeps store (store.updatePollTime deviceCode increaseInterval) := by
  have follows : ∀ entry ∈ store.codes, (decide (entry.deviceCode = deviceCode)) = true →
      Follows entry (entry.updatePollTime increaseInterval store.clock) :=
    fun entry _ _ => poll_follows ..
  constructor
  · exact modify_grows follows
  · exact modify_common common follows (fun entry member _ => common.user entry member)

theorem authorize_keeps (userCode userId : String) (common : Common store) :
    Keeps store (authorizeDeviceCode store userCode userId).1 := by
  unfold authorizeDeviceCode
  split
  case h_1 => exact ⟨grows_refl _, common⟩
  case h_2 found finds =>
    split
    case isTrue pending =>
      have follows : ∀ entry ∈ store.codes, (decide (entry.userCode = userCode)) = true →
          Follows entry (entry.authorize userId store.clock) := by
        intro entry member matched
        obtain rfl := found_only common.distinct finds member
          (of_decide_eq_true matched)
        exact pending_follows pending
          (fun other => other.authorize userId store.clock) rfl rfl rfl
      constructor
      · exact modify_grows follows
      · exact modify_common common follows
          (fun entry _ _ => by simp [DeviceCode.authorize])
    case isFalse => exact ⟨grows_refl _, common⟩

theorem deny_keeps (userCode : String) (common : Common store) :
    Keeps store (denyDeviceCode store userCode).1 := by
  unfold denyDeviceCode
  split
  case h_1 => exact ⟨grows_refl _, common⟩
  case h_2 found finds =>
    split
    case isTrue pending =>
      have only : ∀ entry ∈ store.codes, (decide (entry.userCode = userCode)) = true →
          entry = found := fun entry member matched =>
        found_only common.distinct finds member
          (of_decide_eq_true matched)
      have follows : ∀ entry ∈ store.codes, (decide (entry.userCode = userCode)) = true →
          Follows entry entry.deny := by
        intro entry member matched
        obtain rfl := only entry member matched
        exact pending_follows pending _ rfl rfl rfl
      constructor
      · exact modify_grows follows
      · refine modify_common common follows fun entry member matched => ?_
        obtain rfl := only entry member matched
        have notAuthorised : entry.status ≠ .authorized := by
          intro authorized
          simp [DeviceCode.isPending, authorized] at pending
        have noUser := mt (common.user entry member).mpr notAuthorised
        simpa [DeviceCode.deny] using noUser
    case isFalse => exact ⟨grows_refl _, common⟩

variable {draws : Nat → String × String}

/-- A new device code has codes of its own, and no user. -/
theorem created_fresh {now : Nat} (created : createDeviceCode codes now draws = some entry) :
    (∀ other ∈ codes, other.userCode ≠ entry.userCode ∧ other.deviceCode ≠ entry.deviceCode) ∧
      entry.status = .pending ∧ entry.keycloakUserId = none := by
  obtain ⟨attempt, -, tried⟩ := exists_of_findSome?_eq_some created
  unfold tryCodes at tried
  split at tried
  case isTrue => cases tried
  case isFalse free =>
    cases tried
    refine ⟨fun other member => ?_, rfl, rfl⟩
    simp only [any_eq_true, not_exists, not_and, Bool.or_eq_true, decide_eq_true_eq] at free
    exact not_or.mp (free other member)

/-- A column without repetition that a new row extends by a value of its own. -/
theorem append_distinct (distinct : (codes.map column).Nodup)
    (fresh : ∀ other ∈ codes, column other ≠ column entry) :
    ((codes ++ [entry]).map column).Nodup := by
  rw [map_append]
  refine nodup_append.mpr ⟨distinct, by simp, ?_⟩
  intro taken member other same
  obtain ⟨row, present, rfl⟩ := mem_map.mp member
  obtain rfl := mem_singleton.mp same
  exact fresh row present

theorem authorization_keeps (draws : Nat → String × String) (common : Common store) :
    Keeps store (authorization webUrl store draws).1 := by
  unfold authorization
  split
  case h_1 => exact ⟨grows_refl _, common⟩
  case h_2 entry created =>
    obtain ⟨fresh, pending, noUser⟩ := created_fresh created
    have grows : Grows store { store with codes := store.codes ++ [entry] } :=
      ⟨fun other member => ⟨other, mem_append_left _ member, follows_refl _⟩,
        fun _ member => member⟩
    refine ⟨grows, ?_, ?_, ?_, ?_⟩
    · exact append_distinct common.distinct fun other member => (fresh other member).1
    · exact append_distinct common.devices fun other member => (fresh other member).2
    · intro other member
      rcases mem_append.mp member with prior | new
      · exact common.user other prior
      · obtain rfl := mem_singleton.mp new
        simp [pending, noUser]
    · intro record member
      obtain ⟨userCode, named, authorised⟩ := common.keyed record member
      exact ⟨userCode, named, grows_authorised _ _ grows authorised⟩

/-- A key is created for a user who has authorised the device code. -/
theorem create_api_key_keeps (key userCode userId : String) (common : Common store)
    (authorised : Authorised store userCode userId) :
    Keeps store (createApiKey store key userId (deviceKeyName userCode)) := by
  refine ⟨⟨fun entry member => ⟨entry, member, follows_refl _⟩,
    fun _ member => mem_append_left _ member⟩, common.distinct, common.devices,
    common.user, ?_⟩
  intro record member
  rcases mem_append.mp member with prior | new
  · exact common.keyed record prior
  · obtain rfl := mem_singleton.mp new
    exact ⟨userCode, rfl, authorised⟩

/-! ## What the requests rely on -/

/-- A poll has read a row that is in the table, if in a later state. -/
def Snapshot (store : Store) (deviceCode : String) (entry : DeviceCode) : Prop :=
  entry.deviceCode = deviceCode ∧ ∃ current ∈ store.codes, Follows entry current

/-- A row is authorised for the user who has a key that is named for it. -/
def KeyOf (store : Store) (entry : DeviceCode) (key : String) : Prop :=
  entry.status = .authorized ∧ ∃ record ∈ store.keys, record.key = key ∧
    record.name = deviceKeyName entry.userCode ∧ entry.keycloakUserId = some record.userId

def Relied (name : ρ) (store : Store) : Phase → Prop
  | .limiting entry =>
      ∃ deviceCode, requests name = .deviceToken deviceCode ∧ Snapshot store deviceCode entry
  | .deciding entry =>
      ∃ deviceCode, requests name = .deviceToken deviceCode ∧ Snapshot store deviceCode entry
  | .retrieving entry =>
      ∃ deviceCode, requests name = .deviceToken deviceCode ∧ Snapshot store deviceCode entry ∧
        entry.status = .authorized
  | .creatingKey userId =>
      ∃ userCode asker, requests name = .deviceVerificationAuthenticated userCode asker ∧
        Authorised store userCode userId
  | .answered (.token key) =>
      ∃ deviceCode, requests name = .deviceToken deviceCode ∧
        ∃ entry ∈ store.codes, entry.deviceCode = deviceCode ∧ KeyOf store entry key
  | _ => True

variable {deviceCode : String}

theorem snapshot_kept {store next : Store} (grows : Grows store next)
    (snapshot : Snapshot store deviceCode entry) : Snapshot next deviceCode entry := by
  obtain ⟨named, current, member, follows⟩ := snapshot
  obtain ⟨later, memberLater, followsLater⟩ := grows.codes current member
  exact ⟨named, later, memberLater, follows_trans follows followsLater⟩

theorem key_of_kept {store next : Store} (grows : Grows store next) {later : DeviceCode}
    (follows : Follows entry later) {key : String} (owned : KeyOf store entry key) :
    KeyOf next later key := by
  obtain ⟨status, record, kept, sameKey, sameName, user⟩ := owned
  obtain ⟨statusLater, userLater⟩ := follows.authorized status
  refine ⟨statusLater, record, grows.keys record kept, sameKey, ?_, userLater.trans user⟩
  rw [follows.userCode]
  exact sameName

variable {phase : Phase}

omit [DecidableEq ρ] in
/-- What a request relies on is not disturbed while the tables grow. -/
theorem relied_kept {store next : Store} (grows : Grows store next)
    (relied : Relied requests name store phase) : Relied requests name next phase := by
  cases phase with
  | limiting entry =>
    obtain ⟨deviceCode, asked, snapshot⟩ := relied
    exact ⟨deviceCode, asked, snapshot_kept grows snapshot⟩
  | deciding entry =>
    obtain ⟨deviceCode, asked, snapshot⟩ := relied
    exact ⟨deviceCode, asked, snapshot_kept grows snapshot⟩
  | retrieving entry =>
    obtain ⟨deviceCode, asked, snapshot, status⟩ := relied
    exact ⟨deviceCode, asked, snapshot_kept grows snapshot, status⟩
  | creatingKey userId =>
    obtain ⟨userCode, asker, asked, authorised⟩ := relied
    exact ⟨userCode, asker, asked, grows_authorised _ _ grows authorised⟩
  | answered answer =>
    cases answer with
    | token key =>
      obtain ⟨deviceCode, asked, entry, member, named, owned⟩ := relied
      obtain ⟨later, memberLater, follows⟩ := grows.codes entry member
      exact ⟨deviceCode, asked, later, memberLater, follows.deviceCode.trans named,
        key_of_kept grows follows owned⟩
    | _ => exact trivial
  | _ => exact trivial

omit [DecidableEq ρ] in
/-- A key that a poll finds is that of the user who authorised the device code. -/
theorem retrieve_relied {store : Store} (asked : requests name = .deviceToken deviceCode)
    (snapshot : Snapshot store deviceCode entry) (status : entry.status = .authorized) :
    Relied requests name store (retrieve store entry) := by
  unfold retrieve
  split
  case h_1 => exact trivial
  case h_2 key retrieved =>
    obtain ⟨record, found, rfl⟩ := Option.map_eq_some_iff.mp retrieved
    obtain ⟨named, current, member, follows⟩ := snapshot
    obtain ⟨currentStatus, currentUser⟩ := follows.authorized status
    have matched := find?_some found
    simp only [Bool.and_eq_true, decide_eq_true_eq] at matched
    refine ⟨deviceCode, asked, current, member, follows.deviceCode.trans named, currentStatus,
      record, mem_of_find?_eq_some found, rfl, ?_, currentUser.trans matched.1.symm⟩
    rw [follows.userCode]
    exact matched.2

omit [DecidableEq ρ] in
/-- A verification that authorises has authorised its device code for its user. -/
theorem approve_relied (name : ρ) (store : Store) (userCode userId : String) (asker : Option String)
    (asked : requests name = .deviceVerificationAuthenticated userCode asker) :
    Relied requests name (approve store userCode userId).1 (approve store userCode userId).2 := by
  unfold approve authorizeDeviceCode
  cases finds : getByUserCode store.codes userCode with
  | none => exact trivial
  | some found =>
    obtain ⟨present, named⟩ := found_named finds
    dsimp only
    cases pending : found.isPending store.clock with
    | false => exact trivial
    | true =>
      refine ⟨userCode, asker, asked, found.authorize userId store.clock, ?_, named, rfl, rfl⟩
      refine mem_map.mpr ⟨found, present, ?_⟩
      simp [named]

variable (outcome : Outcome)

omit [DecidableEq ρ] in
theorem token_step_own {store : Store} (asked : requests name = .deviceToken deviceCode)
    (common : Common store) (relied : Relied requests name store phase) :
    Keeps store (tokenStep deviceCode store phase outcome).1 ∧
      Relied requests name (tokenStep deviceCode store phase outcome).1
        (tokenStep deviceCode store phase outcome).2 := by
  have stays : Keeps store store := ⟨grows_refl _, common⟩
  unfold tokenStep
  split
  case h_1 =>
    refine ⟨stays, ?_⟩
    split
    case h_1 => exact trivial
    case h_2 entry found =>
      refine ⟨deviceCode, asked, ?_, entry, mem_of_find?_eq_some found, follows_refl _⟩
      simpa using find?_some found
  case h_2 entry =>
    unfold limitRate
    obtain ⟨requested, same, snapshot⟩ := relied
    have kept := update_poll_time_keeps store deviceCode false common
    dsimp only
    split
    case isTrue => exact ⟨update_poll_time_keeps _ _ _ common, trivial⟩
    case isFalse => exact ⟨kept, requested, same, snapshot_kept kept.grows snapshot⟩
  case h_3 entry =>
    refine ⟨stays, ?_⟩
    dsimp [decideToken]
    split
    case isTrue => exact trivial
    case isFalse =>
      split
      case h_3 authorized =>
        obtain ⟨requested, same, snapshot⟩ := relied
        exact ⟨requested, same, snapshot, authorized⟩
      all_goals exact trivial
  case h_4 entry =>
    obtain ⟨requested, same, snapshot, status⟩ := relied
    exact ⟨stays, retrieve_relied _ same snapshot status⟩
  case h_5 => exact ⟨stays, trivial⟩
  case h_6 => exact ⟨stays, trivial⟩
  case h_7 => exact ⟨stays, trivial⟩
  case h_8 => exact ⟨stays, relied⟩

variable {asker : Option String}
  (asked : requests name = .deviceVerificationAuthenticated userCode asker)

include asked in
omit [DecidableEq ρ] in
theorem verification_step_own {store : Store} (common : Common store)
    (relied : Relied requests name store phase) :
    Keeps store (verificationStep userCode asker store phase outcome).1 ∧
      Relied requests name (verificationStep userCode asker store phase outcome).1
        (verificationStep userCode asker store phase outcome).2 := by
  have stays : Keeps store store := ⟨grows_refl _, common⟩
  unfold verificationStep
  split
  case h_1 =>
    refine ⟨stays, ?_⟩
    dsimp [readUserCode]
    split
    · exact trivial
    · split <;> exact trivial
  case h_2 =>
    refine ⟨stays, ?_⟩
    split <;> exact trivial
  case h_3 userId =>
    exact ⟨authorize_keeps _ _ _ common, approve_relied _ _ _ _ _ _ asked⟩
  case h_4 userId key =>
    obtain ⟨named, other, same, authorised⟩ := relied
    obtain ⟨rfl, -⟩ := Request.deviceVerificationAuthenticated.inj (same.symm.trans asked)
    exact ⟨create_api_key_keeps _ key _ _ common authorised, trivial⟩
  case h_5 => exact ⟨stays, trivial⟩
  case h_6 => exact ⟨deny_keeps _ _ common, trivial⟩
  case h_7 => exact ⟨stays, trivial⟩
  case h_8 =>
    refine ⟨stays, ?_⟩
    split <;> exact trivial
  case h_9 => exact ⟨stays, trivial⟩
  case h_10 => exact ⟨stays, relied⟩

omit [DecidableEq ρ] in
/-- The step of a request keeps what holds of the tables and what the request relies on. -/
theorem move_own {store : Store} (given : Given) (common : Common store)
    (relied : Relied requests name store phase) :
    Keeps store (move requests name store phase given).1 ∧
      Relied requests name (move requests name store phase given).1
        (move requests name store phase given).2 := by
  have ticked := tick_keeps store given.elapsed common
  have reliedTicked := relied_kept _ ticked.grows relied
  have later : ∀ next, Keeps (store.tick given.elapsed) next → Keeps store next :=
    fun next kept => ⟨⟨kept.grows.codes, kept.grows.keys⟩, kept.common⟩
  unfold move act
  split
  case h_1 webUrl asked =>
    split
    case h_1 draws drawn =>
      refine ⟨later _ (authorization_keeps _ _ _ ticked.common), ?_⟩
      unfold authorization
      split <;> exact trivial
    case h_2 => exact ⟨ticked, trivial⟩
    case h_3 => exact ⟨ticked, reliedTicked⟩
  case h_2 deviceCode asked =>
    obtain ⟨kept, own⟩ := token_step_own _ _ asked
      ticked.common reliedTicked
    exact ⟨later _ kept, own⟩
  case h_3 userCode asker asked =>
    obtain ⟨kept, own⟩ := verification_step_own _ _
      asked ticked.common reliedTicked
    exact ⟨later _ kept, own⟩

/-- No two requests have to do with each other. -/
def Independent (_first _second : Phase) : Prop := True

variable (label : ρ × Given) (sound : Sound Common (Relied requests) Independent world)

include sound in
/-- A step of a request keeps the invariant. -/
theorem advance_keeps :
    Sound Common (Relied requests) Independent (advance (move requests) world label) := by
  refine advance_sound (fun _ _ _ _ => True) _
    (fun _ _ _ => trivial) ?_ ?_ sound trivial
  · intro name store phase given common relied _
    obtain ⟨kept, own⟩ := move_own _ _ common relied
    exact ⟨kept.common, own⟩
  · intro name other store phase otherPhase given _ common relied otherRelied _ _
    obtain ⟨kept, -⟩ := move_own _ _ common relied
    exact ⟨relied_kept _ kept.grows otherRelied, trivial⟩

omit [DecidableEq ρ] in
/-- The invariant holds before any request. -/
theorem initial_sound :
    Sound Common (Relied requests) Independent (initial : World Store ρ Phase) := by
  refine ⟨⟨nodup_nil, nodup_nil, ?_, ?_⟩, fun _ => trivial, fun _ _ _ => trivial⟩
  · rintro entry ⟨⟩
  · rintro record ⟨⟩

variable (reached : Reached (advance (move requests)) initial labels world)

include reached in
/-- The invariant holds in every state of a run. -/
theorem reached_sound : Sound Common (Relied requests) Independent world :=
  invariant_along (advance (move requests)) (fun _ _ => True)
    (Sound Common (Relied requests) Independent)
    (fun _ _ sound _ => advance_keeps _ _ _ sound) _ _
    (initial_sound ..) (along_of_forall _ (fun _ _ => trivial) _ _) _ reached

/-! ## Authorised codes have their keys -/

/-- A device code that is authorised for a user has a key of that user. -/
def HasKey (store : Store) (userCode userId : String) : Prop :=
  ∃ record ∈ store.keys, record.name = deviceKeyName userCode ∧ record.userId = userId

/-- A verification is about to create the key of a user for a user code. -/
def Creating (world : World Store ρ Phase) (userCode userId : String) : Prop :=
  ∃ name asker, requests name = .deviceVerificationAuthenticated userCode asker ∧
    world.phases name = .creatingKey userId

/-- Each authorised device code has its key or is about to get it. -/
def Owed (world : World Store ρ Phase) : Prop :=
  ∀ userCode userId, Authorised world.shared userCode userId →
    HasKey world.shared userCode userId ∨ Creating requests world userCode userId

variable {userId : String}

/-- After rows have changed, what is authorised was authorised or is a changed row. -/
theorem modify_authorised {store : Store}
    (authorised : Authorised { store with codes := modify store.codes matching change }
      userCode userId) :
    Authorised store userCode userId ∨ ∃ entry ∈ store.codes, matching entry = true ∧
      (change entry).userCode = userCode ∧ (change entry).status = .authorized ∧
        (change entry).keycloakUserId = some userId := by
  obtain ⟨changed, member, named, status, user⟩ := authorised
  obtain ⟨entry, memberBefore, rfl⟩ := mem_map.mp member
  by_cases matched : matching entry = true
  · rw [if_pos matched] at named status user
    exact .inr ⟨entry, memberBefore, matched, named, status, user⟩
  · rw [if_neg matched] at named status user
    exact .inl ⟨entry, memberBefore, named, status, user⟩

/-- Remembering a poll authorises nothing. -/
theorem poll_authorised {store : Store} {increaseInterval : Bool}
    (authorised : Authorised (store.updatePollTime deviceCode increaseInterval) userCode userId) :
    Authorised store userCode userId := by
  rcases modify_authorised authorised with before | ⟨entry, member, -, row⟩
  · exact before
  · exact ⟨entry, member, row⟩

/-- Denying authorises nothing. -/
theorem deny_authorised {denied userCode userId : String}
    (authorised : Authorised (denyDeviceCode store denied).1 userCode userId) :
    Authorised store userCode userId := by
  unfold denyDeviceCode at authorised
  split at authorised
  case h_1 => exact authorised
  case h_2 =>
    split at authorised
    case isTrue =>
      rcases modify_authorised authorised with
        before | ⟨entry, -, -, -, status, -⟩
      · exact before
      · cases status
    case isFalse => exact authorised

/-- Approving authorises the device code of the verification for its user. -/
theorem approve_authorised {store : Store} {approved approver : String}
    (authorised : Authorised (approve store approved approver).1 userCode userId) :
    Authorised store userCode userId ∨
      (approved = userCode ∧ (approve store approved approver).2 = .creatingKey userId) := by
  unfold approve authorizeDeviceCode at authorised ⊢
  split at authorised
  case h_1 => exact .inl authorised
  case h_2 found finds =>
    split at authorised
    case isTrue pending =>
      rcases modify_authorised authorised with
        before | ⟨entry, -, matched, named, -, user⟩
      · exact .inl before
      · cases user
        refine .inr ⟨(of_decide_eq_true matched).symm.trans named, ?_⟩
        simp [pending]
    case isFalse => exact .inl authorised

/-- A new device code is not authorised. -/
theorem authorization_authorised {userCode userId : String}
    (authorised : Authorised (authorization webUrl store draws).1 userCode userId) :
    Authorised store userCode userId := by
  unfold authorization at authorised
  split at authorised
  case h_1 => exact authorised
  case h_2 entry created =>
    obtain ⟨-, pending, -⟩ := created_fresh created
    obtain ⟨row, member, named, status, user⟩ := authorised
    rcases mem_append.mp member with prior | new
    · exact ⟨row, prior, named, status, user⟩
    · obtain rfl := mem_singleton.mp new
      rw [pending] at status
      cases status

variable {given : Given}

omit [DecidableEq ρ] in
/-- A step authorises a device code only by a verification that goes on to create the key. -/
theorem move_authorised {store : Store}
    (authorised : Authorised (move requests name store phase given).1 userCode userId) :
    Authorised store userCode userId ∨
      ((move requests name store phase given).2 = .creatingKey userId ∧
        ∃ asker, requests name = .deviceVerificationAuthenticated userCode asker) := by
  have unticked : Authorised (store.tick given.elapsed) userCode userId →
      Authorised store userCode userId := id
  unfold move act at authorised ⊢
  split at authorised
  case h_1 webUrl asked =>
    split at authorised
    case h_1 draws drawn => exact .inl (unticked (authorization_authorised _ _ authorised))
    case h_2 => exact .inl authorised
    case h_3 => exact .inl authorised
  case h_2 deviceCode asked =>
    unfold tokenStep at authorised
    split at authorised
    case h_2 entry =>
      unfold limitRate at authorised
      dsimp only at authorised
      split at authorised
      · exact .inl (unticked (poll_authorised authorised))
      · exact .inl (unticked (poll_authorised authorised))
    all_goals exact .inl authorised
  case h_3 verified asker asked =>
    unfold verificationStep at authorised ⊢
    split at authorised
    case h_3 outcome approver done =>
      rcases approve_authorised authorised with
        before | ⟨rfl, creating⟩
      · exact .inl (unticked before)
      · exact .inr ⟨creating, asker, asked⟩
    case h_6 => exact .inl (unticked (deny_authorised _ authorised))
    all_goals exact .inl authorised

include asked in
omit [DecidableEq ρ] in
/-- A verification that is about to create the key creates it or is still about to. -/
theorem move_creating {store : Store} (created : KeyCreated name store (.creatingKey userId) given)
    :
    (move requests name store (.creatingKey userId) given).2 = .creatingKey userId ∨
      HasKey (move requests name store (.creatingKey userId) given).1 userCode userId := by
  obtain ⟨elapsed, outcome⟩ := given
  unfold move
  rw [asked]
  cases outcome with
  | done => exact .inl rfl
  | drawn draws => exact .inl rfl
  | created key => exact .inr ⟨_, mem_append_right _ (.head _), rfl, rfl⟩
  | raised => exact absurd created id

variable (owed : Owed requests world)
include sound owed

/-- Each authorised device code keeps having its key or being about to get it, when the creation
of keys does not raise. -/
theorem advance_owed (created : Assuming KeyCreated world label) :
    Owed requests (advance (move requests) world label) := by
  obtain ⟨name, given⟩ := label
  intro userCode userId authorised
  obtain ⟨kept, -⟩ := move_own _ _ sound.common
    (sound.relied name)
  rcases move_authorised _
    authorised with before | ⟨creating, asker, asked⟩
  · rcases owed userCode userId before with ⟨record, member, row⟩ | ⟨other, asker, asked, creating⟩
    · exact .inl ⟨record, kept.grows.keys record member, row⟩
    · by_cases same : other = name
      · subst same
        have succeeds : KeyCreated other world.shared (world.phases other) given := created
        rw [creating] at succeeds
        rcases move_creating _ asked
          succeeds with still | done
        · refine .inr ⟨other, asker, asked, ?_⟩
          simpa [advance, creating] using still
        · refine .inl ?_
          simpa [advance, creating] using done
      · refine .inr ⟨other, asker, asked, ?_⟩
        simpa [advance, put_other _ _ _ _ same] using creating
  · refine .inr ⟨name, asker, asked, ?_⟩
    simpa [advance] using creating

omit [DecidableEq ρ] in
/-- Where no device code is owed a key beyond the verifications in progress, codes and keys go
together. -/
theorem paired_of_owed : Paired requests world := by
  intro entry member quiet
  constructor
  · intro authorized
    obtain ⟨userId, user⟩ := Option.isSome_iff_exists.mp
      ((sound.common.user entry member).mp authorized)
    rcases owed entry.userCode userId ⟨entry, member, rfl, authorized, user⟩ with
      ⟨record, kept, named, belongs⟩ | ⟨name, asker, asked, creating⟩
    · exact ⟨record, kept, named, user.trans (congrArg some belongs.symm)⟩
    · refine absurd ⟨name, asker, asked, ?_⟩ quiet
      rw [creating]
      exact trivial
  · rintro ⟨record, kept, named, user⟩
    refine (sound.common.user entry member).mpr ?_
    rw [user]
    rfl

omit sound owed

theorem run_grows (start : World Store ρ Phase)
    (sound : Sound Common (Relied requests) Independent start) :
    Grows start.shared (run (advance (move requests)) start labels).shared := by
  induction labels generalizing start with
  | nil => exact grows_refl ..
  | cons label rest ih =>
    obtain ⟨kept, -⟩ := move_own _ _
      sound.common (sound.relied label.1)
    have later := ih _ (advance_keeps requests start label sound)
    constructor
    · intro entry member
      obtain ⟨next, memberNext, follows⟩ := kept.grows.codes entry member
      obtain ⟨last, memberLast, followsLast⟩ := later.codes next memberNext
      exact ⟨last, memberLast, follows_trans follows followsLast⟩
    · exact fun record member => later.keys record (kept.grows.keys record member)

include reached in
/-- The tables grow from a state of a run to its end. -/
theorem reached_grows :
    Grows world.shared (run (advance (move requests)) initial labels).shared := by
  have sound := reached_sound _ _ _ reached
  obtain ⟨performed, remaining, rfl, rfl⟩ := reached
  rw [run_append]
  exact run_grows _ _ _ sound

theorem authorised_once (common : Common store) (userCode first second : String)
    (one : Authorised store userCode first) (other : Authorised store userCode second) :
    first = second := by
  obtain ⟨entry, member, named, -, user⟩ := one
  obtain ⟨entry', member', named', -, user'⟩ := other
  obtain rfl := inj_on_of_nodup_map common.distinct member member' (named.trans named'.symm)
  exact Option.some.inj (user.symm.trans user')

/-- A key belongs to the user who authorised its device code, and neither is ever taken back. -/
theorem authorisations_final (before after : List (ρ × Given)) :
    let earlier := (run (advance (move requests)) initial before).shared
    let later := (run (advance (move requests)) initial (before ++ after)).shared
    (∀ record ∈ earlier.keys, record ∈ later.keys ∧ ∃ userCode,
      record.name = deviceKeyName userCode ∧ Authorised earlier userCode record.userId) ∧
    ∀ userCode userId, Authorised earlier userCode userId → Authorised later userCode userId := by
  intro earlier later
  have reached : Reached (advance (move requests)) initial (before ++ after) ⟨earlier, _⟩ :=
    ⟨before, after, rfl, rfl⟩
  have grows := reached_grows _ _ _ reached
  have common := (reached_sound _ _ _ reached).common
  exact ⟨fun record kept => ⟨grows.keys record kept, common.keyed record kept⟩,
    fun _ _ => grows_authorised _ _ grows⟩

/-- A poll has found its device code authorised. -/
def Granted : Phase → Prop
  | .retrieving _ => True
  | .answered (.token _) => True
  | _ => False

/-- During a poll its device code is authorised and has not expired. -/
def Valid (deviceCode : String) (store : Store) (phase : Phase) : Prop :=
  phase.InProgress ∧ ∃ entry ∈ store.codes, entry.deviceCode = deviceCode ∧
    entry.status = .authorized ∧ entry.isExpired store.clock = false

omit [DecidableEq ρ] in
/-- A poll finds its device code authorised when it is authorised and has not expired. -/
theorem move_granted (name : ρ) {deviceCode : String} {store : Store} {phase : Phase}
    (asked : requests name = .deviceToken deviceCode) (relied : Relied requests name store phase)
    (granted : Granted (move requests name store phase given).2) :
    Granted phase ∨ Valid deviceCode store phase ∨
      Valid deviceCode (move requests name store phase given).1
        (move requests name store phase given).2 := by
  unfold move at granted ⊢
  rw [asked] at granted ⊢
  dsimp only [act] at granted ⊢
  unfold tokenStep at granted ⊢
  split at granted
  case h_1 =>
    dsimp only at granted
    split at granted <;> exact absurd granted id
  case h_2 entry =>
    unfold limitRate at granted
    dsimp only at granted
    split at granted <;> exact absurd granted id
  case h_3 entry =>
    dsimp only [decideToken] at granted ⊢
    split at granted
    case isTrue => exact absurd granted id
    case isFalse unexpired =>
      split at granted
      case h_3 authorized =>
        obtain ⟨requested, same, named, current, member, follows⟩ := relied
        obtain rfl := Request.deviceToken.inj (same.symm.trans asked)
        refine .inr (.inr ⟨?_, current, member, follows.deviceCode.trans named,
          (follows.authorized authorized).1, ?_⟩)
        · rw [if_neg unexpired]
          exact trivial
        · rw [DeviceCode.isExpired, follows.expiresAt]
          simpa [DeviceCode.isExpired] using unexpired
      all_goals exact absurd granted id
  case h_4 => exact .inl trivial
  case h_5 => exact absurd granted id
  case h_6 => exact absurd granted id
  case h_7 => exact absurd granted id
  case h_8 => exact .inl granted

/-- When no creation of a key raises, device codes and keys go together throughout, each device
code is authorised for at most one user, and a poll is given only the key of the user for whom its
device code was authorised, and had not expired, during the poll. -/
theorem device_keys_paired (labels : List (ρ × Given))
    (created : Along (advance (move requests)) (Assuming KeyCreated) initial labels) :
    (∀ world, Reached (advance (move requests)) initial labels world → Paired requests world) ∧
    (∀ first second, Reached (advance (move requests)) initial labels first →
      Reached (advance (move requests)) initial labels second →
      ∀ userCode one other, Authorised first.shared userCode one →
        Authorised second.shared userCode other → one = other) ∧
    (∀ name key,
      (run (advance (move requests)) initial labels).phases name = .answered (.token key) →
      ∃ deviceCode, requests name = .deviceToken deviceCode ∧
        ∃ world, Reached (advance (move requests)) initial labels world ∧
          (world.phases name).InProgress ∧ ∃ entry ∈ world.shared.codes,
            entry.deviceCode = deviceCode ∧ entry.isExpired world.shared.clock = false ∧
              KeyOf (run (advance (move requests)) initial labels).shared entry key) := by
  have last := reached_sound requests labels _ ⟨labels, [], by simp, rfl⟩
  refine ⟨?_, ?_, ?_⟩
  · intro world reached
    have both := invariant_along _ _
      (fun world => Sound Common (Relied requests) Independent world ∧ Owed requests world)
      (fun world label holds met => ⟨advance_keeps _ _ _ holds.1,
        advance_owed _ _ _ holds.1 holds.2 met⟩) _ _
      ⟨initial_sound .., by rintro userCode userId ⟨entry, ⟨⟩, -⟩⟩ created _ reached
    exact paired_of_owed _ _ both.1 both.2
  · intro first second reachedFirst reachedSecond userCode one other authorised authorised'
    exact authorised_once _ last.common _ one _
      (grows_authorised _ _ (reached_grows _ _ _ reachedFirst) authorised)
      (grows_authorised _ _ (reached_grows _ _ _ reachedSecond) authorised')
  · intro name key answered
    have relied := last.relied name
    rw [answered] at relied
    obtain ⟨deviceCode, asked, owner, memberLast, namedLast, owned⟩ := relied
    obtain ⟨world, reached, during, entry, member, named, authorized, unexpired⟩ :=
      shown_witnessed _ _ _ _ _
        (fun store phase given relied granted => move_granted _ _ asked relied granted)
        _ _ (fun world reached => (reached_sound _ _ _ reached).relied name)
        id (by rw [answered]; exact trivial)
    refine ⟨deviceCode, asked, world, reached, during, entry, member, named, unexpired, authorized, ?_⟩
    obtain ⟨later, memberLater, follows⟩ := (reached_grows _ _ _ reached).codes entry member
    obtain rfl : later = owner := List.inj_on_of_nodup_map last.common.devices memberLater memberLast
      ((follows.deviceCode.trans named).trans namedLast.symm)
    obtain ⟨-, record, kept, sameKey, sameName, user⟩ := owned
    refine ⟨record, kept, sameKey, ?_, (follows.authorized authorized).2.symm.trans user⟩
    rw [← follows.userCode]
    exact sameName

/-- One device code that is requested, authorised and polled for. -/
def oneDevice : Fin 3 → Request
  | 0 => .deviceAuthorization "https://forgepilot"
  | 1 => .deviceVerificationAuthenticated "ABCD2345" (some "user")
  | 2 => .deviceToken "device"

/-- A poll after the key was created is given the key. -/
theorem device_keys_paired_polled :
    let labels := [(0, ⟨0, .drawn fun _ => ("ABCD2345", "device")⟩), (1, ⟨1, .done⟩),
      (1, ⟨0, .done⟩), (1, ⟨1, .done⟩), (1, ⟨1, .created "sk-oh-1"⟩), (2, ⟨1, .done⟩),
      (2, ⟨0, .done⟩), (2, ⟨0, .done⟩), (2, ⟨1, .done⟩)]
    let final := run (advance (move oneDevice)) initial labels
    final.phases 2 = .answered (.token "sk-oh-1") ∧ Paired oneDevice final := by
  intro labels final
  have created : Along (advance (move oneDevice)) (Assuming KeyCreated) initial labels := by
    decide +kernel
  exact ⟨by rfl, (device_keys_paired _ _ created).1 final ⟨labels, [], rfl, rfl⟩⟩

/-- The same, with a creation of the key that raises. -/
def keyFails : List (Fin 3 × Given) :=
  [(0, ⟨0, .drawn fun _ => ("ABCD2345", "device")⟩), (1, ⟨1, .done⟩), (1, ⟨0, .done⟩),
    (1, ⟨1, .done⟩), (1, ⟨1, .raised⟩), (1, ⟨0, .done⟩)]

/-- After a creation that raised, denying finds the device code authorised and leaves it. -/
theorem device_key_missing : ¬ ∀ world, Reached (advance (move oneDevice)) initial keyFails world →
      Paired oneDevice world := by
  intro paired
  have quiet : ¬ Verifying oneDevice (run (advance (move oneDevice)) initial keyFails)
      "ABCD2345" := by
    rintro ⟨name, userId, asked, progress⟩
    match name, asked with
    | 1, _ => exact progress
  have present : ⟨"device", "ABCD2345", .authorized, some "user", 600000000, some 2, none, 5⟩ ∈
      (run (advance (move oneDevice)) initial keyFails).shared.codes := by
    decide +kernel
  obtain ⟨record, ⟨⟩, -⟩ := (paired _ ⟨keyFails, [], rfl, rfl⟩ _ present quiet).mp rfl

end ForgePilot.DeviceCodes
