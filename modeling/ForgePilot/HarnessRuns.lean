import ForgePilot.ExecutionHarness
import ForgePilot.Runs

/-!
# Gating over whole runs of the harness

A session is a harness together with the history of its gate, the last reading of
the clock and the tokens that enabled an executor. Issuing, consuming and both
entry points of the harness are its calls. The contract of a call says when the
executor is invoked, in terms of the history and not of the gate; the one-shot
property bounds the invocations a token enables by the times it was issued.
-/

namespace ForgePilot.Harness

open Runs

variable (table : CharacterTable)

/-- The request with another kind of executor. -/
def Request.withExecutor {ε ε' : Type} (request : Request ε) (executor : RuntimeAction → ε') :
    Request ε' :=
  { request with executor }

variable {ε : Type} (harness : ExecutionHarness)

/-- A token enabled an invocation: the executor ran, confirmation was required,
and the interface had not confirmed. -/
def enabledBy {ε : Type} (harness : ExecutionHarness) (request : Request ε)
    (execution : Execution) : List String :=
  if execution.invoked ≠ [] ∧ (decided harness request).requiresConfirmation = true ∧
      request.action.confirmationState ≠ some "confirmed" then
    request.confirmationToken.toList
  else []

inductive Call where
  | issue (uuid : Uuid) (subject : String) (ttlSeconds : Option Int) (now : Int)
  | consume (token : String) (subject : Option String) (now : Int)
  | execute (request : Request Outcome)
  | executeAsync (request : Request Returned)

/-- The reading of the clock in a call. -/
def Call.now : Call → Int
  | .issue _ _ _ now => now
  | .consume _ _ now => now
  | .execute request => request.now
  | .executeAsync request => request.now

structure Session where
  harness : ExecutionHarness
  history : List GateEvent
  clock : Option Int
  enablings : List String

/-- A harness whose gate has issued nothing yet. -/
def Session.begin (harness : ExecutionHarness) : Session :=
  ⟨{ harness with confirmationGate := .empty }, [], none, []⟩

def Session.note {ε : Type} (session : Session) (request : Request ε) (execution : Execution) :
    Session :=
  let enabled := enabledBy session.harness request execution
  ⟨execution.harness, session.history ++ enabled.map .redeemed, some request.now,
    session.enablings ++ enabled⟩

def step (session : Session) : Call → Session
  | .issue uuid subject ttlSeconds now =>
      let (result, gate) := issue session.harness.confirmationGate uuid subject ttlSeconds now
      let history :=
        match result with
        | .ok confirmation => session.history ++ [.issued confirmation]
        | .error _ => session.history
      { session with
        harness := { session.harness with confirmationGate := gate }
        history
        clock := some now }
  | .consume token subject now =>
      let (consumed, gate) := consume session.harness.confirmationGate token subject now
      { session with
        harness := { session.harness with confirmationGate := gate }
        history := if consumed then session.history ++ [.redeemed token] else session.history
        clock := some now }
  | .execute request => session.note request (execute table session.harness request)
  | .executeAsync request => session.note request (executeAsync table session.harness request)

/-! ## The contract of a call -/

/-- The policy allows the action, and confirmation is not required, was given in
the interface, or comes with a live token for the action that was not rejected. -/
def Admitted {ε : Type} (session : Session) (request : Request ε) : Prop :=
  (decided session.harness request).allowed = true ∧
    ((decided session.harness request).requiresConfirmation = false ∨
      request.action.confirmationState = some "confirmed" ∨
      (request.action.confirmationState ≠ some "rejected" ∧
        ∃ token, request.confirmationToken = some token ∧
          Live session.history token
            (some (classified session.harness request).confirmationSubject) request.now))

/-- The policy denies the action, or its required confirmation was rejected. -/
def Denied {ε : Type} (session : Session) (request : Request ε) : Prop :=
  (decided session.harness request).allowed = false ∨
    ((decided session.harness request).requiresConfirmation = true ∧
      request.action.confirmationState = some "rejected")

/-- What an execution owes to its request. -/
structure Fulfils {ε : Type} (session : Session) (request : Request ε)
    (execution : Execution) : Prop where
  invoked_iff : execution.invoked = [request.action] ↔ Admitted session request
  otherwise : ¬Admitted session request → execution.invoked = []
  denied_keeps : Denied session request →
    execution.harness.confirmationGate = session.harness.confirmationGate
  recorded : execution.harness.auditEvents =
    session.harness.auditEvents ++ [execution.result.auditEvent]

/-- The contract of each call. -/
def Gated (session : Session) : Call → Prop
  | .issue uuid subject ttlSeconds now =>
      (step table session (.issue uuid subject ttlSeconds now)).harness.auditEvents =
        session.harness.auditEvents
  | .consume token subject now =>
      (step table session (.consume token subject now)).harness.auditEvents =
        session.harness.auditEvents
  | .execute request =>
      Fulfils session request (execute table session.harness request) ∧
        executeAsync table session.harness
            (request.withExecutor (fun action => .plain (request.executor action))) =
          execute table session.harness request
  | .executeAsync request =>
      Fulfils session request (executeAsync table session.harness request)

/-- A token enables at most as many invocations as it was issued times; one that
is still standing has one left. -/
def OneShot (session : Session) : Prop :=
  ∀ token, session.enablings.count token +
    (if (standing token session.history).isSome then 1 else 0) ≤
      (issuedTokens session.history).count token

/-- The gate represents the history, the empty text is no token, and tokens are
one-shot. -/
structure Sound (session : Session) : Prop where
  represents : Represents session.harness.confirmationGate session.history session.clock
  nameless : standing "" session.history = none
  oneShot : OneShot session

/-! ## The gate in front of the executor -/

/-- The gate in front of the executor of a call. -/
def gateOf {ε : Type} (harness : ExecutionHarness) (request : Request ε) :
    Option Report × ConfirmationGate :=
  preflight harness.confirmationGate request.action (classified harness request)
    (decided harness request) request.confirmationToken request.now

variable (session : Session) (call : Call) (request : Request Outcome)

/-- The executor runs exactly when nothing stops the call before it. -/
theorem execute_invoked : (execute table harness request).invoked =
      if (gateOf harness request).1.isNone then [request.action] else [] := by
  cases opened : gateOf harness request with
  | mk stopped gate =>
    rw [gateOf] at opened
    simp only [execute, opened]
    cases stopped <;> rfl

/-- A call leaves the gate that its preflight left. -/
theorem execute_gate :
    (execute table harness request).harness.confirmationGate = (gateOf harness request).2 := by
  rw [(execute_recorded ..).2]
  rfl

/-- Only a required and undecided confirmation asks for a token, and only the
token decides then. -/
theorem gate_asks_token {session : Session} {request : Request ε} (sound : Sound session)
    (reads : Reads session.clock request.now)
    (allowed : (decided session.harness request).allowed = true)
    (required : (decided session.harness request).requiresConfirmation = true)
    (unrejected : request.action.confirmationState ≠ some "rejected")
    (unconfirmed : request.action.confirmationState ≠ some "confirmed") :
    ((gateOf session.harness request).1.isNone = true ↔
        ∃ token, request.confirmationToken = some token ∧ Live session.history token
            (some (classified session.harness request).confirmationSubject) request.now) ∧
      Represents (gateOf session.harness request).2
        (session.history ++ (if (gateOf session.harness request).1.isNone then
          request.confirmationToken.toList else []).map .redeemed) (some request.now) := by
  have later := represents_later sound.represents reads
  unfold gateOf preflight
  simp only [allowed, required, unrejected, unconfirmed, Bool.true_eq_false, if_false]
  cases request.confirmationToken with
  | none => simpa using later
  | some token =>
    by_cases unnamed : token = ""
    · -- The empty text is skipped before the gate is asked, and no token has that name.
      subst unnamed
      simpa [Live, sound.nameless] using later
    have accepted := consume_true_iff session.history
      session.clock token (some (classified session.harness request).confirmationSubject)
      request.now sound.represents reads
    have consumed := represents_consume session.history
      session.clock token (some (classified session.harness request).confirmationSubject)
      request.now sound.represents reads
    simp only [unnamed, if_false, Option.some.injEq, exists_eq_left']
    rw [← accepted]
    cases outcome : consume session.harness.confirmationGate token
      (some (classified session.harness request).confirmationSubject) request.now with
    | mk answer gate =>
      rw [outcome] at consumed
      cases answer <;> simpa using consumed

/-- The executor is reached exactly by admitted requests. -/
theorem gate_opens_iff {session : Session} {request : Request ε} (sound : Sound session)
    (reads : Reads session.clock request.now) :
    (gateOf session.harness request).1.isNone = true ↔ Admitted session request := by
  by_cases allowed : (decided session.harness request).allowed = true
  · by_cases required : (decided session.harness request).requiresConfirmation = true
    · by_cases rejected : request.action.confirmationState = some "rejected"
      · simp [gateOf, preflight, Admitted, allowed, required, rejected]
      · by_cases confirmed : request.action.confirmationState = some "confirmed"
        · simp [gateOf, preflight, Admitted, allowed, required, confirmed]
        · rw [(gate_asks_token sound reads allowed required rejected
            confirmed).1]
          simp [Admitted, allowed, required, rejected, confirmed]
    · simp [gateOf, preflight, Admitted, allowed, required]
  · simp [gateOf, preflight, Admitted, allowed]

/-- The gate that a call leaves represents the history with the token it spent. -/
theorem gate_represents (request : Request ε) (sound : Sound session)
    (reads : Reads session.clock request.now) :
    Represents (gateOf session.harness request).2
      (session.history ++ (if (gateOf session.harness request).1.isNone = true ∧
          (decided session.harness request).requiresConfirmation = true ∧
          request.action.confirmationState ≠ some "confirmed" then
        request.confirmationToken.toList else []).map .redeemed) (some request.now) := by
  have later := represents_later sound.represents reads
  by_cases allowed : (decided session.harness request).allowed = true
  · by_cases required : (decided session.harness request).requiresConfirmation = true
    · by_cases rejected : request.action.confirmationState = some "rejected"
      · simpa [gateOf, preflight, allowed, required, rejected] using later
      · by_cases confirmed : request.action.confirmationState = some "confirmed"
        · simpa [gateOf, preflight, allowed, required, confirmed] using later
        · have asked := (gate_asks_token sound reads allowed required rejected
            confirmed).2
          simpa [required, confirmed] using asked
    · simpa [gateOf, preflight, allowed, required] using later
  · simpa [gateOf, preflight, allowed] using later

theorem gate_denied (request : Request ε) (denied : Denied session request) :
    (gateOf session.harness request).2 = session.harness.confirmationGate := by
  rcases denied with disallowed | ⟨required, rejected⟩
  · simp [gateOf, preflight, disallowed]
  · by_cases allowed : (decided session.harness request).allowed = true
    · simp [gateOf, preflight, allowed, required, rejected]
    · simp [gateOf, preflight, allowed]

theorem execute_fulfils (sound : Sound session) (reads : Reads session.clock request.now) :
    Fulfils session request (execute table session.harness request) where
  invoked_iff := by
    rw [execute_invoked, ← gate_opens_iff sound reads]
    by_cases opened : (gateOf session.harness request).1.isNone = true <;> simp [opened]
  otherwise := by
    intro refused
    rw [← gate_opens_iff sound reads] at refused
    rw [execute_invoked, if_neg refused]
  denied_keeps := by
    intro denied
    rw [execute_gate, gate_denied _ _ denied]
  recorded := execute_events ..

/-! ## Tokens over a run -/

/-- The tokens an execution spent, by what its gate answered. -/
theorem enabled_by_execute : enabledBy harness request (execute table harness request) =
      if (gateOf harness request).1.isNone = true ∧
          (decided harness request).requiresConfirmation = true ∧
          request.action.confirmationState ≠ some "confirmed" then
        request.confirmationToken.toList
      else [] := by
  rw [enabledBy, execute_invoked]
  by_cases opened : (gateOf harness request).1.isNone = true <;> simp [opened]

/-- An execution spends no token, or the live one it was given. -/
theorem enabled_by_cases {session : Session} {request : Request Outcome} (sound : Sound session)
    (reads : Reads session.clock request.now) :
    enabledBy session.harness request (execute table session.harness request) = [] ∨
      ∃ token, enabledBy session.harness request (execute table session.harness request) =
          [token] ∧ (standing token session.history).isSome = true := by
  rw [enabled_by_execute]
  split
  · rename_i spent
    obtain ⟨opened, required, unconfirmed⟩ := spent
    obtain ⟨_, optional | confirmed | ⟨_, token, given, confirmation, stands, _⟩⟩ :=
      (gate_opens_iff sound reads).mp opened
    · simp [required] at optional
    · exact absurd confirmed unconfirmed
    · exact .inr ⟨token, by simp [given], by simp [stands]⟩
  · exact .inl rfl

theorem sound_note (sound : Sound session) (reads : Reads session.clock request.now) :
    Sound (session.note request (execute table session.harness request)) := by
  have represents : Represents
      (execute table session.harness request).harness.confirmationGate
      (session.history ++ (enabledBy session.harness request
        (execute table session.harness request)).map .redeemed) (some request.now) := by
    rw [execute_gate, enabled_by_execute]
    exact gate_represents _ _ sound reads
  refine ⟨represents, ?_, ?_⟩
  · rcases enabled_by_cases table sound reads with none | ⟨token, one, _⟩
    · simpa [Session.note, none] using sound.nameless
    · simp [Session.note, one, standAfter, sound.nameless]
  · rcases enabled_by_cases table sound reads with none | ⟨token, one, stands⟩
    · intro token
      simpa [Session.note, none] using sound.oneShot token
    · rw [Session.note, one]
      exact fun other => room_redeemed _ _ stands
        (sound.oneShot other)

theorem sound_issue (uuid : Uuid) (subject : String) (ttlSeconds : Option Int) (now : Int)
    (sound : Sound session) (reads : Reads session.clock now) :
    Sound (step table session (.issue uuid subject ttlSeconds now)) := by
  have represents := represents_issue uuid subject ttlSeconds sound.represents reads
  simp only [step]
  cases issued : issue session.harness.confirmationGate uuid subject ttlSeconds now with
  | mk result gate =>
    rw [issued] at represents
    cases result with
    | error raised => exact ⟨represents, sound.nameless, sound.oneShot⟩
    | ok confirmation =>
      have named : confirmation.token ≠ "" := by
        rw [issue_token
          (by rw [issued])]
        exact uuid_hex_ne_empty _
      refine ⟨represents, ?_, ?_⟩
      · simp [standAfter, named, sound.nameless]
      · exact fun token => room_issued _
          (sound.oneShot token)

theorem sound_consume (token : String) (subject : Option String) (now : Int) (sound : Sound session)
    (reads : Reads session.clock now) :
    Sound (step table session (.consume token subject now)) := by
  have represents := represents_consume session.history
    session.clock token subject now sound.represents reads
  have accepted := consume_true_iff session.history
    session.clock token subject now sound.represents reads
  simp only [step]
  cases consumed : consume session.harness.confirmationGate token subject now with
  | mk answer gate =>
    rw [consumed] at represents accepted
    cases answer with
    | false => exact ⟨represents, sound.nameless, sound.oneShot⟩
    | true =>
      obtain ⟨confirmation, stands, _⟩ := accepted.mp rfl
      refine ⟨represents, ?_, ?_⟩
      · simp [standAfter, sound.nameless]
      · intro other
        have counted := room_redeemed token other
          (by simp [stands]) (sound.oneShot other)
        simp only [Room, List.count_append] at counted
        simp only [if_true]
        omega

/-- Every call with a clock that has not run backwards keeps the session sound. -/
theorem step_sound (sound : Sound session) (reads : Reads session.clock call.now) :
    Sound (step table session call) := by
  cases call with
  | issue uuid subject ttlSeconds now => exact sound_issue _ _ _ _ _ now sound reads
  | consume token subject now => exact sound_consume _ _ _ _ now sound reads
  | execute request => exact sound_note _ _ _ sound reads
  | executeAsync request =>
    exact sound_note _ _ (request.withExecutor (fun action =>
      (request.executor action).outcome)) sound reads

/-- Every call meets its contract in a sound session. -/
theorem step_gated (sound : Sound session) (reads : Reads session.clock call.now) :
    Gated table session call := by
  cases call with
  | issue uuid subject ttlSeconds now => rfl
  | consume token subject now => rfl
  | execute request => exact ⟨execute_fulfils _ _ _ sound reads, rfl⟩
  | executeAsync request =>
    obtain ⟨invoked, otherwise, keeps, recorded⟩ := execute_fulfils _ _
      (request.withExecutor (fun action => (request.executor action).outcome)) sound reads
    exact ⟨invoked, otherwise, keeps, recorded⟩

/-- The last reading of the clock is that of the last call. -/
@[simp] theorem step_clock : (step table session call).clock = some call.now := by
  cases call <;> rfl

/-- Calls in order of their clocks find the clock behind them. -/
theorem clock_along (calls : List Call)
    (ordered : calls.Pairwise (fun earlier later => earlier.now ≤ later.now))
    (ahead : ∀ call ∈ calls, Reads session.clock call.now) :
    Along (step table) (fun session call => Reads session.clock call.now) session calls := by
  refine along_of_pairwise _ _ _ (fun session call later before time reading => ?_) _ _
    ordered ahead
  rw [step_clock] at reading
  exact Option.some.inj reading ▸ before

/-- Listing a directory with a token, after it was issued for that command. -/
def listingRequest (now : Int) : Request Outcome where
  action := ⟨.cmdRun "ls" none false false, none⟩
  executor _ := .ok .none
  confirmationToken := some (Uuid.hex ⟨0, by decide⟩)
  now
  stamp := ⟨"id", .aware now, 0⟩

/-- A token is issued, spent, and tried again. -/
def listingCalls : List Call :=
  [.issue ⟨0, by decide⟩ "terminal:ls" (some 300) 0, .execute (listingRequest 1),
    .execute (listingRequest 2)]

end ForgePilot.Harness
