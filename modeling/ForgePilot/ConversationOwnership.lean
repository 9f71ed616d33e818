import ForgePilot.ConversationInfo

/-!
# Saving and owners

Saving should leave the stored conversations alone when it raises, and never change
a conversation that belongs to another user or another organisation than the call.
Because the row is committed before the owner is compared, this holds exactly when
nobody is determined, when the call is entitled to the conversation, or when the
row already is what would be written.

For the webhook of a sandbox it follows that a conversation of another user is
replaced by a stub, and so is one of the owner that belongs to an organisation other
than the current one, exactly when the report is about such a conversation and its
row is not the stub already.
-/

namespace ForgePilot.Conversations

open Option

variable {υ : Type} [DecidableEq υ] (platform : Platform υ)

/-- A call determines a user and an organisation. -/
def Determines (context : UserContext υ) (info : AppConversationInfo υ) (database : Database υ)
    (userId orgId : υ) : Prop :=
  ∃ userIdStr user, callerOf context info = some userIdStr ∧
    platform.readUuid userIdStr = some userId ∧ database.users userId = some user ∧
    orgId = context.orgId user

/-- Saving leaves the stored conversations alone when it raises, and those of another
user or organisation in any case. -/
def SaveKeeps (context : UserContext υ) (info : AppConversationInfo υ)
    (database : Database υ) : Prop :=
  (∀ error, (saveAppConversationInfo platform context info database).2 = .error error →
    ∀ key, (saveAppConversationInfo platform context info database).1.metadata.get key =
      database.metadata.get key) ∧
  ∀ key record userId orgId, database.saas key = some record →
    Determines platform context info database userId orgId →
    record.userId ≠ userId ∨ record.orgId ≠ orgId →
    (saveAppConversationInfo platform context info database).1.metadata.get key =
      database.metadata.get key

/-- The user and the organisation of the call own the conversation, or nobody does
and the organisation exists. -/
def Entitled (context : UserContext υ) (info : AppConversationInfo υ)
    (database : Database υ) : Prop :=
  ∃ userId orgId, Determines platform context info database userId orgId ∧
    match database.saas (platform.text info.id) with
    | none => database.orgs orgId = true
    | some record => record.userId = userId ∧ record.orgId = orgId

/-- The row of a conversation is what saving writes. -/
def AlreadySaved (info : AppConversationInfo υ) (database : Database υ) : Prop :=
  database.metadata.get (platform.text info.id) =
    some (merged platform info (database.metadata.get (platform.text info.id)))

def OwnerIs (sandbox : Option SandboxInfo) (userId : υ) : Prop :=
  ∃ box owner, sandbox = some box ∧ truthy box.createdByUserId = some owner ∧
    platform.readUuid owner = some userId

/-- What a row says about the content of a conversation. -/
def SameContent (row other : StoredConversationMetadata) : Prop :=
  row.title = other.title ∧ row.selectedRepository = other.selectedRepository ∧
    row.selectedBranch = other.selectedBranch ∧ row.tags = other.tags ∧
    row.parentConversationId = other.parentConversationId

/-- The webhook does not change a conversation of another user, nor the content of
one of the owner that belongs to an organisation which is not the current one. -/
def WebhookKeeps (conversation : ConversationInfo υ) (sandbox : Option SandboxInfo)
    (instants : Instants) (database : Database υ) : Prop :=
  ∀ key row record, database.metadata.get key = some row → database.saas key = some record →
    (¬OwnerIs platform sandbox record.userId →
      (onConversationUpdate platform conversation sandbox instants database).1.metadata.get key =
        some row) ∧
    ∀ user, OwnerIs platform sandbox record.userId → database.users record.userId = some user →
      record.orgId ≠ user.currentOrgId → ∃ after,
        (onConversationUpdate platform conversation sandbox instants database).1.metadata.get key =
          some after ∧ SameContent after row

/-- The row a stub leaves over another one. -/
def stubRow (conversation : ConversationInfo υ) (box : SandboxInfo) (instants : Instants)
    (row : StoredConversationMetadata) : StoredConversationMetadata :=
  merged platform (reported platform conversation box instants
    (stub conversation.id box instants)) (some row)

/-- Unless a report is about a deletion: a stored conversation of another user is the
stub already, and so is the content of one of the owner that belongs to an
organisation which is not the current one. -/
def ReportHarmless (conversation : ConversationInfo υ) (sandbox : Option SandboxInfo)
    (instants : Instants) (database : Database υ) : Prop :=
  ∀ box owner userId row record, sandbox = some box →
    truthy box.createdByUserId = some owner → platform.readUuid owner = some userId →
    conversation.deleting = false →
    database.metadata.get (platform.text conversation.id) = some row →
    database.saas (platform.text conversation.id) = some record →
    (record.userId ≠ userId → stubRow platform conversation box instants row = row) ∧
    ∀ user, record.userId = userId → database.users userId = some user →
      record.orgId ≠ user.currentOrgId →
      SameContent (stubRow platform conversation box instants row) row

/-! ## Saving -/

variable {conversation : ConversationInfo υ} {sandbox : Option SandboxInfo}
  (context : UserContext υ) (info : AppConversationInfo υ)

/-- Whatever saving returns, the row has been written. -/
theorem save_metadata (db : Database υ) (key : String) :
    (saveAppConversationInfo platform context info db).1.metadata.get key =
      if key = platform.text info.id then
        some (merged platform info (db.metadata.get (platform.text info.id)))
      else db.metadata.get key := by
  have base : (saveAppConversationInfo platform context info db).1.metadata =
      (saveBase platform info db).metadata := by
    simp only [saveAppConversationInfo]
    split
    · rfl
    split
    · rfl
    · split
      · rfl
      · split <;> split <;> rfl
  rw [base, saveBase, OrderedDict.get_set]

variable {db : Database υ}

/-- Saving fails for a caller who is not entitled. -/
theorem save_refuses {context : UserContext υ} {info : AppConversationInfo υ}
    (caller : callerOf context info ≠ none) (refused : ¬Entitled platform context info db) :
    ∃ error, (saveAppConversationInfo platform context info db).2 = .error error := by
  obtain ⟨userIdStr, called⟩ := ne_none_iff_exists'.mp caller
  have tables : (saveBase platform info db).users = db.users ∧
      (saveBase platform info db).saas = db.saas ∧
      (saveBase platform info db).orgs = db.orgs := ⟨rfl, rfl, rfl⟩
  rw [saveAppConversationInfo]
  simp only [called, tables]
  cases parsed : platform.readUuid userIdStr with
  | none => exact ⟨_, rfl⟩
  | some userId =>
    cases found : db.users userId with
    | none => exact ⟨.assertion, by simp [found]⟩
    | some user =>
      have determined : Determines platform context info db userId (context.orgId user) :=
        ⟨userIdStr, user, called, parsed, found, rfl⟩
      cases record : db.saas (platform.text info.id) with
      | none =>
        have missing : db.orgs (context.orgId user) = false := by
          by_contra exists_
          apply refused
          refine ⟨userId, context.orgId user, determined, ?_⟩
          rw [record]
          simpa using exists_
        exact ⟨.integrity, by simp [found, missing]⟩
      | some existing =>
        have differs : ¬(existing.userId = userId ∧ existing.orgId = context.orgId user) := by
          intro same
          apply refused
          refine ⟨userId, context.orgId user, determined, ?_⟩
          rw [record]
          exact same
        exact ⟨.assertion, by simp [found, differs]⟩

/-- Saving succeeds for nobody and for an entitled caller. -/
theorem save_succeeds {context : UserContext υ} {info : AppConversationInfo υ}
    (allowed : callerOf context info = none ∨ Entitled platform context info db) :
    (saveAppConversationInfo platform context info db).2 = .ok info := by
  have tables : (saveBase platform info db).users = db.users ∧
      (saveBase platform info db).saas = db.saas ∧
      (saveBase platform info db).orgs = db.orgs := ⟨rfl, rfl, rfl⟩
  rw [saveAppConversationInfo]
  rcases allowed with nobody | ⟨userId, orgId, ⟨userIdStr, user, called, parsed, found, rfl⟩, owned⟩
  · simp [nobody]
  simp only [called, parsed, tables, found]
  cases record : db.saas (platform.text info.id) with
  | none =>
    rw [record] at owned
    simp [owned]
  | some existing =>
    rw [record] at owned
    simp [owned]

/-- Saving keeps the conversations of others exactly when nobody is determined, the
call is entitled, or nothing changes. -/
theorem save_keeps_iff (db : Database υ) : SaveKeeps platform context info db ↔
      callerOf context info = none ∨ Entitled platform context info db ∨
        AlreadySaved platform info db := by
  constructor
  · rintro ⟨kept, _⟩
    by_cases caller : callerOf context info = none
    · exact .inl caller
    by_cases entitled : Entitled platform context info db
    · exact .inr (.inl entitled)
    obtain ⟨error, raised⟩ := save_refuses _ caller entitled
    have unchanged := kept error raised (platform.text info.id)
    rw [save_metadata, if_pos rfl] at unchanged
    exact .inr (.inr unchanged.symm)
  · intro condition
    have unchanged (saved : AlreadySaved platform info db) (key : String) :
        (saveAppConversationInfo platform context info db).1.metadata.get key =
          db.metadata.get key := by
      rw [save_metadata]
      split
      · rename_i same
        rw [same]
        exact saved.symm
      · rfl
    have succeeds (allowed : callerOf context info = none ∨
        Entitled platform context info db) (error : SaveError) :
        (saveAppConversationInfo platform context info db).2 ≠ .error error := by
      rw [save_succeeds _ allowed]
      simp
    constructor
    · intro error raised key
      rcases condition with nobody | entitled | saved
      · exact absurd raised (succeeds (.inl nobody) error)
      · exact absurd raised (succeeds (.inr entitled) error)
      · exact unchanged saved key
    · intro key record userId orgId owned determined differs
      rcases condition with nobody | ⟨caller, callerOrg, alsoDetermined, owner⟩ | saved
      · obtain ⟨userIdStr, _, called, _⟩ := determined
        exact absurd (called.symm.trans nobody) (by simp)
      · rw [save_metadata]
        split
        · rename_i same
          -- The record under this key is the caller's, so nobody else is determined.
          obtain ⟨userIdStr, user, called, parsed, found, rfl⟩ := determined
          obtain ⟨otherStr, other, alsoCalled, alsoParsed, alsoFound, rfl⟩ := alsoDetermined
          obtain rfl := some.inj (called.symm.trans alsoCalled)
          obtain rfl := some.inj (parsed.symm.trans alsoParsed)
          obtain rfl := some.inj (found.symm.trans alsoFound)
          rw [← same, owned] at owner
          rcases differs with user | org
          · exact absurd owner.1 user
          · exact absurd owner.2 org
        · rfl
      · exact unchanged saved key

/-! ## The webhook -/

/-- A text that is not empty. -/
theorem truthy_eq_some_iff (text : Option String) (name : String) :
    truthy text = some name ↔ text = some name ∧ name ≠ "" := by
  cases text with
  | none => simp [truthy]
  | some value =>
    simp [truthy]

variable {record : StoredConversationMetadataSaas υ} {owner : String}

/-- A conversation that is not visible to the owner is replaced by a stub. -/
theorem valid_conversation_stub {id : υ} (box : SandboxInfo) (instants : Instants)
    (named : owner ≠ "") {userId : υ} (parsed : platform.readUuid owner = some userId)
    (owned : db.saas (platform.text id) = some record) (hidden : record.userId ≠ userId ∨
      ∃ user, db.users userId = some user ∧ record.orgId ≠ user.currentOrgId) :
    validConversation platform id box instants (.specify (some owner)) db =
      some (stub id box instants) := by
  have visible : ∃ filter, accessFilter platform (.specify (some owner)) db = some filter ∧
        filter record = false := by
    have caller : truthy (UserContext.specify (some owner) : UserContext υ).getUserId =
        some owner := (truthy_eq_some_iff _ _).mpr ⟨rfl, named⟩
    simp only [accessFilter, UserContext.isAdmin, caller, parsed, Bool.false_eq_true, if_false]
    cases found : db.users userId with
    | none =>
      refine ⟨_, rfl, ?_⟩
      rcases hidden with other | ⟨user, alsoFound, _⟩
      · simp [other]
      · exact absurd (found.symm.trans alsoFound) (by simp)
    | some user =>
      refine ⟨_, rfl, ?_⟩
      rcases hidden with other | ⟨current, alsoFound, elsewhere⟩
      · simp [other]
      · obtain rfl := some.inj (found.symm.trans alsoFound)
        simp [elsewhere]
  obtain ⟨filter, access, refused⟩ := visible
  have unseen : getAppConversationInfo platform (.specify (some owner)) id db = some none := by
    simp only [getAppConversationInfo, access, bind_eq_bind, bind_some]
    cases db.metadata.get (platform.text id) with
    | none => rfl
    | some row =>
      have hiddenRow : selected filter db (platform.text id) row = none := by
        simp [selected, owned, Option.filter, refused]
      simp [hiddenRow]
  simp [validConversation, unseen]

variable (instants : Instants)

/-- Without a readable owner, or for a deletion, the webhook changes nothing. -/
theorem webhook_idle (db : Database υ)
    (idle : conversation.deleting = true ∨ ∀ userId, ¬OwnerIs platform sandbox userId) :
    (onConversationUpdate platform conversation sandbox instants db).1 = db := by
  cases sandbox with
  | none => rfl
  | some box =>
    simp only [onConversationUpdate]
    cases owner : truthy box.createdByUserId with
    | none => rfl
    | some name =>
      cases valid : validConversation platform conversation.id box instants
          (.specify (some name)) db with
      | none => simp [valid]
      | some existing =>
        rcases idle with deleting | unowned
        · simp [valid, deleting]
        have unread : platform.readUuid name = none := by
          by_contra read
          obtain ⟨userId, parsed⟩ := ne_none_iff_exists'.mp read
          exact unowned userId ⟨box, name, rfl, owner, parsed⟩
        have named := ((truthy_eq_some_iff _ _).mp owner).2
        have caller : truthy (UserContext.specify (some name) : UserContext υ).getUserId =
            some name := (truthy_eq_some_iff _ _).mpr ⟨rfl, named⟩
        have refused : accessFilter platform (.specify (some name)) db = none := by
          simp [accessFilter, UserContext.isAdmin, caller, unread]
        simp [validConversation, getAppConversationInfo, refused] at valid

variable {box : SandboxInfo} (named : truthy box.createdByUserId = some owner)

include named in
/-- A report that is not refused is saved, whatever saving returns. -/
theorem webhook_saved {instants : Instants} {existing : AppConversationInfo υ}
    (valid : validConversation platform conversation.id box instants (.specify (some owner))
      db = some existing) (active : conversation.deleting = false) :
    (onConversationUpdate platform conversation (some box) instants db).1 =
      (saveAppConversationInfo platform (.specify (some owner))
        (reported platform conversation box instants existing) db).1 := by
  simp only [onConversationUpdate, named, valid, active, Bool.false_eq_true, if_false]
  split
  · rename_i saved
    rw [saved]
  · rename_i saved
    rw [saved]

/-- A report about another conversation than the one under a key leaves it. -/
theorem webhook_elsewhere (conversation : ConversationInfo υ) (sandbox : Option SandboxInfo)
    (instants : Instants) (db : Database υ) (key : String)
    (elsewhere : key ≠ platform.text conversation.id) :
    (onConversationUpdate platform conversation sandbox instants db).1.metadata.get key =
      db.metadata.get key := by
  cases sandbox with
  | none => rfl
  | some box =>
    cases named : truthy box.createdByUserId with
    | none => simp [onConversationUpdate, named]
    | some owner =>
      cases valid : validConversation platform conversation.id box instants
          (.specify (some owner)) db with
      | none => simp [onConversationUpdate, named, valid]
      | some existing =>
        cases active : conversation.deleting with
        | true => simp [onConversationUpdate, named, valid, active]
        | false =>
          rw [webhook_saved _ named valid
            active, save_metadata]
          exact if_neg elsewhere

include named in
/-- A report about a conversation the owner does not see leaves the row of a stub. -/
theorem webhook_hidden {userId : υ} {row : StoredConversationMetadata}
    (parsed : platform.readUuid owner = some userId) (active : conversation.deleting = false)
    (stored : db.metadata.get (platform.text conversation.id) = some row)
    (owned : db.saas (platform.text conversation.id) = some record)
    (hidden : record.userId ≠ userId ∨
      ∃ user, db.users userId = some user ∧ record.orgId ≠ user.currentOrgId) :
    (onConversationUpdate platform conversation (some box) instants db).1.metadata.get
        (platform.text conversation.id) =
      some (stubRow platform conversation box instants row) := by
  have stubbed := valid_conversation_stub platform box instants
    ((truthy_eq_some_iff _ _).mp named).2 parsed owned hidden
  have same : (reported platform conversation box instants
      (stub conversation.id box instants)).id = conversation.id := rfl
  rw [webhook_saved _ named stubbed active, save_metadata, same, if_pos rfl, stored]
  rfl

omit [DecidableEq υ] in
theorem owner_is_unique {first second : υ} (one : OwnerIs platform sandbox first)
    (two : OwnerIs platform sandbox second) : first = second := by
  obtain ⟨box, owner, given, named, parsed⟩ := one
  obtain ⟨other, name, alsoGiven, alsoNamed, alsoParsed⟩ := two
  obtain rfl := some.inj (given.symm.trans alsoGiven)
  obtain rfl := some.inj (named.symm.trans alsoNamed)
  exact some.inj (parsed.symm.trans alsoParsed)

/-- The webhook keeps the conversations of others exactly when its report is harmless. -/
theorem webhook_keeps_iff (conversation : ConversationInfo υ) (sandbox : Option SandboxInfo)
    (instants : Instants) (db : Database υ) :
    WebhookKeeps platform conversation sandbox instants db ↔
      ReportHarmless platform conversation sandbox instants db := by
  constructor
  · rintro keeps box owner userId row record rfl named parsed active stored owned
    obtain ⟨others, switched⟩ := keeps _ row record stored owned
    have owner_is : OwnerIs platform (some box) userId := ⟨box, owner, rfl, named, parsed⟩
    have left := webhook_hidden platform instants named parsed active stored owned
    constructor
    · intro differs
      have foreign : ¬OwnerIs platform (some box) record.userId := fun same =>
        differs (owner_is_unique _ same owner_is)
      have kept := others foreign
      rw [left (.inl differs)] at kept
      exact some.inj kept
    · rintro user rfl found elsewhere
      obtain ⟨after, changed, same⟩ := switched user owner_is found elsewhere
      rw [left (.inr ⟨user, found, elsewhere⟩)] at changed
      obtain rfl := some.inj changed
      exact same
  · intro harmless key row record stored owned
    by_cases elsewhere : key ≠ platform.text conversation.id
    · have unchanged := webhook_elsewhere platform conversation sandbox instants db key
        elsewhere
      rw [unchanged, stored]
      exact ⟨fun _ => rfl, fun user _ _ _ => ⟨row, rfl, rfl, rfl, rfl, rfl, rfl⟩⟩
    · obtain rfl := not_not.mp elsewhere
      by_cases idle : conversation.deleting = true ∨ ∀ userId, ¬OwnerIs platform sandbox userId
      · rw [webhook_idle _ _ db idle, stored]
        exact ⟨fun _ => rfl, fun user _ _ _ => ⟨row, rfl, rfl, rfl, rfl, rfl, rfl⟩⟩
      obtain ⟨active, someone⟩ := not_or.mp idle
      obtain ⟨userId, owner_is⟩ := not_forall_not.mp someone
      obtain ⟨box, owner, rfl, named, parsed⟩ := owner_is
      have owner_is : OwnerIs platform (some box) userId := ⟨box, owner, rfl, named, parsed⟩
      have active : conversation.deleting = false := by simpa using active
      have left := webhook_hidden platform instants named parsed active stored owned
      obtain ⟨others, switched⟩ := harmless box owner userId row record rfl named parsed active
        stored owned
      constructor
      · intro foreign
        have differs : record.userId ≠ userId := fun same => foreign (same ▸ owner_is)
        rw [left (.inl differs), others differs]
      · intro user mine found elsewhere
        obtain rfl := owner_is_unique _ mine owner_is
        exact ⟨_, left (.inr ⟨user, found, elsewhere⟩), switched user rfl found elsewhere⟩

/-- Saving, and through it the webhook, keeps the conversations of other users and
organisations exactly for nobody, for entitled callers, for harmless reports and where
nothing changes. -/
theorem ownership_exact :
    (∀ (context : UserContext υ) (info : AppConversationInfo υ) (database : Database υ),
      SaveKeeps platform context info database ↔
        callerOf context info = none ∨ Entitled platform context info database ∨
          AlreadySaved platform info database) ∧
    ∀ (conversation : ConversationInfo υ) (sandbox : Option SandboxInfo) (instants : Instants)
      (database : Database υ),
      WebhookKeeps platform conversation sandbox instants database ↔
        ReportHarmless platform conversation sandbox instants database := by
  constructor
  · exact save_keeps_iff _
  · exact webhook_keeps_iff _

/-! ## A conversation of another user -/

/-- Identifiers in their canonical spelling. -/
def canonicalPlatform : Platform String where
  readUuid text := some text
  text id := id
  hex id := String.ofList (id.toList.filter (· ≠ '-'))
  defaultMetrics := ⟨0, none, none⟩
  defaultUsage := ⟨0, 0, 0, 0, 0, 0⟩
  readMetrics _ := some ⟨0, none, none⟩

/-- A conversation with a title and a repository. -/
def plannedRow : StoredConversationMetadata :=
  { merged canonicalPlatform
      { id := "cccccccc-cccc-4ccc-8ccc-cccccccccccc", createdByUserId := none
        sandboxId := "sandbox-1", createdAt := 1, updatedAt := 1 } none with
    title := some "Release plan"
    selectedRepository := some "team/product" }

/-- One conversation, which belongs to one of two users. -/
def sharedDatabase : Database String where
  metadata := ⟨[("cccccccc-cccc-4ccc-8ccc-cccccccccccc", plannedRow)], by decide⟩
  saas key :=
    if key = "cccccccc-cccc-4ccc-8ccc-cccccccccccc" then
      some ⟨"aaaaaaaa-aaaa-4aaa-8aaa-aaaaaaaaaaaa", "dddddddd-dddd-4ddd-8ddd-dddddddddddd"⟩
    else none
  users userId :=
    if userId = "aaaaaaaa-aaaa-4aaa-8aaa-aaaaaaaaaaaa" ∨
        userId = "bbbbbbbb-bbbb-4bbb-8bbb-bbbbbbbbbbbb" then
      some ⟨"dddddddd-dddd-4ddd-8ddd-dddddddddddd"⟩
    else none
  orgs _ := true

/-- What the sandbox of the other user reports about the conversation. -/
def foreignReport : ConversationInfo String where
  id := "cccccccc-cccc-4ccc-8ccc-cccccccccccc"
  deleting := false
  tags := none
  llmModel := "model"
  combinedMetrics := ⟨0, none, none⟩

/-- The sandbox of the other user. -/
def foreignSandbox : SandboxInfo where
  id := "sandbox-2"
  createdByUserId := some "bbbbbbbb-bbbb-4bbb-8bbb-bbbbbbbbbbbb"

/-- A report of the other user's sandbox raises, and has replaced title and repository. -/
theorem foreign_report_overwrites :
    (onConversationUpdate canonicalPlatform foreignReport (some foreignSandbox) ⟨2, 2⟩
      sharedDatabase).2 = false ∧
    ¬WebhookKeeps canonicalPlatform foreignReport (some foreignSandbox) ⟨2, 2⟩ sharedDatabase ∧
    ¬SaveKeeps canonicalPlatform (.specify foreignSandbox.createdByUserId)
      (reported canonicalPlatform foreignReport foreignSandbox ⟨2, 2⟩
        (stub foreignReport.id foreignSandbox ⟨2, 2⟩)) sharedDatabase := by
  refine ⟨by decide, ?_, ?_⟩
  · intro keeps
    have harmless := (webhook_keeps_iff ..).mp keeps foreignSandbox "bbbbbbbb-bbbb-4bbb-8bbb-bbbbbbbbbbbb"
      "bbbbbbbb-bbbb-4bbb-8bbb-bbbbbbbbbbbb" plannedRow
      ⟨"aaaaaaaa-aaaa-4aaa-8aaa-aaaaaaaaaaaa", "dddddddd-dddd-4ddd-8ddd-dddddddddddd"⟩ rfl
      (by decide) rfl rfl rfl (by decide)
    have title := congrArg StoredConversationMetadata.title (harmless.1 (by decide))
    revert title
    decide
  · intro keeps
    rcases (save_keeps_iff ..).mp keeps with
      nobody | ⟨userId, orgId, ⟨userIdStr, user, called, parsed, _⟩, owned⟩ | saved
    · revert nobody
      decide
    · have caller : callerOf (.specify foreignSandbox.createdByUserId)
          (reported canonicalPlatform foreignReport foreignSandbox ⟨2, 2⟩
            (stub foreignReport.id foreignSandbox ⟨2, 2⟩)) =
          some "bbbbbbbb-bbbb-4bbb-8bbb-bbbbbbbbbbbb" := by decide
      obtain rfl := Option.some.inj (caller.symm.trans called)
      obtain rfl : "bbbbbbbb-bbbb-4bbb-8bbb-bbbbbbbbbbbb" = userId := Option.some.inj parsed
      have differs : "aaaaaaaa-aaaa-4aaa-8aaa-aaaaaaaaaaaa" =
          "bbbbbbbb-bbbb-4bbb-8bbb-bbbbbbbbbbbb" := owned.1
      revert differs
      decide
    · have title := congrArg (fun row => row.bind StoredConversationMetadata.title) saved
      revert title
      decide

end ForgePilot.Conversations
