import ForgePilot.ConversationCosts
import ForgePilot.ConversationInfo

/-!
# Writers of conversation metadata

The row of a conversation is written by the webhook of its sandbox, by events with
statistics, by the poll of the agent servers, by the callback that sets the title, and by
the requests of users. All of them but the events read the conversation, change their copy
and write every column from it.

Here every row may be seen, as in a deployment without users. What an agent server answers
is part of a write, and so is the time at which it happens. Checking the name of a branch
is left to a program and is a parameter.
-/

namespace ForgePilot.ConversationUpdates

open Conversations Runs List OrderedDict Option

abbrev Metadata := OrderedDict String StoredConversationMetadata

variable {υ : Type} (platform : Platform υ)

/-! ## The store -/

/-- Read a row; `none` when a value cannot be read. -/
def toInfo (key : String) (stored : StoredConversationMetadata) (subConversationIds : List υ) :
    Option (AppConversationInfo υ) := do
  let sandboxId ← stored.sandboxId
  let metrics ← platform.readMetrics stored
  let id ← platform.readUuid key
  let gitProvider ← (truthy stored.gitProvider).mapM ProviderType.ofValue
  let trigger ← (truthy stored.trigger).mapM ConversationTrigger.ofValue
  let parentConversationId ← (truthy stored.parentConversationId).mapM platform.readUuid
  return {
    id
    createdByUserId := none
    sandboxId
    selectedRepository := stored.selectedRepository
    selectedBranch := stored.selectedBranch
    gitProvider
    title := stored.title
    trigger
    prNumber := stored.prNumber
    llmModel := stored.llmModel
    metrics := some metrics
    parentConversationId
    subConversationIds
    isPublic := stored.isPublic
    tags := stored.tags.getD .empty
    createdAt := stored.createdAt
    updatedAt := stored.lastUpdatedAt }

/-- The conversations below another one. -/
def getSubConversationIds (parentConversationId : υ) (metadata : Metadata) : Option (List υ) :=
  (metadata.entries.filter (fun entry => entry.2.conversationVersion = "V1" ∧
    entry.2.parentConversationId = some (platform.text parentConversationId))).mapM
      (fun entry => platform.readUuid entry.1)

/-- The conversation under an identifier: an exception, nothing, or the conversation. -/
def getAppConversationInfo (conversationId : υ) (metadata : Metadata) :
    Option (Option (AppConversationInfo υ)) :=
  match metadata.get (platform.text conversationId) with
  | none => some none
  | some stored =>
      if stored.conversationVersion = "V1" then do
        let subConversationIds ← getSubConversationIds platform conversationId metadata
        let info ← toInfo platform (platform.text conversationId) stored subConversationIds
        return some info
      else some none

/-- Write every column of a conversation. -/
def saveAppConversationInfo (info : AppConversationInfo υ) (metadata : Metadata) : Metadata :=
  metadata.set (platform.text info.id)
    (merged platform info (metadata.get (platform.text info.id)))

/-- The metric columns after statistics about the use by the agent. -/
def withStatistics (agentMetrics : ConversationCosts.Metrics Float) (now : Nat)
    (stored : StoredConversationMetadata) : StoredConversationMetadata :=
  let written :=
    { stored with
      accumulatedCost := some agentMetrics.accumulatedCost
      maxBudgetPerTask := agentMetrics.maxBudgetPerTask.or stored.maxBudgetPerTask
      lastUpdatedAt := now }
  match agentMetrics.accumulatedTokenUsage with
  | none => written
  | some usage =>
      { written with
        promptTokens := some usage.promptTokens
        completionTokens := some usage.completionTokens
        cacheReadTokens := some usage.cacheReadTokens
        cacheWriteTokens := some usage.cacheWriteTokens
        reasoningTokens := some usage.reasoningTokens
        contextWindow := some usage.contextWindow
        perTurnToken := some usage.perTurnToken }

/-- Statistics update the metric columns of a conversation that is there. -/
def updateConversationStatistics (conversationId : υ)
    (stats : ConversationCosts.ConversationStats Float) (now : Nat) (metadata : Metadata) :
    Metadata :=
  match stats.usageToMetrics.get "agent" with
  | none => metadata
  | some agentMetrics =>
      match metadata.get (platform.text conversationId) with
      | none => metadata
      | some stored =>
          if stored.conversationVersion = "V1" then
            metadata.set (platform.text conversationId) (withStatistics agentMetrics now stored)
          else metadata

/-! ## The writers -/

/-- An event with statistics; `none` is a value that cannot be read. -/
def processStatsEvent (conversationId : υ)
    (value : Option (ConversationCosts.ConversationStats Float)) (now : Nat)
    (metadata : Metadata) : Metadata :=
  match value with
  | none => metadata
  | some stats =>
      if stats.usageToMetrics.entries = [] then metadata
      else updateConversationStatistics platform conversationId stats now metadata

/-- The conversation of a webhook, or a stub for it; `none` when it was created by someone
else. -/
def validConversation (conversationId : υ) (sandbox : SandboxInfo) (instants : Instants)
    (metadata : Metadata) : Option (AppConversationInfo υ) := do
  match ← getAppConversationInfo platform conversationId metadata with
  | none => return stub conversationId sandbox instants
  | some info => if info.createdByUserId ≠ sandbox.createdByUserId then none else some info

/-- The report of a sandbox about a conversation. -/
def onConversationUpdate (conversation : ConversationInfo υ) (sandbox : SandboxInfo)
    (instants : Instants) (metadata : Metadata) : Metadata :=
  match validConversation platform conversation.id sandbox instants metadata with
  | none => metadata
  | some existing =>
      if conversation.deleting then metadata
      else saveAppConversationInfo platform
        (reported platform conversation sandbox instants existing) metadata

/-- What an agent server answers about a conversation; combining its metrics may fail. -/
structure AgentServerAnswer where
  updatedAt : Nat
  combinedMetrics : Option MetricsSnapshot

/-- Refresh the conversation that the poll has read; `none` is an answer that cannot be
read. -/
def refreshConversation (conversationId : υ) (answer : Option AgentServerAnswer)
    (metadata : Metadata) : Metadata :=
  match getAppConversationInfo platform conversationId metadata, answer with
  | some (some info), some answer =>
      saveAppConversationInfo platform
        { info with
          updatedAt := answer.updatedAt
          metrics := answer.combinedMetrics.or info.metrics } metadata
  | _, _ => metadata

/-- Set the title of a conversation when the agent server has found one. -/
def setTitle (conversationId : υ) (title : Option String) (metadata : Metadata) : Metadata :=
  match getAppConversationInfo platform conversationId metadata, truthy title with
  | some (some info), some title =>
      saveAppConversationInfo platform { info with title := some title } metadata
  | _, _ => metadata

/-- The request to change a conversation, with the fields that are set. -/
structure AppConversationUpdateRequest where
  isPublic : Option (Option Bool) := none
  selectedRepository : Option (Option String) := none
  selectedBranch : Option (Option String) := none
  gitProvider : Option (Option ProviderType) := none

/-- Check the repository and the branch of a request. -/
def validateRepositoryUpdate (isValidGitBranchName : String → Bool)
    (request : AppConversationUpdateRequest) : Except String Unit := do
  match request.selectedRepository with
  | none => pure ()
  | some (some repo) =>
      if repo.toList.count '/' ≠ 1 then
        throw ("Invalid repository format: '" ++ repo ++ "'. Expected 'owner/repo'.")
      if repo.toList.any (fun character => character ∈ ";&|$`\n\r".toList) then
        throw ("Invalid characters in repository name: '" ++ repo ++ "'")
  | some none =>
      if request.selectedBranch.join.isSome then
        throw "When removing repository, branch must also be cleared"
      if request.gitProvider.join.isSome then
        throw "When removing repository, git_provider must also be cleared"
  match request.selectedBranch.join with
  | none => pure ()
  | some branch =>
      if ¬(branch ≠ "" ∧ isValidGitBranchName branch) then
        throw ("Invalid git branch name. Common GitHub/GitLab/Bitbucket branch names look like " ++
          "'main', 'feature/foo', or 'release/1.2.3'.")

/-- How the request to change a conversation ends. -/
inductive UpdateResult (υ : Type) where
  | failed
  | missing
  | refused (message : String)
  | updated (info : AppConversationInfo υ)

/-- Change the fields that are set. -/
def updateAppConversation (isValidGitBranchName : String → Bool) (conversationId : υ)
    (request : AppConversationUpdateRequest) (metadata : Metadata) : Metadata × UpdateResult υ :=
  match getAppConversationInfo platform conversationId metadata with
  | none => (metadata, .failed)
  | some none => (metadata, .missing)
  | some (some info) =>
      match validateRepositoryUpdate isValidGitBranchName request with
      | .error message => (metadata, .refused message)
      | .ok () =>
          let changed :=
            { info with
              isPublic := request.isPublic.getD info.isPublic
              selectedRepository := request.selectedRepository.getD info.selectedRepository
              selectedBranch := request.selectedBranch.getD info.selectedBranch
              gitProvider := request.gitProvider.getD info.gitProvider }
          (saveAppConversationInfo platform changed metadata, .updated changed)

inductive Write (υ : Type) where
  | webhook (conversation : ConversationInfo υ) (sandbox : SandboxInfo) (instants : Instants)
  | statsEvent (conversationId : υ) (value : Option (ConversationCosts.ConversationStats Float))
      (now : Nat)
  | refresh (conversationId : υ) (answer : Option AgentServerAnswer)
  | setTitle (conversationId : υ) (title : Option String)

def Write.conversationId : Write υ → υ
  | .webhook conversation _ _ => conversation.id
  | .statsEvent conversationId _ _ => conversationId
  | .refresh conversationId _ => conversationId
  | .setTitle conversationId _ => conversationId

/-- The table after a write in the background. -/
def perform (metadata : Metadata) : Write υ → Metadata
  | .webhook conversation sandbox instants =>
      onConversationUpdate platform conversation sandbox instants metadata
  | .statsEvent conversationId value now =>
      processStatsEvent platform conversationId value now metadata
  | .refresh conversationId answer => refreshConversation platform conversationId answer metadata
  | .setTitle conversationId title => setTitle platform conversationId title metadata

/-! ## What is kept -/

/-- Identifiers are read back from their texts, which are not empty. -/
structure Readable : Prop where
  back : ∀ id : υ, platform.readUuid (platform.text id) = some id
  filled : ∀ id : υ, platform.text id ≠ ""

/-- A row as the service stores it. -/
structure Stored (stored : StoredConversationMetadata) : Prop where
  version : stored.conversationVersion = "V1"
  gitProvider : ∃ provider : Option ProviderType,
    stored.gitProvider = provider.map ProviderType.value
  trigger : ∃ trigger : Option ConversationTrigger,
    stored.trigger = trigger.map ConversationTrigger.value
  parent : ∃ parent : Option υ, stored.parentConversationId = parent.map platform.text

def tag (stored : StoredConversationMetadata) (name : String) : Option String :=
  (stored.tags.getD .empty).get name

/-- One row has the metadata of another one, except for tags that are overridden and for a
trigger where there was none. -/
structure Frame (overridden : List String) (before after : StoredConversationMetadata) :
    Prop where
  createdAt : after.createdAt = before.createdAt
  isPublic : after.isPublic = before.isPublic
  selectedRepository : after.selectedRepository = before.selectedRepository
  selectedBranch : after.selectedBranch = before.selectedBranch
  gitProvider : after.gitProvider = before.gitProvider
  prNumber : after.prNumber = before.prNumber
  parent : after.parentConversationId = before.parentConversationId
  tags : ∀ name ∉ overridden, tag after name = tag before name
  trigger : before.trigger ≠ none → after.trigger = before.trigger

/-- What a user asks for, and nothing else. -/
structure Changed (request : AppConversationUpdateRequest)
    (before after : StoredConversationMetadata) : Prop where
  createdAt : after.createdAt = before.createdAt
  isPublic : after.isPublic = request.isPublic.getD before.isPublic
  selectedRepository :
    after.selectedRepository = request.selectedRepository.getD before.selectedRepository
  selectedBranch : after.selectedBranch = request.selectedBranch.getD before.selectedBranch
  gitProvider : after.gitProvider =
    (request.gitProvider.map (Option.map ProviderType.value)).getD before.gitProvider
  prNumber : after.prNumber = before.prNumber
  parent : after.parentConversationId = before.parentConversationId
  tags : ∀ name, tag after name = tag before name
  trigger : after.trigger = before.trigger

/-- A webhook about the conversation that is not about its deletion finds it neither public nor
private, and records it at the instant of its creation. -/
def Harmless (id : υ) (metadata : Metadata) : Write υ → Prop
  | .webhook conversation sandbox instants =>
      conversation.id = id → conversation.deleting = false →
        ∀ existing, validConversation platform id sandbox instants metadata = some existing →
          existing.isPublic = none ∧ existing.createdAt = instants.createdAt
  | _ => True

def Write.tags : Write υ → List String
  | .webhook conversation _ _ => (conversation.tags.getD .empty).keys
  | _ => []

/-- The tags that writes bring for a conversation. -/
def incoming [DecidableEq υ] (id : υ) (writes : List (Write υ)) : List String :=
  writes.flatMap (fun write => if write.conversationId = id then write.tags else [])

namespace Frame

/-- A row has its own metadata. -/
theorem refl (overridden : List String) (stored : StoredConversationMetadata) :
    Frame overridden stored stored :=
  ⟨rfl, rfl, rfl, rfl, rfl, rfl, rfl, fun _ _ => rfl, fun _ => rfl⟩

/-- What two writes keep, they keep together. -/
theorem trans {first second : List String} {before between after : StoredConversationMetadata}
    (prior : Frame first before between) (later : Frame second between after) :
    Frame (first ++ second) before after where
  createdAt := later.createdAt.trans prior.createdAt
  isPublic := later.isPublic.trans prior.isPublic
  selectedRepository := later.selectedRepository.trans prior.selectedRepository
  selectedBranch := later.selectedBranch.trans prior.selectedBranch
  gitProvider := later.gitProvider.trans prior.gitProvider
  prNumber := later.prNumber.trans prior.prNumber
  parent := later.parent.trans prior.parent
  tags := by
    intro name absent
    rw [mem_append, not_or] at absent
    exact (later.tags name absent.2).trans (prior.tags name absent.1)
  trigger := by
    intro set
    have kept := prior.trigger set
    exact (later.trigger (kept ▸ set)).trans kept

end Frame

/-! ## Reading and saving -/

/-- A hosting service is read back from its spelling. -/
theorem provider_back (provider : Option ProviderType) :
    (truthy (provider.map ProviderType.value)).mapM ProviderType.ofValue = some provider := by
  cases provider with
  | none => rfl
  | some provider => cases provider <;> decide

theorem trigger_back (trigger : Option ConversationTrigger) :
    (truthy (trigger.map ConversationTrigger.value)).mapM ConversationTrigger.ofValue =
      some trigger := by
  cases trigger with
  | none => rfl
  | some trigger => cases trigger <;> decide

theorem parent_back (readable : Readable platform) (parent : Option υ) :
    (truthy (parent.map platform.text)).mapM platform.readUuid = some parent := by
  cases parent with
  | none => rfl
  | some parent =>
    have kept : truthy (some (platform.text parent)) = some (platform.text parent) := by
      simp [truthy, readable.filled parent]
    rw [map_some, kept, mapM_some, readable.back parent]
    rfl

/-- A conversation has the metadata of a row, except for tags that are overridden and for a
trigger where there was none. -/
structure Carries (overridden : List String) (info : AppConversationInfo υ)
    (stored : StoredConversationMetadata) : Prop where
  createdAt : info.createdAt = stored.createdAt
  isPublic : info.isPublic = stored.isPublic
  selectedRepository : info.selectedRepository = stored.selectedRepository
  selectedBranch : info.selectedBranch = stored.selectedBranch
  gitProvider : info.gitProvider.map ProviderType.value = stored.gitProvider
  prNumber : info.prNumber = stored.prNumber
  parent : info.parentConversationId.map platform.text = stored.parentConversationId
  tags : ∀ name ∉ overridden, info.tags.get name = tag stored name
  trigger : stored.trigger ≠ none →
    info.trigger.map ConversationTrigger.value = stored.trigger

structure Read (id : υ) (info : AppConversationInfo υ) (stored : StoredConversationMetadata) :
    Prop where
  id : info.id = id
  createdByUserId : info.createdByUserId = none
  carries : Carries platform [] info stored
  trigger : info.trigger.map ConversationTrigger.value = stored.trigger

theorem to_info_read (readable : Readable platform) {id : υ} {stored : StoredConversationMetadata}
    (intact : Stored platform stored) {children : List υ} {info : AppConversationInfo υ}
    (found : toInfo platform (platform.text id) stored children = some info) :
    Read platform id info stored := by
  obtain ⟨provider, providerStored⟩ := intact.gitProvider
  obtain ⟨trigger, triggerStored⟩ := intact.trigger
  obtain ⟨parent, parentStored⟩ := intact.parent
  rw [toInfo] at found
  rw [providerStored, triggerStored, parentStored, provider_back, trigger_back,
    parent_back _ readable, readable.back] at found
  cases sandboxId : stored.sandboxId with
  | none => simp [sandboxId] at found
  | some sandboxId' =>
    cases metrics : platform.readMetrics stored with
    | none => simp [sandboxId, metrics] at found
    | some metrics' =>
      simp only [sandboxId, metrics, Option.bind_eq_bind, Option.bind_some, Option.pure_def,
        Option.some.injEq] at found
      subst found
      exact ⟨rfl, rfl, ⟨rfl, rfl, rfl, rfl, providerStored.symm, rfl, parentStored.symm,
        fun _ _ => rfl, fun _ => triggerStored.symm⟩, triggerStored.symm⟩

/-- A conversation that is found under an identifier is read from its row. -/
theorem get_read (readable : Readable platform) {id : υ} {metadata : Metadata}
    {stored : StoredConversationMetadata}
    (located : metadata.get (platform.text id) = some stored) (intact : Stored platform stored)
    {result : Option (AppConversationInfo υ)}
    (found : getAppConversationInfo platform id metadata = some result) :
    ∃ info, result = some info ∧ Read platform id info stored := by
  rw [getAppConversationInfo, located] at found
  simp only [intact.version, if_true, Option.bind_eq_bind, Option.bind_eq_some_iff,
    Option.pure_def, Option.some.injEq] at found
  obtain ⟨children, -, info, read, rfl⟩ := found
  exact ⟨info, rfl, to_info_read _ readable intact read⟩

variable (agentMetrics : ConversationCosts.Metrics Float) (info : AppConversationInfo υ)
  (existing : Option StoredConversationMetadata)

/-- The tags of a saved row are those of the conversation. -/
theorem merged_tag (name : String) :
    tag (merged platform info existing) name = info.tags.get name := by
  unfold tag merged
  dsimp only
  split
  · rename_i bare
    change none = info.tags.get name
    rw [OrderedDict.get, bare]
    rfl
  · rfl

/-- What is saved is a row as the service stores it. -/
theorem merged_stored : Stored platform (merged platform info existing) :=
  ⟨rfl, ⟨info.gitProvider, rfl⟩, ⟨info.trigger, rfl⟩, ⟨info.parentConversationId, rfl⟩⟩

variable {overridden : List String}

/-- Saving a conversation that carries the metadata of a row keeps them. -/
theorem merged_frame {info : AppConversationInfo υ} {stored : StoredConversationMetadata}
    (carries : Carries platform overridden info stored)
    (existing : Option StoredConversationMetadata) :
    Frame overridden stored (merged platform info existing) where
  createdAt := carries.createdAt
  isPublic := carries.isPublic
  selectedRepository := carries.selectedRepository
  selectedBranch := carries.selectedBranch
  gitProvider := carries.gitProvider
  prNumber := carries.prNumber
  parent := carries.parent
  tags := fun name absent => (merged_tag ..).trans
    (carries.tags name absent)
  trigger := carries.trigger

/-- Statistics leave all metadata alone. -/
theorem statistics_frame (now : Nat) (stored : StoredConversationMetadata) :
    Frame [] stored (withStatistics agentMetrics now stored) := by
  rw [withStatistics]
  cases agentMetrics.accumulatedTokenUsage <;>
    exact ⟨rfl, rfl, rfl, rfl, rfl, rfl, rfl, fun _ _ => rfl, fun _ => rfl⟩

/-- Statistics leave a row as the service stores it. -/
theorem statistics_stored (now : Nat) (stored : StoredConversationMetadata)
    (intact : Stored platform stored) :
    Stored platform (withStatistics agentMetrics now stored) := by
  rw [withStatistics]
  cases agentMetrics.accumulatedTokenUsage <;>
    exact ⟨intact.version, intact.gitProvider, intact.trigger, intact.parent⟩

/-- Tags that do not come in keep their value. -/
theorem merge_tags (existing : OrderedDict String String)
    {conversationTags : Option (OrderedDict String String)} {name : String}
    (absent : name ∉ (conversationTags.getD .empty).keys) :
    (mergeConversationTags (some existing) conversationTags).get name = existing.get name := by
  have folded (entries : List (String × String)) (tags : OrderedDict String String)
      (missing : name ∉ entries.map Prod.fst) :
      (entries.foldl (fun tags entry => tags.set entry.1 entry.2) tags).get name =
        tags.get name := by
    induction entries generalizing tags with
    | nil => rfl
    | cons entry rest ih =>
      rw [map_cons, mem_cons, not_or] at missing
      rw [foldl_cons, ih _ missing.2, get_set, if_neg missing.1]
  exact folded _ _ absent

/-! ## The writers keep what they do not own -/

/-- The row of a conversation is there, as the service stores it, with the metadata of an
earlier one. -/
def Holds (id : υ) (overridden : List String) (before : StoredConversationMetadata)
    (metadata : Metadata) : Prop :=
  ∃ after, metadata.get (platform.text id) = some after ∧ Stored platform after ∧
    Frame overridden before after

/-- Saving a conversation that carries the metadata of its row keeps them. -/
theorem save_holds {id : υ} (metadata : Metadata) {info : AppConversationInfo υ}
    (named : info.id = id) {stored : StoredConversationMetadata}
    (carries : Carries platform overridden info stored) :
    Holds platform id overridden stored (saveAppConversationInfo platform info metadata) := by
  refine ⟨merged platform info (metadata.get (platform.text info.id)), ?_,
    merged_stored .., merged_frame _ carries _⟩
  rw [saveAppConversationInfo, named, get_set, if_pos rfl]

theorem statistics_holds {id : υ} {metadata : Metadata} {stored : StoredConversationMetadata}
    (located : metadata.get (platform.text id) = some stored) (intact : Stored platform stored)
    (value : Option (ConversationCosts.ConversationStats Float)) (now : Nat) :
    Holds platform id [] stored (processStatsEvent platform id value now metadata) := by
  have unchanged : Holds platform id [] stored metadata := ⟨stored, located, intact, Frame.refl ..⟩
  cases value with
  | none => exact unchanged
  | some stats =>
    unfold processStatsEvent updateConversationStatistics
    dsimp only
    split
    · exact unchanged
    split
    · exact unchanged
    rename_i agentMetrics present
    simp only [located, intact.version, if_true]
    refine ⟨withStatistics agentMetrics now stored, ?_, statistics_stored _ _ now _ intact,
      statistics_frame ..⟩
    rw [get_set, if_pos rfl]

section Writers

variable (readable : Readable platform)
include readable

theorem texts_apart {other id : υ} (different : other ≠ id) :
    platform.text id ≠ platform.text other := by
  intro same
  have read := congrArg platform.readUuid same
  rw [readable.back, readable.back] at read
  exact different (some.inj read).symm

/-- Saving a conversation leaves the row of every other one. -/
theorem save_other (id : υ) (metadata : Metadata) {info : AppConversationInfo υ}
    (other : info.id ≠ id) :
    (saveAppConversationInfo platform info metadata).get (platform.text id) =
      metadata.get (platform.text id) := by
  rw [saveAppConversationInfo, get_set, if_neg (texts_apart _ readable other)]

section Webhook

variable (id : υ) (metadata : Metadata) (stored : StoredConversationMetadata)
variable (located : metadata.get (platform.text id) = some stored)
variable (intact : Stored platform stored)
include located intact

variable {sandbox : SandboxInfo} {instants : Instants}

/-- The webhook finds the stored conversation. -/
theorem valid_read {info : AppConversationInfo υ}
    (valid : validConversation platform id sandbox instants metadata = some info) :
    Read platform id info stored := by
  rw [validConversation] at valid
  rw [bind_eq_bind, bind_eq_some_iff] at valid
  obtain ⟨result, found, rest⟩ := valid
  obtain ⟨existing, rfl, read⟩ := get_read _ readable located intact found
  dsimp only at rest
  split at rest
  · cases rest
  · cases rest
    exact read

/-- A harmless webhook keeps the metadata. -/
theorem webhook_holds {conversation : ConversationInfo υ} (about : conversation.id = id)
    (harmless : Harmless platform id metadata (.webhook conversation sandbox instants)) :
    Holds platform id (conversation.tags.getD .empty).keys stored
      (onConversationUpdate platform conversation sandbox instants metadata) := by
  subst about
  rw [onConversationUpdate]
  split
  · exact ⟨stored, located, intact, Frame.refl ..⟩
  rename_i existing valid
  split
  · exact ⟨stored, located, intact, Frame.refl ..⟩
  rename_i alive
  obtain ⟨undecided, created⟩ := harmless rfl (by simpa using alive) existing valid
  have read := valid_read _ readable _ _ _ located intact valid
  refine save_holds _ _ rfl ⟨?_, ?_, ?_, ?_, ?_, ?_, ?_, ?_, ?_⟩
  · exact created.symm.trans read.carries.createdAt
  · exact undecided.symm.trans read.carries.isPublic
  · exact read.carries.selectedRepository
  · exact read.carries.selectedBranch
  · exact read.carries.gitProvider
  · exact read.carries.prNumber
  · exact read.carries.parent
  · intro name absent
    exact (merge_tags _ absent).trans
      (read.carries.tags name not_mem_nil)
  · intro set
    have kept := read.trigger
    cases trigger : existing.trigger with
    | none =>
      rw [trigger] at kept
      exact absurd kept.symm set
    | some trigger' =>
      rw [trigger] at kept
      simp only [reported, detectAutomationTrigger, trigger]
      exact kept

theorem refresh_holds (answer : Option AgentServerAnswer) :
    Holds platform id [] stored (refreshConversation platform id answer metadata) := by
  unfold refreshConversation
  split
  · rename_i info answer' found
    obtain ⟨_, ⟨⟩, read⟩ := get_read _ readable located intact found
    obtain ⟨created, undecided, repository, branch, provider, numbers, parent, tags, trigger⟩ :=
      read.carries
    apply save_holds _ _
    · exact read.id
    · exact ⟨created, undecided, repository, branch, provider, numbers, parent, tags, trigger⟩
  · exact ⟨stored, located, intact, Frame.refl ..⟩

/-- Setting the title keeps the metadata. -/
theorem title_holds (title : Option String) :
    Holds platform id [] stored (setTitle platform id title metadata) := by
  rw [setTitle]
  split
  · rename_i info title' found _
    obtain ⟨_, ⟨⟩, read⟩ := get_read _ readable located intact found
    obtain ⟨created, undecided, repository, branch, provider, numbers, parent, tags, trigger⟩ :=
      read.carries
    apply save_holds _ _
    · exact read.id
    · exact ⟨created, undecided, repository, branch, provider, numbers, parent, tags, trigger⟩
  · exact ⟨stored, located, intact, Frame.refl ..⟩

end Webhook

/-- A conversation has the identifier it is found under. -/
theorem get_id {id : υ} {metadata : Metadata} {info : AppConversationInfo υ}
    (found : getAppConversationInfo platform id metadata = some (some info)) : info.id = id := by
  rw [getAppConversationInfo] at found
  split at found
  · cases found
  split at found
  · simp only [toInfo, readable.back, Option.bind_eq_bind, Option.bind_eq_some_iff,
      Option.pure_def, Option.some.injEq] at found
    obtain ⟨_, _, _, ⟨_, _, _, _, _, rfl, _, _, _, _, _, _, rfl⟩, rfl⟩ := found
    rfl
  · cases found

/-- A write about another conversation leaves the row. -/
theorem other_unchanged (id : υ) (metadata : Metadata) (write : Write υ)
    (other : write.conversationId ≠ id) :
    (perform platform metadata write).get (platform.text id) = metadata.get (platform.text id) := by
  cases write with
  | webhook conversation sandbox instants =>
    change (onConversationUpdate platform conversation sandbox instants metadata).get _ = _
    unfold onConversationUpdate
    split
    · rfl
    · split
      · rfl
      · exact save_other _ readable id _ other
  | statsEvent conversationId value now =>
    change (processStatsEvent platform conversationId value now metadata).get _ = _
    unfold processStatsEvent updateConversationStatistics
    split
    · rfl
    split
    · rfl
    split
    · rfl
    split
    · rfl
    split
    · exact (get_set ..).trans
        (if_neg (texts_apart _ readable other))
    · rfl
  | refresh conversationId answer =>
    change (refreshConversation platform conversationId answer metadata).get _ = _
    unfold refreshConversation
    split
    · rename_i info _ found
      have named := get_id _ readable found
      exact save_other _ readable id _ (fun same => other (named.symm.trans same))
    · rfl
  | setTitle conversationId title =>
    change (setTitle platform conversationId title metadata).get _ = _
    unfold setTitle
    split
    · rename_i info _ found _
      have named := get_id _ readable found
      exact save_other _ readable id _ (fun same => other (named.symm.trans same))
    · rfl

/-- A request changes the row as asked, or leaves it. -/
theorem update_changes (isValidGitBranchName : String → Bool) (id : υ) {metadata : Metadata}
    {stored : StoredConversationMetadata}
    (located : metadata.get (platform.text id) = some stored) (intact : Stored platform stored)
    (request : AppConversationUpdateRequest) :
    match updateAppConversation platform isValidGitBranchName id request metadata with
    | (after, .updated _) =>
        ∃ row, after.get (platform.text id) = some row ∧ Changed request stored row
    | (after, _) => after = metadata := by
  rw [updateAppConversation]
  cases found : getAppConversationInfo platform id metadata with
  | none => rfl
  | some result =>
    obtain ⟨info, rfl, read⟩ := get_read _ readable located intact found
    cases validateRepositoryUpdate isValidGitBranchName request with
    | error message => rfl
    | ok checked =>
      refine ⟨_, by rw [saveAppConversationInfo, read.id, get_set, if_pos rfl], ?_⟩
      refine ⟨read.carries.createdAt, ?_, ?_, ?_, ?_, read.carries.prNumber, read.carries.parent,
        ?_, read.trigger⟩
      · exact congrArg (request.isPublic.getD ·) read.carries.isPublic
      · exact congrArg (request.selectedRepository.getD ·) read.carries.selectedRepository
      · exact congrArg (request.selectedBranch.getD ·) read.carries.selectedBranch
      · cases set : request.gitProvider with
        | none => exact read.carries.gitProvider
        | some provider => rfl
      · intro name
        exact (merged_tag ..).trans (read.carries.tags name not_mem_nil)

variable [DecidableEq υ]

/-- A harmless write keeps the metadata. -/
theorem step_holds (id : υ) (metadata : Metadata) (stored : StoredConversationMetadata)
    (located : metadata.get (platform.text id) = some stored) (intact : Stored platform stored)
    (write : Write υ) (harmless : Harmless platform id metadata write) :
    Holds platform id (incoming id [write]) stored (perform platform metadata write) := by
  by_cases about : write.conversationId = id
  · have brought : incoming id [write] = write.tags := by simp [incoming, about]
    rw [brought]
    cases write with
    | webhook conversation sandbox instants =>
      exact webhook_holds _ readable id _ _ located intact about harmless
    | statsEvent conversationId value now =>
      cases about
      exact statistics_holds _ located intact ..
    | refresh conversationId answer =>
      cases about
      exact refresh_holds _ readable _ _ _ located intact ..
    | setTitle conversationId title =>
      cases about
      exact title_holds _ readable _ _ _ located intact _
  · refine ⟨stored, ?_, intact, Frame.refl ..⟩
    rw [other_unchanged _ readable id _ _ about, located]

/-- Harmless writes keep the metadata, one after the other. -/
theorem run_holds (id : υ) (writes : List (Write υ)) (metadata : Metadata)
    (stored : StoredConversationMetadata)
    (located : metadata.get (platform.text id) = some stored) (intact : Stored platform stored)
    (harmless : Along (perform platform) (Harmless platform id) metadata writes) :
    Holds platform id (incoming id writes) stored (run (perform platform) metadata writes) := by
  induction writes generalizing metadata stored with
  | nil => exact ⟨stored, located, intact, Frame.refl ..⟩
  | cons write rest ih =>
    obtain ⟨between, found, kept, first⟩ := step_holds _ readable id _ _ located
      intact _ harmless.1
    obtain ⟨after, reached, stays, second⟩ := ih _ between found kept harmless.2
    refine ⟨after, reached, stays, ?_⟩
    have together := first.trans second
    rwa [incoming, incoming, ← flatMap_append] at together

/-- Harmless writes keep the metadata of every conversation they are performed for, and a request
changes what it asks for. -/
theorem metadata_kept (isValidGitBranchName : String → Bool) (id : υ) (metadata : Metadata)
    (stored : StoredConversationMetadata)
    (located : metadata.get (platform.text id) = some stored) (intact : Stored platform stored) :
    (∀ writes, Along (perform platform) (Harmless platform id) metadata writes → ∃ after,
      (run (perform platform) metadata writes).get (platform.text id) = some after ∧
        Frame (incoming id writes) stored after) ∧
    ∀ request, match updateAppConversation platform isValidGitBranchName id request metadata with
      | (after, .updated _) =>
          ∃ row, after.get (platform.text id) = some row ∧ Changed request stored row
      | (after, _) => after = metadata := by
  constructor
  · intro writes harmless
    obtain ⟨after, reached, -, kept⟩ := run_holds _ readable id _ _ _
      located intact harmless
    exact ⟨after, reached, kept⟩
  · exact update_changes _ readable _ id located intact

end Writers

/-- Two conversations, with short texts. -/
def twoConversations : Platform Bool where
  readUuid text := if text = "a" then some true else if text = "b" then some false else none
  text id := if id then "a" else "b"
  hex id := if id then "a" else "b"
  defaultMetrics := ⟨0, none, none⟩
  defaultUsage := ⟨0, 0, 0, 0, 0, 0⟩
  readMetrics _ := some ⟨0, none, none⟩

/-- A conversation about a repository, created at five. -/
def resolving (isPublic : Option Bool) : StoredConversationMetadata :=
  merged twoConversations
    { id := true
      createdByUserId := none
      sandboxId := "box"
      selectedRepository := some "owner/repo"
      trigger := some .gui
      isPublic
      createdAt := 5
      updatedAt := 5 } none

/-- The table with that conversation only. -/
def resolvingTable (isPublic : Option Bool) : Metadata :=
  OrderedDict.empty.set "a" (resolving isPublic)

def boxReport (createdAt : Nat) : Write Bool :=
  .webhook ⟨true, false, none, "model", ⟨1, none, none⟩⟩ ⟨"box", none⟩ ⟨createdAt, 9⟩

/-- Texts of two conversations are read back. -/
theorem two_readable : Readable twoConversations :=
  ⟨fun id => by cases id <;> decide, fun id => by cases id <;> decide⟩

/-- A report at the instant of creation and a title keep the metadata of a private conversation. -/
theorem report_and_title_keep : ∃ after, (run (perform twoConversations) (resolvingTable none)
      [boxReport 5, .setTitle true (some "Title")]).get "a" = some after ∧
      Frame [] (resolving none) after := by
  refine (metadata_kept _ two_readable (fun _ => true) true _ _ rfl (merged_stored ..)).1
    [boxReport 5, .setTitle true (some "Title")] ⟨?_, trivial, trivial⟩
  rintro - - existing valid
  cases valid
  exact ⟨rfl, rfl⟩

/-- A report makes a public conversation neither public nor private, and newly created. -/
theorem report_resets : ¬ ∀ writes, ∃ after,
    (run (perform twoConversations) (resolvingTable (some true)) writes).get "a" = some after ∧
      Frame (incoming true writes) (resolving (some true)) after := by
  intro always
  obtain ⟨after, reached, kept⟩ := always [boxReport 7]
  cases reached
  cases kept.isPublic

end ForgePilot.ConversationUpdates
