import ForgePilot.ConversationInfo
import ForgePilot.FloatTexts
import ForgePilot.OffsetPages

/-!
# Searching for conversations

A search selects rows of the metadata table, sorts them by one column and reads one row more than a page holds,
to see whether there is a next one; the next page is named by its offset. The number of conversations
comes from a query of its own, which has the same filters and says nothing about conversations below others.

Databases differ in their patterns (which character escapes another one, and which letters are not told
apart), in where they sort missing values and in how they compare titles.
-/

namespace ForgePilot.ConversationSearch

open Conversations FloatTexts OffsetPages

/-! ## Databases -/

/-- Whether a text matches a pattern of LIKE; a character that is escaped stands for itself. -/
def like (escape : Option Char) (fold : Char → Char) (escaped : Bool) : List Char → List Char → Bool
  | [], text => text.isEmpty
  | character :: pattern, text =>
      if escaped = false ∧ escape = some character then like escape fold true pattern text
      else if escaped = false ∧ character = '%' then text.tails.any (like escape fold false pattern)
      else
        match text with
        | [] => false
        | first :: rest =>
            (!escaped && character == '_' || fold character == fold first) &&
              like escape fold false pattern rest

/-- What databases decide differently. -/
structure Dialect where
  escape : Option Char
  fold : Char → Char
  nullsFirst : Bool
  titleLe : String → String → Bool
  titleTotal : ∀ first second, titleLe first second = true ∨ titleLe second first = true
  titleTrans : ∀ first second third, titleLe first second = true → titleLe second third = true →
    titleLe first third = true

/-- The order of titles, of which some are missing. -/
def Dialect.leTitle (dialect : Dialect) : Option String → Option String → Bool
  | none, none => true
  | none, some _ => dialect.nullsFirst
  | some _, none => !dialect.nullsFirst
  | some first, some second => dialect.titleLe first second

inductive AppConversationSortOrder where
  | createdAt
  | createdAtDesc
  | updatedAt
  | updatedAtDesc
  | title
  | titleDesc
deriving DecidableEq

structure SortColumns where
  createdAt : Nat
  updatedAt : Nat
  title : Option String

/-- Whether a row may stand before another one. -/
def Dialect.le (dialect : Dialect) (sortOrder : AppConversationSortOrder) (first second : SortColumns) :
    Bool :=
  match sortOrder with
  | .createdAt => first.createdAt ≤ second.createdAt
  | .createdAtDesc => second.createdAt ≤ first.createdAt
  | .updatedAt => first.updatedAt ≤ second.updatedAt
  | .updatedAtDesc => second.updatedAt ≤ first.updatedAt
  | .title => dialect.leTitle first.title second.title
  | .titleDesc => dialect.leTitle second.title first.title

/-! ## The service -/

abbrev Row := String × StoredConversationMetadata

def Row.columns (row : Row) : SortColumns := ⟨row.2.createdAt, row.2.lastUpdatedAt, row.2.title⟩

def infoColumns {υ : Type} (info : AppConversationInfo υ) : SortColumns :=
  ⟨info.createdAt, info.updatedAt, info.title⟩

/-- The metadata table; the current conversations are stored under the texts of their identifiers. -/
structure ConversationTable {υ : Type} (platform : Platform υ) where
  metadata : OrderedDict String StoredConversationMetadata
  keyed : ∀ row : Row, row ∈ metadata.entries → row.2.conversationVersion = "V1" →
    ∃ id, platform.readUuid row.1 = some id ∧ platform.text id = row.1

structure Filters where
  titleContains : Option String := none
  createdAtGte : Option Nat := none
  createdAtLt : Option Nat := none
  updatedAtGte : Option Nat := none
  updatedAtLt : Option Nat := none
  sandboxIdEq : Option String := none

/-- Whether a row passes the filters for times and sandboxes. -/
def Filters.others (filters : Filters) (row : StoredConversationMetadata) : Bool :=
  filters.createdAtGte.all (· ≤ row.createdAt) &&
  filters.createdAtLt.all (row.createdAt < ·) &&
  filters.updatedAtGte.all (· ≤ row.lastUpdatedAt) &&
  filters.updatedAtLt.all (row.lastUpdatedAt < ·) &&
  filters.sandboxIdEq.all (fun sandboxId => row.sandboxId = some sandboxId)

/-- Whether the title of a row matches the pattern; a missing title does not. -/
def titleLike (dialect : Dialect) (filters : Filters) (row : StoredConversationMetadata) : Bool :=
  filters.titleContains.all fun text => row.title.any fun title =>
    like dialect.escape dialect.fold false ('%' :: text.toList ++ ['%']) title.toList

def applyFilters (dialect : Dialect) (filters : Filters) (row : StoredConversationMetadata) : Bool :=
  titleLike dialect filters row && filters.others row

/-- Current conversations only. -/
def secureSelect (row : StoredConversationMetadata) : Bool := row.conversationVersion = "V1"

/-- Conversations that are below no other one, unless those are included. -/
def subSelect (includeSubConversations : Bool) (row : StoredConversationMetadata) : Bool :=
  includeSubConversations || row.parentConversationId.isNone

section Service

variable {υ : Type} (platform : Platform υ)

/-- Read a row; nothing when a value cannot be read. -/
def toInfo (row : Row) : Option (AppConversationInfo υ) := do
  let sandboxId ← row.2.sandboxId
  let metrics ← platform.readMetrics row.2
  let id ← platform.readUuid row.1
  let gitProvider ← (truthy row.2.gitProvider).mapM ProviderType.ofValue
  let trigger ← (truthy row.2.trigger).mapM ConversationTrigger.ofValue
  let parentConversationId ← (truthy row.2.parentConversationId).mapM platform.readUuid
  return {
    id
    createdByUserId := none
    sandboxId
    selectedRepository := row.2.selectedRepository
    selectedBranch := row.2.selectedBranch
    gitProvider
    title := row.2.title
    trigger
    prNumber := row.2.prNumber
    llmModel := row.2.llmModel
    metrics := some metrics
    parentConversationId
    subConversationIds := []
    isPublic := row.2.isPublic
    tags := row.2.tags.getD .empty
    createdAt := row.2.createdAt
    updatedAt := row.2.lastUpdatedAt }

def selectedRows (dialect : Dialect) (filters : Filters) (includeSubConversations : Bool)
    (table : ConversationTable platform) : List Row :=
  table.metadata.entries.filter fun row =>
    secureSelect row.2 && subSelect includeSubConversations row.2 && applyFilters dialect filters row.2

/-- Where a page starts; a text that is no number starts at the beginning. -/
def pageOffset (digits : DigitTable) (pageId : Option String) : Int :=
  (pageId.bind (intOfStr digits)).getD 0

/-- A page of the rows of the query, in the order in which the database has them this time; nothing when a
row cannot be read. -/
def searchAppConversationInfo (digits : DigitTable) (listing : List Row) (pageId : Option String)
    (limit : Nat) : Option (Page String (AppConversationInfo υ)) := do
  let offset := pageOffset digits pageId
  let rows := (listing.drop offset.toNat).take (limit + 1)
  let hasMore := rows.length > limit
  let items ← (if hasMore then rows.take limit else rows).mapM (toInfo platform)
  return ⟨items, if hasMore then some (strOfInt (offset + limit)) else none⟩

/-- The number of current conversations that pass the filters. -/
def countAppConversationInfo (dialect : Dialect) (filters : Filters)
    (table : ConversationTable platform) : Nat :=
  (table.metadata.entries.filter fun row =>
    secureSelect row.2 && applyFilters dialect filters row.2).length

end Service

end ForgePilot.ConversationSearch
