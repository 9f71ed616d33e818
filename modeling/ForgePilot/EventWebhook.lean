import ForgePilot.FileStores
import Mathlib.Data.List.SplitOn

/-!
# The batched event webhook

A batch of file operations is processed one by one. The loop remembers the last
conversation it looked up and the last user it found, and checks the session key
only when the conversation changes. The remembered conversation is set before the
keys are compared, and the remembered user before the key is looked up, which may
raise. A single operation is checked on every request.

Looking up an owner or a session key, decoding, and reading JSON are parameters of
the server; `none` stands for an exception. Effects are the calls the webhook
makes, with the files they write. What the called functions do with the database
is not modelled.
-/

namespace ForgePilot.EventWebhook

open FileStores Characters

inductive BatchMethod where
  | post | delete
deriving DecidableEq

structure BatchOperation where
  method : BatchMethod
  path : String
  content : Option String := none
  encoding : Option String := none
deriving DecidableEq

/-- What the webhook looks up and how it reads contents. -/
structure Server (ι : Type) where
  getUserId : String → Option String
  getSessionApiKey : String → String → Option (Option String)
  b64decode : String → Option ByteArray
  loads : ByteArray → Option ι
  fileStore : FileStore

variable {ι : Type} (server : Server ι)

def getContent (operation : BatchOperation) : Option ByteArray :=
  match operation.content with
  | none => none
  | some content =>
      if operation.encoding = some "base64" then server.b64decode content
      else some content.toUTF8

def getContentJson (operation : BatchOperation) : Option ι :=
  (getContent server operation).bind server.loads

/-- The calls that change something. -/
inductive Effect (ι : Type) where
  | updateAgentState (userId conversationId : String) (content : ByteArray)
  | updateConversationStats (userId conversationId : String) (content : ByteArray)
  | updateConversationMetadata (conversationId : String) (content : ι)
  | processEvent (userId conversationId subpath : String) (content : ι)

/-- The user an effect is performed for, when it names one. -/
def Effect.userId? : Effect ι → Option String
  | .updateAgentState userId _ _ => some userId
  | .updateConversationStats userId _ _ => some userId
  | .updateConversationMetadata _ _ => none
  | .processEvent userId _ _ _ => some userId

def Effect.conversationId : Effect ι → String
  | .updateAgentState _ conversationId _ => conversationId
  | .updateConversationStats _ conversationId _ => conversationId
  | .updateConversationMetadata conversationId _ => conversationId
  | .processEvent _ conversationId _ _ => conversationId

def Effect.files : Effect ι → List String
  | .updateAgentState userId conversationId _ =>
      [getConversationAgentStateFilename conversationId userId]
  | .updateConversationStats userId conversationId _ =>
      [getConversationStatsFilename conversationId userId]
  | .updateConversationMetadata _ _ => []
  | .processEvent userId conversationId subpath _ =>
      [getConversationDir conversationId userId ++ subpath]

/-- Statistics are written in batches only. -/
def Effect.isShared : Effect ι → Bool
  | .updateAgentState _ _ _ => true
  | .updateConversationStats _ _ _ => false
  | .updateConversationMetadata _ _ => true
  | .processEvent _ _ _ _ => true

def parseConversationIdAndSubpath (path : String) : Option (String × String) :=
  match (path.toList.splitOn '/').map String.ofList with
  | "sessions" :: conversationId :: items => some (conversationId, "/".intercalate items)
  | _ => none

def dispatch (userId conversationId subpath : String) (operation : BatchOperation) :
    List (Effect ι) :=
  if subpath = "agent_state.pkl" then
    ((getContent server operation).map (.updateAgentState userId conversationId)).toList
  else if subpath = "conversation_stats.pkl" then
    ((getContent server operation).map (.updateConversationStats userId conversationId)).toList
  else if subpath = "metadata.json" then
    ((getContentJson server operation).map (.updateConversationMetadata conversationId)).toList
  else if startsWith subpath "events/" then
    ((getContentJson server operation).map (.processEvent userId conversationId subpath)).toList
  else []

structure LoopState where
  prevConversationId : Option String := none
  userId : Option String := none
deriving DecidableEq

/-- Check the session key when the conversation changes; the flag tells whether
the operation goes on. -/
def recheck (xSessionApiKey : Option String) (state : LoopState) (conversationId : String) :
    LoopState × Bool :=
  if some conversationId = state.prevConversationId then (state, true)
  else
    match server.getUserId conversationId with
    | none => (state, false)
    | some userId =>
        match server.getSessionApiKey userId conversationId with
        -- The new user stays when the key cannot be looked up.
        | none => ({ state with userId := some userId }, false)
        | some sessionApiKey =>
            ({ prevConversationId := some conversationId, userId := some userId },
              decide (sessionApiKey = xSessionApiKey))

/-- One pass through the loop. -/
def processOperation (xSessionApiKey : Option String) (state : LoopState)
    (operation : BatchOperation) : LoopState × List (Effect ι) :=
  if operation.method ≠ .post then (state, [])
  else if operation.path = "settings.json" ∨ operation.path = "secrets.json" then (state, [])
  else
    match parseConversationIdAndSubpath operation.path with
    | none => (state, [])
    | some (conversationId, subpath) =>
        let (next, goesOn) := recheck server xSessionApiKey state conversationId
        if goesOn then
          match next.userId with
          | none => (next, [])
          | some userId => (next, dispatch server userId conversationId subpath operation)
        else (next, [])

/-- The loop, from a state on; each effect with the operation it is performed for. -/
def processFrom (xSessionApiKey : Option String) :
    LoopState → List BatchOperation → List (BatchOperation × Effect ι)
  | _, [] => []
  | state, operation :: rest =>
      let (next, effects) := processOperation server xSessionApiKey state operation
      effects.map (fun effect => (operation, effect)) ++ processFrom xSessionApiKey next rest

def processBatchOperationsBackground (batchOps : List BatchOperation)
    (xSessionApiKey : Option String) : List (BatchOperation × Effect ι) :=
  processFrom server xSessionApiKey {} batchOps

/-- The effects of a single write request. -/
def onWrite (path : String) (body : ByteArray) (xSessionApiKey : Option String) :
    List (Effect ι) :=
  match parseConversationIdAndSubpath path with
  | none => []
  | some (conversationId, subpath) =>
      match server.getUserId conversationId with
      | none => []
      | some userId =>
          match server.getSessionApiKey userId conversationId with
          | none => []
          | some sessionApiKey =>
              if sessionApiKey ≠ xSessionApiKey then []
              else if subpath = "agent_state.pkl" then
                [.updateAgentState userId conversationId body]
              else
                match server.loads body with
                | none => []
                | some content =>
                    if subpath = "metadata.json" then
                      [.updateConversationMetadata conversationId content]
                    else if startsWith subpath "events/" then
                      [.processEvent userId conversationId subpath content]
                    else []

/-- An operation sent on its own: writes go to the webhook with their contents,
deletions have no effect, and what has no readable contents cannot be sent. -/
def sendSeparately (xSessionApiKey : Option String) (operation : BatchOperation) :
    List (Effect ι) :=
  match operation.method, getContent server operation with
  | .post, some body => onWrite server operation.path body xSessionApiKey
  | _, _ => []

end ForgePilot.EventWebhook
