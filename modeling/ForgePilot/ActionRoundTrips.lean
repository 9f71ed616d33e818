import ForgePilot.EventSerialization

/-!
# Actions there and back

The dictionary of an action carries its fields under their names, with the risk as a number.
Reading takes nothing from it but names that no class has, so that the constructor is given
every field again. The type of an action is not among its arguments: the class gives it.

What the table of fields says of all classes is stated once, and the rest follows from it for
any class of actions.
-/

namespace ForgePilot.EventSerialization

open EventClasses List OrderedDict
open Events (EventSource RecallType)

variable {μ : Type}

/-! ## The table of fields -/

/-- The names that older events use. -/
def retired : List String :=
  ["timestamp", "is_confirmed", "images_urls", "keep_prompt", "task_completed",
    "translated_ipython_code", "exit_code", "command_id", "formatted_output_and_error"]

variable (version name : String) (env : Environment μ) (event : Event μ) (eventClass : EventClass)

/-- No class has a field of a retired name. -/
theorem retired_absent : ∀ name ∈ retired, name ∉ eventClass.names := by
  cases eventClass <;> decide

def textDefault : Default → Option String
  | .value (.data (.str value)) => some value
  | _ => none

/-- The only fields among the keys at the top hold the type of the event. -/
theorem top_types : ∀ field ∈ eventClass.fields,
    field.name ∈ topKeys → field.type = .eventType eventClass.eventType := by
  cases eventClass <;> decide

theorem top_defaults : ∀ name ∈ eventClass.names, name ∈ topKeys →
    (eventClass.fields.find? (fun field => field.name = name)).bind
      (fun field => textDefault field.default) = some eventClass.eventType := by
  cases eventClass <;> decide

/-- Actions have a type, no type of observations and no fields of observations. -/
theorem action_fields (isAction : eventClass ∈ EventClass.actions) :
    "action" ∈ eventClass.names ∧ "observation" ∉ eventClass.names ∧
      ∀ field ∈ eventClass.fields, field.type ≠ .metadata ∧ field.type ≠ .knowledge ∧
        (field.type = .securityRisk ↔ field.name = "security_risk") := by
  revert eventClass
  decide

/-- Observations have a type, no type of actions and no fields of actions. -/
theorem observation_fields (isObservation : eventClass ∈ EventClass.observations) :
    "observation" ∈ eventClass.names ∧ "action" ∉ eventClass.names ∧
      "content" ∈ eventClass.names ∧ "security_risk" ∉ eventClass.names ∧
      ∀ field ∈ eventClass.fields, field.type ≠ .securityRisk ∧ field.type ≠ .confirmationState ∧
        (field.name = "content" → field.type = .str) := by
  revert eventClass
  decide

/-- Only command output has metadata, and only recalls have a type of recall and knowledge. -/
theorem special_fields (isObservation : eventClass ∈ EventClass.observations) :
    ∀ field ∈ eventClass.fields,
      (field.type = .metadata ↔ eventClass = .cmdOutputObservation ∧ field.name = "metadata") ∧
      (field.type = .recallType ↔ eventClass = .recallObservation ∧ field.name = "recall_type") ∧
      (field.type = .knowledge ↔
        eventClass = .recallObservation ∧ field.name = "microagent_knowledge") := by
  revert eventClass
  decide

/-- Only implementations are of a type of implementations. -/
theorem source_fields : ∀ field ∈ eventClass.fields,
    field.name ≠ "impl_source" → field.type ≠ .readSource ∧ field.type ≠ .editSource := by
  cases eventClass <;> decide

theorem typed_name {event : Event μ} (typed : Typed event) {name : String}
    (present : name ∈ event.eventClass.names) :
    ∃ field ∈ event.eventClass.fields, field.name = name ∧
      field.type.Holds (event.attributes name) := by
  obtain ⟨field, listed, rfl⟩ := mem_map.mp present
  exact ⟨field, listed, rfl, typed field listed⟩

theorem declared_holds (typed : Typed event) (name : String) (type : FieldType)
    (declared : (event.eventClass.fields.find? (fun field => field.name = name)).map Field.type =
      some type) : type.Holds (event.attributes name) := by
  obtain ⟨field, found, rfl⟩ := Option.map_eq_some_iff.mp declared
  have named : field.name = name := by simpa using find?_some found
  exact named ▸ typed field (mem_of_find?_eq_some found)

theorem typed_top (typed : Typed event) (name : String) (present : name ∈ event.eventClass.names)
    (top : name ∈ topKeys) : event.attributes name = .text event.eventClass.eventType := by
  obtain ⟨field, listed, rfl, holds⟩ := typed_name typed present
  rw [top_types _ _ listed top] at holds
  exact holds

/-! ## Dictionaries of fields -/

/-- A dictionary has the fields of a class but some, with these attributes. -/
def Carries (eventClass : EventClass) (without : List String)
    (dict : OrderedDict String Attribute) (attributes : String → Attribute) : Prop :=
  ∀ name, dict.get name =
    if name ∈ eventClass.names ∧ name ∉ without then some (attributes name) else none

/-- Looking up a key after some were deleted. -/
theorem get_erase_all (keys : List String) (dict : OrderedDict String Attribute) (name : String) :
    (keys.foldl OrderedDict.erase dict).get name = if name ∈ keys then none else dict.get name := by
  induction keys generalizing dict with
  | nil => simp
  | cons key rest ih =>
    rw [foldl_cons, ih, get_erase]
    by_cases later : name ∈ rest <;> by_cases same : name = key <;> simp [later, same]

variable (attributes : String → Attribute)

theorem props_get (name : String) : (props eventClass attributes).get name =
      if name ∈ eventClass.names then some (asdict (attributes name)) else none := by
  have raw (fields : List Field) :
      find name (fields.map (fun field => (field.name, asdict (attributes field.name))))
        = if name ∈ fields.map Field.name then some (asdict (attributes name)) else none := by
    induction fields with
    | nil => rfl
    | cons field rest ih =>
      by_cases same : name = field.name
      · simp [find, same]
      · simp [find, same, ih]
  exact raw eventClass.fields

theorem kept_carries : Carries eventClass topKeys (withoutTopKeys (props eventClass attributes))
      (fun name => asdict (attributes name)) := by
  intro name
  rw [withoutTopKeys, get_erase_all, props_get]
  by_cases top : name ∈ topKeys <;> simp [top]

variable {dict : OrderedDict String Attribute}

/-- Taking out what is not there changes nothing. -/
theorem drop_absent (absent : dict.get name = none) : dropNothing name dict = dict := by
  rw [dropNothing, absent]

variable {without : List String}

/-- A retired name is not carried. -/
theorem retired_none {eventClass : EventClass} {attributes : String → Attribute}
    (carries : Carries eventClass without dict attributes) (name : String) (old : name ∈ retired) :
    dict.get name = none := by
  rw [carries name, if_neg (fun both => retired_absent _ _ old both.1)]

/-- Deleting a retired name changes nothing that is carried. -/
theorem erase_retired {eventClass : EventClass} {attributes : String → Attribute}
    (carries : Carries eventClass without dict attributes) (name : String) (old : name ∈ retired) :
    Carries eventClass without (dict.erase name) attributes := by
  intro other
  rw [get_erase]
  split
  · rename_i same
    rw [if_neg (fun both => retired_absent _ _ old (same ▸ both.1))]
  · exact carries other

/-- Assigning to a carried name changes its attribute. -/
theorem set_carries {eventClass : EventClass} {attributes : String → Attribute}
    (carries : Carries eventClass without dict attributes) {name : String} (held : Attribute)
    (present : name ∈ eventClass.names) (kept : name ∉ without) :
    Carries eventClass without (dict.set name held)
      (fun other => if other = name then held else attributes other) := by
  intro other
  rw [get_set, carries other]
  by_cases same : other = name
  · simp [same, present, kept]
  · simp [same]

/-- Attributes that agree on the fields are carried together. -/
theorem carries_congr {eventClass : EventClass} {attributes others : String → Attribute}
    (carries : Carries eventClass without dict attributes)
    (agree : ∀ name ∈ eventClass.names, name ∉ without → attributes name = others name) :
    Carries eventClass without dict others := by
  intro name
  rw [carries name]
  split
  · rename_i both
    rw [agree name both.1 both.2]
  · rfl

/-- Assigning to a carried name gives attributes that differ under it only. -/
theorem carries_set {eventClass : EventClass} {attributes others : String → Attribute}
    (carries : Carries eventClass without dict attributes) (name : String) (held : Attribute)
    (present : name ∈ eventClass.names) (kept : name ∉ without) (here : others name = held)
    (elsewhere : ∀ other ∈ eventClass.names, other ≠ name → attributes other = others other) :
    Carries eventClass without (dict.set name held) others := by
  refine carries_congr (set_carries carries _ present kept) ?_
  intro other listed _
  by_cases same : other = name
  · rw [if_pos same, same, here]
  · rw [if_neg same, elsewhere other listed same]

/-- The default of the field at the top is the type of the event. -/
theorem default_type (name : String) (present : name ∈ eventClass.names) (top : name ∈ topKeys) :
    defaultOf version eventClass name = some (.text eventClass.eventType) := by
  obtain ⟨field, found, standard⟩ := Option.bind_eq_some_iff.mp (top_defaults _ _ present top)
  rw [defaultOf, found]
  obtain ⟨_, _, default⟩ := field
  cases default with
  | required => cases standard
  | version => cases standard
  | value held =>
    unfold textDefault at standard
    split at standard
    · rename_i same
      cases same
      cases standard
      rfl
    · cases standard

/-- An object is constructed from what a dictionary carries. -/
theorem initialise_carries {eventClass : EventClass} {args : OrderedDict String Attribute}
    {attributes : String → Attribute} (carries : Carries eventClass topKeys args attributes)
    (types : ∀ name ∈ eventClass.names, name ∈ topKeys →
      attributes name = .text eventClass.eventType) :
    ∃ initial, initialise version eventClass args = .ok initial ∧
      ∀ name ∈ eventClass.names, initial name = attributes name := by
  have value (name : String) (present : name ∈ eventClass.names) :
      (args.get name).or (defaultOf version eventClass name) = some (attributes name) := by
    rw [carries name]
    by_cases top : name ∈ topKeys
    · rw [if_neg (fun both => both.2 top), Option.none_or, types name present top]
      exact default_type _ _ _ present top
    · rw [if_pos ⟨present, top⟩, Option.some_or]
  have expected : args.keys.all (fun name => name ∈ eventClass.names) = true := by
    rw [all_eq_true]
    intro name listed
    obtain ⟨held, given⟩ := (mem_keys_iff ..).mp listed
    rw [carries name] at given
    by_contra missing
    rw [if_neg (fun both => missing (by simpa using both.1))] at given
    cases given
  have complete : eventClass.names.all (fun name =>
      ((args.get name).or (defaultOf version eventClass name)).isSome) = true := by
    rw [all_eq_true]
    intro name present
    rw [value name present]
    rfl
  refine ⟨_, if_pos ⟨expected, complete⟩, fun name present => ?_⟩
  rw [value name present]
  rfl

/-! ## Messages -/

/-- The check of a condensation reads its fields only. -/
theorem polymorphism_congr {attributes others : String → Attribute}
    (agree : ∀ name ∈ EventClass.names .condensationAction, others name = attributes name) :
    validateFieldPolymorphism others = validateFieldPolymorphism attributes := by
  simp (disch := decide) only [validateFieldPolymorphism, agree]

variable (others : String → Attribute)

/-- What a condensation forgets is determined by its fields. -/
theorem forgotten_congr
    (agree : ∀ name ∈ EventClass.names .condensationAction, others name = attributes name) :
    forgotten others = forgotten attributes := by
  rw [forgotten, forgotten, polymorphism_congr agree]
  simp (disch := decide) only [agree]

/-- The message of an event is determined by its fields other than the implementation. -/
theorem message_congr
    (agree : ∀ name ∈ eventClass.names, name ≠ "impl_source" → others name = attributes name) :
    message env eventClass others = message env eventClass attributes := by
  cases eventClass
  case condensationAction =>
    have same := forgotten_congr _ _ (fun name present =>
      agree name present (by rintro rfl; revert present; decide))
    simp (disch := decide) only [message, same, agree]
  all_goals simp (disch := decide) only [message, agree]

/-- A valid condensation has identifiers to forget. -/
theorem forgotten_ok (typed : Typed event) (condensation : event.eventClass = .condensationAction)
    (valid : validateFieldPolymorphism event.attributes = true) :
    ∃ ids, forgotten event.attributes = .ok ids := by
  have start := declared_holds _ typed "forgotten_events_start_id" .optionalInt
    (by rw [condensation]; rfl)
  have stop := declared_holds event typed "forgotten_events_end_id" .optionalInt
    (by rw [condensation]; rfl)
  rw [forgotten, if_pos valid]
  split
  · rename_i unlisted
    -- nothing is listed, so that the range is given
    rw [validateFieldPolymorphism] at valid
    dsimp only at valid
    rw [unlisted] at valid
    rcases start with nothing | ⟨first, given⟩
    · rw [nothing] at valid
      cases valid
    rcases stop with nothing | ⟨last, ended⟩
    · rw [nothing] at valid
      exact absurd valid (by simp [isNothing, Attribute.nothing])
    · rw [given, ended]
      exact ⟨_, rfl⟩
  · exact ⟨_, rfl⟩

/-- Every sound event has a message, or none. -/
theorem message_ok (typed : Typed event) (sound : Sound event) :
    ∃ told, message env event.eventClass event.attributes = .ok told := by
  obtain ⟨eventClass, attributes, id, timestamp, source, cause, timeout, metadata⟩ := event
  dsimp only
  cases eventClass
  case agentFinishAction =>
    rw [message]
    split <;> exact ⟨_, rfl⟩
  case agentRejectAction =>
    obtain ⟨outputs, held⟩ := declared_holds _ typed "outputs" .dict rfl
    dsimp only at held
    rw [message]
    rw [held]
    dsimp only
    cases found : find "reason" outputs with
    | none => exact ⟨_, rfl⟩
    | some reason =>
      obtain ⟨value, rfl⟩ := sound outputs reason held found
      exact ⟨_, rfl⟩
  case recallAction =>
    obtain ⟨query, held⟩ := declared_holds _ typed "query" .str rfl
    dsimp only at held
    rw [message]
    rw [held]
    exact ⟨_, rfl⟩
  case condensationAction =>
    obtain ⟨ids, found⟩ := forgotten_ok _ typed rfl sound
    rw [message]
    split
    · exact ⟨_, rfl⟩
    · rw [found]
      exact ⟨_, rfl⟩
  case taskTrackingAction =>
    obtain ⟨tasks, held⟩ := declared_holds _ typed "task_list" .dictList rfl
    dsimp only at held
    rw [message]
    rw [held]
    match tasks with
    | [] => exact ⟨_, rfl⟩
    | [task] => exact ⟨_, rfl⟩
    | first :: second :: rest => exact ⟨_, rfl⟩
  case browserOutputObservation =>
    obtain ⟨url, held⟩ := declared_holds _ typed "url" .str rfl
    dsimp only at held
    rw [message]
    rw [held]
    exact ⟨_, rfl⟩
  case cmdOutputObservation =>
    rw [message]
    split <;> exact ⟨_, rfl⟩
  case recallObservation =>
    rw [message]
    split <;> exact ⟨_, rfl⟩
  all_goals exact ⟨_, rfl⟩

/-! ## Actions -/

/-- An attribute with its risk as a number. -/
def numbered : Attribute → Attribute
  | .risk level => .data (.int level.value)
  | held => held

variable {type : FieldType} {held : Attribute} (holds : type.Holds held)
include holds

/-- Without knowledge nothing is a dataclass. -/
theorem asdict_of_type (other : type ≠ .knowledge) : asdict held = held := by
  cases held with
  | knowledge items => cases type <;> simp_all [FieldType.Holds, Attribute.text, Attribute.nothing]
  | _ => rfl

/-- Only the risk has a number. -/
theorem numbered_of_type (other : type ≠ .securityRisk) : numbered held = held := by
  cases held with
  | risk level => cases type <;> simp_all [FieldType.Holds, Attribute.text, Attribute.nothing]
  | _ => rfl

omit holds

section Action

variable (event : Event μ) (typed : Typed event)
variable (isAction : event.eventClass ∈ EventClass.actions)
include typed isAction

theorem risk_level (present : "security_risk" ∈ event.eventClass.names) :
    ∃ level, event.attributes "security_risk" = .risk level := by
  obtain ⟨-, -, types⟩ := action_fields _ isAction
  obtain ⟨field, listed, named, holds⟩ := typed_name typed present
  rw [(types field listed).2.2.mpr named] at holds
  exact holds

/-- No other field of an action is a risk. -/
theorem numbered_other (name : String) (present : name ∈ event.eventClass.names)
    (other : name ≠ "security_risk") : numbered (event.attributes name) = event.attributes name := by
  obtain ⟨-, -, types⟩ := action_fields _ isAction
  obtain ⟨field, listed, named, holds⟩ := typed_name typed present
  exact numbered_of_type holds
    (fun type => other (named ▸ (types field listed).2.2.mp type))

/-- The fields of an action are written as they are. -/
theorem kept_action : Carries event.eventClass topKeys
    (withoutTopKeys (props event.eventClass event.attributes)) event.attributes := by
  obtain ⟨-, -, types⟩ := action_fields _ isAction
  refine carries_congr (kept_carries _ _) ?_
  intro name present _
  obtain ⟨field, listed, rfl, holds⟩ := typed_name typed present
  exact asdict_of_type holds (types field listed).2.1

/-- The risk is written as its number, and the other arguments of an action as they are. -/
theorem write_action :
    ∃ args, writeSecurityRisk (dropNothing "task_completed" (dropNothing "security_risk"
        (withoutTopKeys (props event.eventClass event.attributes)))) = .ok args ∧
      Carries event.eventClass topKeys args (fun name => numbered (event.attributes name)) := by
  have kept := kept_action _ typed isAction
  have undropped : dropNothing "security_risk"
      (withoutTopKeys (props event.eventClass event.attributes)) =
      withoutTopKeys (props event.eventClass event.attributes) := by
    rw [dropNothing, kept "security_risk"]
    by_cases present : "security_risk" ∈ event.eventClass.names
    · obtain ⟨level, held⟩ := risk_level _ typed isAction present
      rw [if_pos ⟨present, by decide⟩, held]
    · rw [if_neg (fun both => present both.1)]
  rw [undropped, drop_absent _ (retired_none kept _ (by decide)),
    writeSecurityRisk, kept "security_risk"]
  by_cases present : "security_risk" ∈ event.eventClass.names
  · obtain ⟨level, held⟩ := risk_level _ typed isAction present
    rw [if_pos ⟨present, by decide⟩, held]
    refine ⟨_, rfl, carries_set kept _ _ present
      (by decide) (by rw [held]; rfl) ?_⟩
    intro name listed other
    exact (numbered_other _ typed isAction _ listed other).symm
  · rw [if_neg (fun both => present both.1)]
    refine ⟨_, rfl, carries_congr kept ?_⟩
    intro name listed _
    rw [numbered_other _ typed isAction _ listed (fun same => present (same ▸ listed))]

omit typed isAction in
theorem risk_back (level : ActionSecurityRisk) :
    riskOf (.data (.int level.value)) = some level := by
  cases level <;> rfl

theorem read_action (env : Environment μ) (args : OrderedDict String Attribute)
    (written : Carries event.eventClass topKeys args
      (fun name => numbered (event.attributes name))) :
    Carries event.eventClass topKeys (handleActionDeprecatedArgs env
      (readSecurityRisk (renameImages (renameConfirmed (args.erase "timestamp")))))
      event.attributes := by
  have untimed := erase_retired written "timestamp" (by decide)
  have unconfirmed : renameConfirmed (args.erase "timestamp") = args.erase "timestamp" := by
    rw [renameConfirmed, retired_none untimed "is_confirmed" (by decide)]
  have unillustrated : renameImages (args.erase "timestamp") = args.erase "timestamp" := by
    rw [renameImages, retired_none untimed _ (by decide)]
  rw [unconfirmed, unillustrated]
  have read : Carries event.eventClass topKeys (readSecurityRisk (args.erase "timestamp"))
      event.attributes := by
    rw [readSecurityRisk, untimed "security_risk"]
    by_cases present : "security_risk" ∈ event.eventClass.names
    · obtain ⟨level, held⟩ := risk_level _ typed isAction present
      rw [if_pos ⟨present, by decide⟩]
      dsimp only
      rw [held]
      simp only [numbered, risk_back]
      refine carries_set untimed _ _ present (by decide) held ?_
      intro name listed other
      exact numbered_other _ typed isAction _ listed other
    · rw [if_neg (fun both => present both.1)]
      refine carries_congr untimed ?_
      intro name listed _
      rw [numbered_other _ typed isAction _ listed (fun same => present (same ▸ listed))]
  have unprompted := erase_retired
    (erase_retired read "keep_prompt" (by decide)) "task_completed" (by decide)
  rw [handleActionDeprecatedArgs, retired_none unprompted _
    (by decide)]
  exact unprompted

/-- An action is constructed from its arguments, and a condensation when it is valid. -/
theorem construct_action (version : String) (args : OrderedDict String Attribute)
    (carries : Carries event.eventClass topKeys args event.attributes) :
    ∃ initial, (∀ name ∈ event.eventClass.names, initial name = event.attributes name) ∧
      construct version event.eventClass args = if event.eventClass = .condensationAction ∧
          validateFieldPolymorphism event.attributes = false then .error .valueError
        else .ok initial := by
  obtain ⟨initial, built, same⟩ := initialise_carries version
    carries (fun name present top => typed_top event typed name present top)
  refine ⟨initial, same, ?_⟩
  by_cases condensation : event.eventClass = .condensationAction
  · rw [condensation] at built same ⊢
    have constructed : construct version .condensationAction args =
        if validateFieldPolymorphism initial then .ok initial else .error .valueError := by
      simp only [construct, built]
      rfl
    rw [constructed, polymorphism_congr same]
    cases validateFieldPolymorphism event.attributes <;> simp
  · rw [if_neg (fun both => condensation both.1)]
    unfold construct
    split
    · rename_i output
      rw [output] at isAction
      exact absurd isAction (by decide)
    · rename_i output
      exact absurd output condensation
    · exact built

end Action

/-! ## What is attached -/

/-- Dumped metadata of a tool call are read back, and dumped again as they were. -/
def Readable (env : Environment μ) : Prop :=
  ∀ metadata, ∃ read, env.modelValidate (env.modelDump metadata) = .ok read ∧
    env.modelDump read = env.modelDump metadata

/-- A dictionary says what is attached to an event. -/
structure Tells (env : Environment μ) (event : Event μ) (dict : EventDict) : Prop where
  id : dict.id = if event.id = -1 then none else some event.id
  timestamp : dict.timestamp = event.timestamp
  source : dict.source = event.source.map sourceValue
  cause : dict.cause = event.cause
  toolCallMetadata : dict.toolCallMetadata = event.toolCallMetadata.map env.modelDump

/-- Nothing is attached to an event yet. -/
structure Fresh (event : Event μ) : Prop where
  id : event.id = -1
  timestamp : event.timestamp = none
  source : event.source = none
  cause : event.cause = none
  toolCallMetadata : event.toolCallMetadata = none

theorem source_back (source : EventSource) : readSource (sourceValue source) = .ok source := by
  cases source <;> rfl

theorem attach_back (readable : Readable env) (event fresh : Event μ) (dict : EventDict)
    (entries : Tells env event dict) (isFresh : Fresh fresh) :
    ∃ metadata, metadata.map env.modelDump = event.toolCallMetadata.map env.modelDump ∧
      attach env dict fresh = .ok { fresh with
        id := event.id
        timestamp := event.timestamp
        source := event.source
        cause := event.cause
        toolCallMetadata := metadata } := by
  have id : dict.id.getD fresh.id = event.id := by
    rw [entries.id, isFresh.id]
    by_cases invalid : event.id = -1 <;> simp [invalid]
  have sources : dict.source.mapM readSource = .ok event.source := by
    rw [entries.source]
    cases event.source with
    | none => rfl
    | some source =>
      change (do let read ← readSource (sourceValue source); pure (some read)) = _
      rw [source_back]
      rfl
  have metadata : ∃ metadata, metadata.map env.modelDump =
      event.toolCallMetadata.map env.modelDump ∧
      dict.toolCallMetadata.mapM env.modelValidate = .ok metadata := by
    rw [entries.toolCallMetadata]
    cases event.toolCallMetadata with
    | none => exact ⟨none, rfl, rfl⟩
    | some metadata =>
      obtain ⟨read, validated, dumped⟩ := readable metadata
      refine ⟨some read, congrArg some dumped, ?_⟩
      change (do let read ← env.modelValidate (env.modelDump metadata); pure (some read)) = _
      rw [validated]
      rfl
  obtain ⟨metadata, dumped, validated⟩ := metadata
  refine ⟨metadata, dumped, ?_⟩
  rw [attach, sources, validated]
  change Except.ok _ = _
  rw [id, entries.timestamp, entries.cause, isFresh.timestamp, isFresh.source, isFresh.cause,
    isFresh.toolCallMetadata, Option.or_none, Option.or_none, Option.or_none, Option.or_none]

/-- The fields as a dictionary are determined by the attributes. -/
theorem props_congr {attributes others : String → Attribute}
    (agree : ∀ name ∈ eventClass.names, others name = attributes name) :
    props eventClass others = props eventClass attributes := by
  simp only [props, mk.injEq]
  apply map_congr_left
  intro field listed
  rw [agree field.name (mem_map_of_mem listed)]

/-- What an object says at the top is determined by its attributes. -/
theorem top_type_congr (agree : name ∈ eventClass.names → others name = attributes name) :
    topType name eventClass others = topType name eventClass attributes := by
  by_cases present : name ∈ eventClass.names
  · rw [topType, topType, agree present]
  · rw [topType, topType, if_neg (fun both => present both.1), if_neg (fun both => present both.1)]

theorem top_type_typed (typed : Typed event) {name : String}
    (present : name ∈ event.eventClass.names) (top : name ∈ topKeys) :
    topType name event.eventClass event.attributes = some (.text event.eventClass.eventType) := by
  have held := typed_top _ typed _ present top
  rw [topType, held, if_pos ⟨present, by simp [isNothing, Attribute.text]⟩]

/-- A type that a class does not have does not stand at the top. -/
theorem top_type_absent {name : String} {eventClass : EventClass}
    (attributes : String → Attribute) (absent : name ∉ eventClass.names) :
    topType name eventClass attributes = none := by
  rw [topType, if_neg (fun both => absent both.1)]

/-! ## Actions there and back -/

theorem action_dict (typed : Typed event) (isAction : event.eventClass ∈ EventClass.actions)
    (told : Option Attribute) (spoken : message env event.eventClass event.attributes = .ok told) :
    ∃ args, Carries event.eventClass topKeys args (fun name => numbered (event.attributes name)) ∧
      eventToDict env event = .ok { topEntries env event told with
        args := some args, timeout := event.timeout } := by
  obtain ⟨present, -, -⟩ := action_fields _ isAction
  obtain ⟨args, written, carries⟩ := write_action _ typed isAction
  have atTop : (topEntries env event told).action.isSome = true := by
    change (topType "action" event.eventClass event.attributes).isSome = true
    rw [top_type_typed _ typed present (by decide)]
    rfl
  refine ⟨args, carries, ?_⟩
  rw [eventToDict, spoken]
  change (if (topEntries env event told).action.isSome then _ else _) = _
  rw [if_pos atTop, written]
  rfl

/-- An action is read back from its dictionary, unless it is a condensation that is not valid. -/
theorem action_back (typed : Typed event) (isAction : event.eventClass ∈ EventClass.actions)
    (args : OrderedDict String Attribute) (carries : Carries event.eventClass topKeys args
      (fun name => numbered (event.attributes name))) (dict : EventDict)
    (type : dict.action = some (.text event.eventClass.eventType)) (given : dict.args = some args)
    (timed : dict.timeout = event.timeout) :
    ∃ initial, (∀ name ∈ event.eventClass.names, initial name = event.attributes name) ∧
      actionFromDict env dict = if event.eventClass = .condensationAction ∧
          validateFieldPolymorphism event.attributes = false then .error .valueError
        else .ok { eventClass := event.eventClass, attributes := initial, timeout := event.timeout } := by
  have read := read_action event typed isAction env args carries
  obtain ⟨initial, same, built⟩ := construct_action event typed isAction env.version _ read
  have untimed : args.get "timestamp" = none := retired_none carries "timestamp" (by decide)
  have blocking : (fun name =>
      if name = "blocking" ∧ "blocking" ∈ event.eventClass.names then
        ((handleActionDeprecatedArgs env (readSecurityRisk (renameImages (renameConfirmed
          (args.erase "timestamp"))))).get "blocking").getD (.data (.bool false))
      else initial name) = initial := by
    funext name
    split
    · rename_i both
      obtain ⟨rfl, present⟩ := both
      rw [read "blocking", if_pos ⟨present, by decide⟩, same "blocking" present]
      rfl
    · rfl
  refine ⟨initial, same, ?_⟩
  rw [actionFromDict, type]
  simp only [EventClass.action_class_type event.eventClass isAction, given, Option.getD_some, built,
    untimed, timed, Attribute.text]
  by_cases refused : event.eventClass = .condensationAction ∧
      validateFieldPolymorphism event.attributes = false
  · rw [if_pos refused, if_pos refused]
    rfl
  rw [if_neg refused, if_neg refused]
  cases event.timeout with
  | none => rfl
  | some timeout =>
    change Except.ok (setHardTimeout _ timeout _) = _
    rw [setHardTimeout]
    rw [blocking]

/-- An event that is written has a message, or none. -/
theorem dict_message {env : Environment μ} {event : Event μ} {dict : EventDict}
    (written : eventToDict env event = .ok dict) :
    ∃ told, message env event.eventClass event.attributes = .ok told := by
  cases spoken : message env event.eventClass event.attributes with
  | ok told => exact ⟨told, rfl⟩
  | error error =>
    rw [eventToDict, spoken] at written
    cases written

/-- Events of a class that agree on their fields are written alike. -/
theorem event_to_dict_congr
    (agree : ∀ name ∈ event.eventClass.names, others name = event.attributes name)
    (metadata : Option μ)
    (dumped : metadata.map env.modelDump = event.toolCallMetadata.map env.modelDump) :
    eventToDict env { event with attributes := others, toolCallMetadata := metadata } =
      eventToDict env event := by
  have told := message_congr env event.eventClass event.attributes _
    (fun name present _ => agree name present)
  have fields := props_congr _ agree
  have action := top_type_congr "action" event.eventClass event.attributes others (agree _)
  have observation := top_type_congr "observation" event.eventClass event.attributes others (agree _)
  have outcome : success event.eventClass others = success event.eventClass event.attributes := by
    unfold success
    split
    · rename_i output
      rw [agree "metadata" (by rw [output]; decide)]
    · rfl
    · rfl
  unfold eventToDict topEntries
  rw [told, fields, action, observation, outcome, dumped]

theorem top_tells (told : Option Attribute) : Tells env event (topEntries env event told) :=
  ⟨rfl, rfl, rfl, rfl, rfl⟩

variable {read : Except PythonError (Event μ)}

/-- A dictionary with a type of actions is read as an action. -/
theorem event_from_action {dict : EventDict} (back : actionFromDict env dict = read)
    (isAction : dict.action.isSome = true) : eventFromDict env dict = read >>= attach env dict := by
  rw [eventFromDict]
  rw [if_pos isAction, back]

/-- A dictionary with a type of observations alone is read as an observation. -/
theorem event_from_observation {dict : EventDict} (back : observationFromDict env dict = read)
    (noAction : dict.action = none) (isObservation : dict.observation.isSome = true) :
    eventFromDict env dict = read >>= attach env dict := by
  rw [eventFromDict]
  rw [noAction, if_neg (by simp), if_pos isObservation, back]

/-- Sound actions go there and back. -/
theorem action_round_trip (readable : Readable env) (event : Event μ) (typed : Typed event)
    (isAction : event.eventClass ∈ EventClass.actions) (sound : Sound event) :
    RoundTrips env event := by
  obtain ⟨told, spoken⟩ := message_ok env _ typed sound
  obtain ⟨args, carries, written⟩ := action_dict env _ typed isAction _ spoken
  obtain ⟨present, -, -⟩ := action_fields _ isAction
  have type : (topEntries env event told).action = some (.text event.eventClass.eventType) :=
    top_type_typed _ typed present (by decide)
  obtain ⟨initial, same, back⟩ := action_back env event typed isAction args carries
    { topEntries env event told with args := some args, timeout := event.timeout } type rfl rfl
  have valid : ¬(event.eventClass = .condensationAction ∧
      validateFieldPolymorphism event.attributes = false) := by
    rintro ⟨condensation, invalid⟩
    rw [Sound] at sound
    rw [condensation] at sound
    simp [invalid] at sound
  rw [if_neg valid] at back
  obtain ⟨metadata, dumped, attached⟩ := attach_back env readable _
    { eventClass := event.eventClass, attributes := initial, timeout := event.timeout } _
    (top_tells env event told) ⟨rfl, rfl, rfl, rfl, rfl⟩
  refine ⟨_, { event with attributes := initial, toolCallMetadata := metadata }, written, ?_, ?_, ?_⟩
  · exact (event_from_action env back (Option.isSome_iff_exists.mpr ⟨_, type⟩)).trans attached
  · exact ⟨rfl, fun name listed => congrArg Attribute.plain (same name listed), rfl, rfl, rfl, rfl,
      fun _ => rfl⟩
  · exact (event_to_dict_congr env _ _ same _ dumped).trans written

/-- Actions that go there and back are sound. -/
theorem action_sound (typed : Typed event) (isAction : event.eventClass ∈ EventClass.actions)
    (back : RoundTrips env event) : Sound event := by
  obtain ⟨dict, decoded, written, read, -, -⟩ := back
  obtain ⟨told, spoken⟩ := dict_message written
  rw [Sound]
  split
  · rename_i rejection
    intro outputs reason held found
    rw [rejection, message] at spoken
    rw [held] at spoken
    dsimp only at spoken
    rw [found] at spoken
    split at spoken
    · rename_i none
      cases none
    · rename_i value given
      exact ⟨value, Option.some.inj given⟩
    · cases spoken
  · rename_i output
    rw [output] at isAction
    exact absurd isAction (by decide)
  · rename_i condensation
    by_contra invalid
    obtain ⟨args, carries, dictionary⟩ := action_dict env _ typed isAction _ spoken
    obtain ⟨present, -, -⟩ := action_fields _ isAction
    have type : (topEntries env event told).action = some (.text event.eventClass.eventType) :=
      top_type_typed _ typed present (by decide)
    obtain ⟨initial, -, refused⟩ := action_back env event typed isAction args carries
      { topEntries env event told with args := some args, timeout := event.timeout } type rfl rfl
    rw [if_pos ⟨condensation, by simpa using invalid⟩] at refused
    rw [dictionary] at written
    cases written
    have failed := event_from_action env refused (Option.isSome_iff_exists.mpr ⟨_, type⟩)
    cases failed.symm.trans read
  · exact trivial

end ForgePilot.EventSerialization
