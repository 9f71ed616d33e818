import ForgePilot.ActionRoundTrips

/-!
# Events there and back

The extras of an observation hold the values of members of enumerations, and metadata and
knowledge as dictionaries. Reading gives them back but for implementations, which come back
as the texts they equal and are written alike. Command output is cut when it is constructed;
what cutting leaves is not cut again, whatever its length.

An event therefore goes there and back when its dictionary can be written at all, when the
constructor accepts what is read, and when it does not cut it. From the first trip on nothing
changes, since the dictionary stays the same.
-/

namespace ForgePilot.EventSerialization

open EventClasses List OrderedDict
open Events (EventSource RecallType)

variable {μ : Type}

/-! ## Command output -/

/-- The ends of a text are as long as what is taken of them. -/
theorem ends_kept (half : Nat) (first middle last : List Char) (start : first.length = half)
    (stop : last.length = half) :
    (first ++ middle ++ last).take half ++ middle ++
      (first ++ middle ++ last).drop ((first ++ middle ++ last).length - half) =
      first ++ middle ++ last := by
  have rest : (first ++ middle ++ last).length - half = (first ++ middle).length := by
    simp only [length_append]
    omega
  rw [rest, drop_left, append_assoc first middle last, ← start, take_left]
  exact append_assoc _ _ _

/-- Cutting a text that was cut leaves it. -/
theorem truncate_again (maxSize : Nat) (content : List Char) :
    maybeTruncate maxSize (maybeTruncate maxSize content) = maybeTruncate maxSize content := by
  by_cases short : content.length ≤ maxSize
  · have whole : maybeTruncate maxSize content = content := if_pos short
    rw [whole, whole]
  have cut : maybeTruncate maxSize content = content.take (maxSize / 2) ++ truncationNotice ++
      content.drop (content.length - maxSize / 2) := if_neg short
  have first : (content.take (maxSize / 2)).length = maxSize / 2 := by
    rw [length_take]
    omega
  have last : (content.drop (content.length - maxSize / 2)).length = maxSize / 2 := by
    rw [length_drop]
    omega
  rw [cut]
  generalize content.take (maxSize / 2) = start at first
  generalize content.drop (content.length - maxSize / 2) = stop at last
  rw [maybeTruncate]
  split
  · rfl
  · exact ends_kept _ _ _ _ first last

/-- Content that was cut is not cut again. -/
theorem truncate_content_again (content cut : Attribute) (done : truncateContent content = .ok cut) :
    truncateContent cut = .ok cut := by
  unfold truncateContent at done
  split at done
  · cases done
    simp [truncateContent, Attribute.text, truncate_again]
  · cases done

/-- A text or nothing is read back. -/
theorem optional_in_back (entries : List (String × Value)) (name : String) (value : Option String)
    (found : OrderedDict.find name entries = some (optionalValue value)) :
    optionalIn entries name = .ok value := by
  rw [optionalIn, found]
  cases value <;> rfl

/-- The metadata of command output are read back from their dictionary. -/
theorem metadata_back (metadata : CmdOutputMetadata) :
    metadataOf (dumpMetadata metadata) = .ok metadata := by
  have username := optional_in_back (dumpMetadata metadata) "username" metadata.username rfl
  have hostname := optional_in_back (dumpMetadata metadata) "hostname" metadata.hostname rfl
  have workingDir := optional_in_back (dumpMetadata metadata) "working_dir" metadata.workingDir rfl
  have interpreter := optional_in_back (dumpMetadata metadata) "py_interpreter_path"
    metadata.pyInterpreterPath rfl
  rw [metadataOf, username, hostname, workingDir, interpreter]
  rfl

theorem knowledge_back (items : List MicroagentKnowledge) :
    ((items.map Sum.inl).map knowledgeValue).mapM knowledgeOf = .ok (items.map Sum.inl) := by
  induction items with
  | nil => rfl
  | cons known rest ih =>
    have one : knowledgeOf (knowledgeValue (.inl known)) = .ok (.inl known) := rfl
    rw [map_cons, map_cons, mapM_cons, one, ih]
    rfl

theorem recall_back (recallType : RecallType) :
    recallOf (.data (.str (recallValue recallType))) = .ok recallType := by
  cases recallType <;> rfl

/-! ## Observations -/

/-- An attribute as an observation is given it back: an implementation as its text. -/
def loaded : Attribute → Attribute
  | .readSource source => .text source.value
  | .editSource source => .text source.value
  | held => held

/-- What is given back equals what was written. -/
theorem loaded_same (held : Attribute) : (loaded held).Same held := by
  cases held <;> rfl

/-- What is given back is written alike. -/
theorem extra_loaded (held : Attribute) :
    extraValue (asdict (loaded held)) = extraValue (asdict held) := by
  cases held <;> rfl

variable {held : Attribute}

variable {type : FieldType} (holds : type.Holds held)
include holds

/-- A field of a plain type is given back from its extra. -/
theorem extra_of_type
    (plain : type ≠ .securityRisk ∧ type ≠ .confirmationState ∧ type ≠ .recallType ∧
      type ≠ .metadata ∧ type ≠ .knowledge) : extraValue (asdict held) = loaded held := by
  cases held with
  | data value => rfl
  | readSource source => rfl
  | editSource source => rfl
  | _ => cases type <;> simp_all [FieldType.Holds, Attribute.text, Attribute.nothing]

/-- Other than for implementations what is given back is the attribute itself. -/
theorem loaded_of_type (other : type ≠ .readSource ∧ type ≠ .editSource) : loaded held = held := by
  cases held with
  | readSource source => cases type <;> simp_all [FieldType.Holds, Attribute.text, Attribute.nothing]
  | editSource source => cases type <;> simp_all [FieldType.Holds, Attribute.text, Attribute.nothing]
  | _ => rfl

omit holds

def extrasOf (eventClass : EventClass) (attributes : String → Attribute) :
    OrderedDict String Attribute :=
  ((withoutTopKeys (props eventClass attributes)).erase "content").mapValues extraValue

variable (env : Environment μ) (event : Event μ) (eventClass : EventClass)

/-- The extras are the fields but for the content. -/
theorem extras_carry (attributes : String → Attribute) :
    Carries eventClass ("content" :: topKeys) (extrasOf eventClass attributes)
      (fun name => extraValue (asdict (attributes name))) := by
  intro name
  rw [extrasOf, get_map_values, get_erase, kept_carries _ _ name]
  by_cases content : name = "content" <;> by_cases top : name ∈ topKeys <;>
    by_cases present : name ∈ eventClass.names <;> simp [content, top, present]

/-- Deleting keys commutes with a change of the values. -/
theorem erase_all_map (keys : List String) (change : Attribute → Attribute)
    (dict : OrderedDict String Attribute) :
    (keys.foldl OrderedDict.erase dict).mapValues change =
      keys.foldl OrderedDict.erase (dict.mapValues change) := by
  induction keys generalizing dict with
  | nil => rfl
  | cons key rest ih => rw [foldl_cons, foldl_cons, ih, erase_map_values]

theorem extras_congr (attributes others : String → Attribute) (agree : ∀ name ∈ eventClass.names,
      extraValue (asdict (others name)) = extraValue (asdict (attributes name))) :
    extrasOf eventClass others = extrasOf eventClass attributes := by
  have fields : (props eventClass others).mapValues extraValue =
      (props eventClass attributes).mapValues extraValue := by
    simp only [mapValues, props, mk.injEq, map_map]
    apply map_congr_left
    intro field listed
    exact congrArg (Prod.mk field.name) (agree field.name (mem_map_of_mem listed))
  rw [extrasOf, extrasOf, ← erase_map_values, ← erase_map_values,
    withoutTopKeys, withoutTopKeys, erase_all_map, erase_all_map, fields]

/-- What comes back as the content: command output that is not hidden is cut. -/
def ContentBack (event : Event μ) (held : Attribute) : Prop :=
  if event.eventClass = .cmdOutputObservation ∧ (event.attributes "hidden").truthy = false then
    truncateContent (event.attributes "content") = .ok held
  else held = event.attributes "content"

variable {args : OrderedDict String Attribute}

/-- Command output from arguments without legacy ones. -/
theorem initialise_output {content command : String} {metadata : CmdOutputMetadata} {hidden : Bool}
    (contentGiven : args.get "content" = some (.text content))
    (commandGiven : args.get "command" = some (.text command))
    (typeGiven : args.get "observation" = none)
    (metadataGiven : args.get "metadata" = some (.metadata metadata))
    (hiddenGiven : args.get "hidden" = some (.data (.bool hidden)))
    (noCode : args.get "exit_code" = none) (noCommand : args.get "command_id" = none)
    (cut : (if hidden = true then pure (.text content) else truncateContent (.text content)) =
      Except.ok held) :
    initialiseCmdOutput args = .ok (fun name => if name = "content" then held
      else if name = "command" then .text command
      else if name = "observation" then .text "run"
      else if name = "metadata" then .metadata metadata
      else if name = "hidden" then .data (.bool hidden)
      else .nothing) := by
  rw [initialiseCmdOutput]
  rw [contentGiven, commandGiven, typeGiven, metadataGiven, hiddenGiven, noCode, noCommand]
  simp only [Option.getD_some, Option.getD_none]
  cases hidden with
  | true =>
    cases cut
    rfl
  | false =>
    rw [if_neg (by decide)] at cut ⊢
    rw [cut]
    rfl

section Observation

variable (event : Event μ) (typed : Typed event)
variable (isObservation : event.eventClass ∈ EventClass.observations)
include typed isObservation

theorem content_text : ∃ value, event.attributes "content" = .text value := by
  obtain ⟨-, -, present, -, types⟩ := observation_fields _ isObservation
  obtain ⟨field, listed, named, holds⟩ := typed_name typed present
  rw [(types field listed).2.2 named] at holds
  exact holds

/-- A field of an observation other than metadata, a type of recall and knowledge is given back
from its extra. -/
theorem extra_plain (name : String) (present : name ∈ event.eventClass.names)
    (plain : name ∉ ["metadata", "recall_type", "microagent_knowledge"] ∨
      event.eventClass ≠ .cmdOutputObservation ∧ event.eventClass ≠ .recallObservation) :
    extraValue (asdict (event.attributes name)) = loaded (event.attributes name) := by
  obtain ⟨field, listed, rfl, holds⟩ := typed_name typed present
  obtain ⟨-, -, -, -, types⟩ := observation_fields _ isObservation
  obtain ⟨metadata, recalled, knowledge⟩ := special_fields _ isObservation _ listed
  refine extra_of_type holds
    ⟨(types field listed).1, (types field listed).2.1, fun type => ?_, fun type => ?_, fun type => ?_⟩
  · obtain ⟨ofClass, named⟩ := recalled.mp type
    rcases plain with plain | ⟨-, other⟩
    · exact plain (by simp [named])
    · exact other ofClass
  · obtain ⟨ofClass, named⟩ := metadata.mp type
    rcases plain with plain | ⟨other, -⟩
    · exact plain (by simp [named])
    · exact other ofClass
  · obtain ⟨ofClass, named⟩ := knowledge.mp type
    rcases plain with plain | ⟨-, other⟩
    · exact plain (by simp [named])
    · exact other ofClass

variable (extras : OrderedDict String Attribute)

variable (written : Carries event.eventClass ("content" :: topKeys) extras (fun name => extraValue
    (asdict (event.attributes name))))

include written in
omit typed isObservation in
/-- Deprecated extras are not there. -/
theorem undeprecated : ∃ current, handleObservationDeprecatedExtras extras = .ok current ∧
      Carries event.eventClass ("content" :: topKeys) current
        (fun name => extraValue (asdict (event.attributes name))) := by
  have code : moveExtra "exit_code" "exit_code" extras = .ok extras := by
    rw [moveExtra, retired_none written _ (by decide)]
  have command : moveExtra "command_id" "pid" extras = .ok extras := by
    rw [moveExtra, retired_none written _ (by decide)]
  refine ⟨extras.erase "formatted_output_and_error", ?_, erase_retired written _ (by decide)⟩
  rw [handleObservationDeprecatedExtras, code]
  change (moveExtra "command_id" "pid" extras >>= _) = _
  rw [command]
  rfl

variable (output : event.eventClass = .cmdOutputObservation)

include output in
/-- The extras of command output are read back. -/
theorem read_output (extras : OrderedDict String Attribute)
    (written : Carries event.eventClass ("content" :: topKeys) extras
      (fun name => extraValue (asdict (event.attributes name)))) :
    ∃ read, readMetadata extras = .ok read ∧ Carries event.eventClass ("content" :: topKeys) read
        (fun name => loaded (event.attributes name)) := by
  have present : "metadata" ∈ event.eventClass.names := by rw [output]; decide
  obtain ⟨metadata, held⟩ := declared_holds event typed "metadata" .metadata (by rw [output]; rfl)
  have found : extras.get "metadata" = some (.data (.mapping (dumpMetadata metadata))) := by
    rw [written "metadata", if_pos ⟨present, by decide⟩]
    dsimp only
    rw [held]
    rfl
  refine ⟨extras.set "metadata" (.metadata metadata), ?_, ?_⟩
  · rw [readMetadata, found]
    dsimp only
    rw [metadata_back]
    rfl
  · refine carries_set written _ _ present (by decide)
      (by rw [held]; rfl) ?_
    intro name listed other
    refine extra_plain _ typed isObservation _ listed (.inl ?_)
    rw [output] at listed
    revert other
    revert name
    decide

theorem read_recall (ofRecall : event.eventClass = .recallObservation)
    (extras : OrderedDict String Attribute)
    (written : Carries event.eventClass ("content" :: topKeys) extras
      (fun name => extraValue (asdict (event.attributes name)))) :
    ∃ typedExtras read, readRecallType extras = .ok typedExtras ∧
      readKnowledge typedExtras = .ok read ∧
      Carries event.eventClass ("content" :: topKeys) read
        (fun name => loaded (event.attributes name)) := by
  have typePresent : "recall_type" ∈ event.eventClass.names := by rw [ofRecall]; decide
  have present : "microagent_knowledge" ∈ event.eventClass.names := by rw [ofRecall]; decide
  obtain ⟨recallType, type⟩ := declared_holds event typed "recall_type" .recallType
    (by rw [ofRecall]; rfl)
  obtain ⟨items, held⟩ := declared_holds event typed "microagent_knowledge" .knowledge
    (by rw [ofRecall]; rfl)
  have typedCarries := set_carries written (.recall recallType) typePresent
    (by decide)
  have typeFound : extras.get "recall_type" = some (.data (.str (recallValue recallType))) := by
    rw [written "recall_type", if_pos ⟨typePresent, by decide⟩]
    dsimp only
    rw [type]
    rfl
  have found : (extras.set "recall_type" (.recall recallType)).get "microagent_knowledge" =
      some (.data (.list ((items.map Sum.inl).map knowledgeValue))) := by
    rw [typedCarries "microagent_knowledge", if_pos ⟨present, by decide⟩]
    dsimp only
    rw [if_neg (by decide), held]
    rfl
  refine ⟨extras.set "recall_type" (.recall recallType),
    (extras.set "recall_type" (.recall recallType)).set "microagent_knowledge"
      (.knowledge (items.map .inl)), ?_, ?_, ?_⟩
  · rw [readRecallType, typeFound]
    dsimp only
    rw [recall_back]
    rfl
  · rw [readKnowledge, found]
    dsimp only
    rw [knowledge_back]
    rfl
  · refine carries_set typedCarries "microagent_knowledge" (.knowledge (items.map .inl))
      present (by decide) (by rw [held]; rfl) ?_
    intro name listed unknown
    by_cases same : name = "recall_type"
    · rw [if_pos same, same, type]
      rfl
    rw [if_neg same]
    refine extra_plain event typed isObservation name listed (.inl ?_)
    rw [ofRecall] at listed
    revert same unknown
    revert name
    decide

include written in
theorem read_extras : ∃ read, readExtras event.eventClass extras = .ok read ∧
      Carries event.eventClass ("content" :: topKeys) read
        (fun name => loaded (event.attributes name)) := by
  unfold readExtras
  split
  · rename_i output
    obtain ⟨read, back, carries⟩ := read_output _ typed isObservation output _ written
    exact ⟨read, back, output ▸ carries⟩
  · rename_i ofRecall
    obtain ⟨typedExtras, read, first, back, carries⟩ :=
      read_recall _ typed isObservation ofRecall _ written
    refine ⟨read, ?_, ofRecall ▸ carries⟩
    rw [first]
    exact back
  · rename_i output ofRecall
    refine ⟨extras, rfl, carries_congr written ?_⟩
    intro name listed _
    exact extra_plain _ typed isObservation _ listed (.inr ⟨output, ofRecall⟩)

/-- The arguments of an observation: its extras and its content. -/
theorem arguments_carry (read : Carries event.eventClass ("content" :: topKeys) extras
      (fun name => loaded (event.attributes name))) :
    Carries event.eventClass topKeys (extras.set "content" (event.attributes "content"))
      (fun name => loaded (event.attributes name)) := by
  obtain ⟨-, -, present, -, -⟩ := observation_fields _ isObservation
  obtain ⟨value, text⟩ := content_text _ typed isObservation
  intro name
  rw [get_set, read name]
  by_cases content : name = "content"
  · rw [if_pos content, content, if_pos ⟨present, by decide⟩]
    dsimp only
    rw [text]
    rfl
  · rw [if_neg content]
    simp [content]

include output in
/-- Command output is constructed from its arguments, with its content cut unless it is hidden. -/
theorem construct_output (args : OrderedDict String Attribute)
    (carries : Carries event.eventClass topKeys args (fun name => loaded (event.attributes name))) :
    ∃ initial held, initialiseCmdOutput args = .ok initial ∧ ContentBack event held ∧
      ∀ name ∈ event.eventClass.names,
        initial name = if name = "content" then held else loaded (event.attributes name) := by
  obtain ⟨content, text⟩ := content_text _ typed isObservation
  obtain ⟨command, commandHeld⟩ := declared_holds event typed "command" .str (by rw [output]; rfl)
  obtain ⟨metadata, metadataHeld⟩ := declared_holds _ typed "metadata" .metadata
    (by rw [output]; rfl)
  obtain ⟨hidden, hiddenHeld⟩ := declared_holds event typed "hidden" .bool (by rw [output]; rfl)
  have type := typed_top event typed "observation" (by rw [output]; decide) (by decide)
  rw [output] at carries
  have argument (name : String) (present : name ∈ EventClass.names .cmdOutputObservation)
      (kept : name ∉ topKeys) : args.get name = some (loaded (event.attributes name)) := by
    rw [carries name, if_pos ⟨present, kept⟩]
  obtain ⟨held, cut, back⟩ : ∃ held,
      (if hidden = true then pure (.text content) else truncateContent (.text content)) =
        Except.ok held ∧ ContentBack event held := by
    unfold ContentBack
    rw [hiddenHeld, text]
    cases hidden with
    | true => exact ⟨.text content, rfl, by rw [if_neg (by simp [Attribute.truthy])]⟩
    | false => exact ⟨_, rfl, by rw [if_pos ⟨output, rfl⟩]; rfl⟩
  have gone (name : String) (old : name ∈ retired) : args.get name = none :=
    retired_none carries _ old
  have contentGiven := argument "content" (by decide) (by decide)
  have commandGiven := argument "command" (by decide) (by decide)
  have metadataGiven := argument "metadata" (by decide) (by decide)
  have hiddenGiven := argument "hidden" (by decide) (by decide)
  rw [text] at contentGiven
  rw [commandHeld] at commandGiven
  rw [metadataHeld] at metadataGiven
  rw [hiddenHeld] at hiddenGiven
  have typeGiven : args.get "observation" = none := by
    rw [carries "observation", if_neg (fun both => both.2 (by decide))]
  refine ⟨_, held, initialise_output contentGiven
    commandGiven typeGiven metadataGiven hiddenGiven (gone _ (by decide)) (gone _ (by decide)) cut,
    back, fun name listed => ?_⟩
  have fields : name ∈ ["content", "command", "observation", "metadata", "hidden"] := by
    rwa [output] at listed
  simp only [mem_cons, not_mem_nil, or_false] at fields
  rcases fields with rfl | rfl | rfl | rfl | rfl
  · rfl
  · rw [commandHeld]
    rfl
  · rw [type, output]
    rfl
  · rw [metadataHeld]
    rfl
  · rw [hiddenHeld]
    rfl

theorem construct_observation (version : String) (args : OrderedDict String Attribute)
    (carries : Carries event.eventClass topKeys args (fun name => loaded (event.attributes name))) :
    ∃ initial held, construct version event.eventClass args = .ok initial ∧
      ContentBack event held ∧ ∀ name ∈ event.eventClass.names,
        initial name = if name = "content" then held else loaded (event.attributes name) := by
  by_cases output : event.eventClass = .cmdOutputObservation
  · obtain ⟨initial, held, built, back, same⟩ :=
      construct_output event typed isObservation output args carries
    refine ⟨initial, held, ?_, back, same⟩
    rw [output]
    exact built
  · obtain ⟨initial, built, same⟩ := initialise_carries version carries
      (fun name present top => by rw [typed_top event typed name present top]; rfl)
    obtain ⟨content, text⟩ := content_text event typed isObservation
    refine ⟨initial, event.attributes "content", ?_, ?_, ?_⟩
    · unfold construct
      split
      · rename_i other
        exact absurd other output
      · rename_i condensation
        rw [condensation] at isObservation
        exact absurd isObservation (by decide)
      · exact built
    · rw [ContentBack, if_neg (fun both => output both.1)]
    · intro name listed
      rw [same name listed]
      split
      · rename_i named
        rw [named, text]
        rfl
      · rfl

theorem observation_back (env : Environment μ) {dict : EventDict}
    (type : dict.observation = some (.text event.eventClass.eventType))
    (contentGiven : dict.content = some (event.attributes "content"))
    (extrasGiven : dict.extras = some (extrasOf event.eventClass event.attributes)) :
    ∃ initial held, ContentBack event held ∧ (∀ name ∈ event.eventClass.names,
        initial name = if name = "content" then held else loaded (event.attributes name)) ∧
      observationFromDict env dict =
        .ok { eventClass := event.eventClass, attributes := initial } := by
  obtain ⟨current, undated, written⟩ := undeprecated _ _ (extras_carry _ _)
  obtain ⟨read, readBack, carries⟩ := read_extras _ typed isObservation _ written
  obtain ⟨initial, held, built, back, same⟩ := construct_observation _ typed isObservation
    _ _ (arguments_carry _ typed isObservation _ carries)
  have unnamed : "content" ∉ read.keys := by
    rw [← get_eq_none_iff, carries "content", if_neg (fun both => both.2 (by decide))]
  refine ⟨initial, held, back, same, ?_⟩
  rw [observationFromDict]
  rw [type, contentGiven, extrasGiven]
  simp only [Attribute.text, EventClass.observation_class_type _ isObservation, Option.getD_some]
  rw [undated]
  change (readExtras _ _ >>= _) = _
  rw [readBack]
  change (if "content" ∈ read.keys then _ else _) = _
  rw [if_neg unnamed]
  rw [built]
  rfl

end Observation

/-! ## Observations there and back -/

def observationDict (env : Environment μ) (event : Event μ) (told : Option Attribute) : EventDict :=
  { topEntries env event told with
    content := some (event.attributes "content")
    extras := some (extrasOf event.eventClass event.attributes)
    success := success event.eventClass event.attributes }

/-- An observation whose type and content are texts is written as its dictionary. -/
theorem observation_dict (isObservation : event.eventClass ∈ EventClass.observations)
    (told : Option Attribute) (spoken : message env event.eventClass event.attributes = .ok told)
    (type : event.attributes "observation" = .text event.eventClass.eventType)
    (content : ∃ value, event.attributes "content" = .text value) :
    eventToDict env event = .ok (observationDict env event told) := by
  obtain ⟨present, unacted, given, unrisked, -⟩ := observation_fields event.eventClass isObservation
  obtain ⟨value, text⟩ := content
  have noAction : (topEntries env event told).action = none := top_type_absent _ unacted
  have atTop : (topEntries env event told).observation.isSome = true := by
    change (topType "observation" event.eventClass event.attributes).isSome = true
    rw [topType, type, if_pos ⟨present, by simp [isNothing, Attribute.text]⟩]
    rfl
  have kept := kept_carries event.eventClass event.attributes
  have undropped : dropNothing "task_completed" (dropNothing "security_risk"
      (withoutTopKeys (props event.eventClass event.attributes))) =
      withoutTopKeys (props event.eventClass event.attributes) := by
    rw [drop_absent "security_risk" (by rw [kept, if_neg (fun both => unrisked both.1)]),
      drop_absent "task_completed" (retired_none kept "task_completed" (by decide))]
  have contentKept : (withoutTopKeys (props event.eventClass event.attributes)).get "content" =
      some (event.attributes "content") := by
    rw [kept "content", if_pos ⟨given, by decide⟩]
    dsimp only
    rw [text]
    rfl
  rw [eventToDict, spoken]
  change (if (topEntries env event told).action.isSome then _ else _) = _
  rw [if_neg (by simp [noAction]), if_pos atTop, undropped, contentKept]
  rfl

/-- An observation that is typed is written and read back, with its content cut as command output
that is not hidden. -/
theorem observation_trip {env : Environment μ} (readable : Readable env) {event : Event μ}
    (typed : Typed event) (isObservation : event.eventClass ∈ EventClass.observations)
    {told : Option Attribute} (spoken : message env event.eventClass event.attributes = .ok told) :
    ∃ initial held metadata, ContentBack event held ∧ (∀ name ∈ event.eventClass.names,
        initial name = if name = "content" then held else loaded (event.attributes name)) ∧
      metadata.map env.modelDump = event.toolCallMetadata.map env.modelDump ∧
      eventToDict env event = .ok (observationDict env event told) ∧
      eventFromDict env (observationDict env event told) =
        .ok { event with attributes := initial, timeout := none, toolCallMetadata := metadata } := by
  obtain ⟨present, unacted, -, -, -⟩ := observation_fields _ isObservation
  have type : (observationDict env event told).observation =
      some (.text event.eventClass.eventType) :=
    top_type_typed _ typed present (by decide)
  have noAction : (observationDict env event told).action = none := top_type_absent _ unacted
  obtain ⟨initial, held, back, same, read⟩ := observation_back _ typed isObservation env type rfl rfl
  obtain ⟨metadata, dumped, attached⟩ := attach_back env readable _
    { eventClass := event.eventClass, attributes := initial } (observationDict env event told)
    ⟨rfl, rfl, rfl, rfl, rfl⟩ ⟨rfl, rfl, rfl, rfl, rfl⟩
  refine ⟨initial, held, metadata, back, same, dumped, ?_, ?_⟩
  · exact observation_dict env _ isObservation _ spoken
      (typed_top _ typed _ present (by decide))
      (content_text _ typed isObservation)
  · exact (event_from_observation env read noAction
      (Option.isSome_iff_exists.mpr ⟨_, type⟩)).trans attached

/-- Other fields than the implementation are given back as they were. -/
theorem loaded_field (typed : Typed event) (name : String) (present : name ∈ event.eventClass.names)
    (other : name ≠ "impl_source") : loaded (event.attributes name) = event.attributes name := by
  obtain ⟨field, listed, rfl, holds⟩ := typed_name typed present
  exact loaded_of_type holds (source_fields _ _ listed other)

/-- What is given back of an observation is written alike. -/
theorem rewritten (typed : Typed event) (isObservation : event.eventClass ∈ EventClass.observations)
    (told : Option Attribute) (spoken : message env event.eventClass event.attributes = .ok told)
    {initial : String → Attribute}
    (same : ∀ name ∈ event.eventClass.names, initial name = loaded (event.attributes name))
    {metadata : Option μ}
    (dumped : metadata.map env.modelDump = event.toolCallMetadata.map env.modelDump) :
    eventToDict env
        { event with attributes := initial, timeout := none, toolCallMetadata := metadata } =
      .ok (observationDict env event told) := by
  obtain ⟨present, unacted, given, -, -⟩ := observation_fields event.eventClass isObservation
  have kept (name : String) (listed : name ∈ event.eventClass.names) (other : name ≠ "impl_source") :
      initial name = event.attributes name := by
    rw [same name listed, loaded_field event typed name listed other]
  obtain ⟨value, text⟩ := content_text event typed isObservation
  have type := kept "observation" present (by decide)
  have content := kept "content" given (by decide)
  have extras : extrasOf event.eventClass initial = extrasOf event.eventClass event.attributes :=
    extras_congr event.eventClass event.attributes initial
      (fun name listed => by rw [same name listed, extra_loaded])
  have outcome : success event.eventClass initial = success event.eventClass event.attributes := by
    unfold success
    split
    · rename_i output
      rw [kept "metadata" (by rw [output]; decide) (by decide)]
    · rfl
    · rfl
  have action := top_type_congr "action" event.eventClass event.attributes initial
    (fun listed => absurd listed unacted)
  have observation := top_type_congr "observation" event.eventClass event.attributes initial
    (fun _ => type)
  have written := observation_dict env
    { event with attributes := initial, timeout := none, toolCallMetadata := metadata } isObservation
    told ((message_congr env event.eventClass event.attributes initial kept).trans spoken)
    (type.trans (typed_top event typed "observation" present (by decide)))
    ⟨value, content.trans text⟩
  rw [written]
  simp [observationDict, topEntries, extras, outcome, action, observation, content, dumped]

variable (readable : Readable env)
include readable

/-- Sound observations go there and back. -/
theorem observation_round_trip (event : Event μ) (typed : Typed event)
    (isObservation : event.eventClass ∈ EventClass.observations) (sound : Sound event) :
    RoundTrips env event := by
  obtain ⟨told, spoken⟩ := message_ok env _ typed sound
  obtain ⟨initial, held, metadata, back, same, dumped, written, read⟩ :=
    observation_trip readable typed isObservation spoken
  have kept : held = event.attributes "content" := by
    rw [ContentBack] at back
    split at back
    · rename_i shown
      rw [Sound] at sound
      rw [shown.1] at sound
      rcases sound with hidden | whole
      · rw [shown.2] at hidden
        cases hidden
      · exact Except.ok.inj (back.symm.trans whole)
    · exact back
  have loadedBack : ∀ name ∈ event.eventClass.names,
      initial name = loaded (event.attributes name) := by
    intro name listed
    rw [same name listed]
    split
    · rename_i content
      rw [kept, content, loaded_field _ typed _ (content ▸ listed) (by decide)]
    · rfl
  refine ⟨_, _, written, read, ⟨rfl, ?_, rfl, rfl, rfl, rfl, ?_⟩, ?_⟩
  · intro name listed
    change (initial name).Same _
    rw [loadedBack name listed]
    exact loaded_same _
  · intro isAction
    obtain ⟨-, unacted, -⟩ := observation_fields _ isObservation
    exact absurd (action_fields _ isAction).1 unacted
  · exact rewritten env _ typed isObservation _ spoken loadedBack dumped

/-- Observations that go there and back are sound. -/
theorem observation_sound (event : Event μ) (typed : Typed event)
    (isObservation : event.eventClass ∈ EventClass.observations) (back : RoundTrips env event) :
    Sound event := by
  obtain ⟨dict, decoded, written, read, reloaded, -⟩ := back
  obtain ⟨told, spoken⟩ := dict_message written
  obtain ⟨initial, held, metadata, contentBack, same, -, dictionary, readBack⟩ :=
    observation_trip readable typed isObservation spoken
  cases dictionary.symm.trans written
  cases readBack.symm.trans read
  rw [Sound]
  split
  · rename_i rejection
    rw [rejection] at isObservation
    exact absurd isObservation (by decide)
  · rename_i output
    cases hidden : (event.attributes "hidden").truthy with
    | true => exact .inl rfl
    | false =>
      have present : "content" ∈ event.eventClass.names := by rw [output]; decide
      have equal := reloaded.fields "content" present
      obtain ⟨value, text⟩ := content_text _ typed isObservation
      rw [ContentBack, if_pos ⟨output, hidden⟩] at contentBack
      refine .inr (contentBack.trans (congrArg Except.ok ?_))
      change (initial "content").plain = _ at equal
      rw [same "content" present, if_pos rfl, text] at equal
      rw [text] at contentBack ⊢
      cases contentBack
      exact equal
  · rename_i condensation
    rw [condensation] at isObservation
    exact absurd isObservation (by decide)
  · exact trivial

/-! ## Every event -/

/-- An event goes there and back exactly when it is sound. -/
theorem round_trips_iff (event : Event μ) (typed : Typed event) :
    RoundTrips env event ↔ Sound event := by
  rcases EventClass.action_or_observation .. with isAction | isObservation
  · exact ⟨action_sound env _ typed isAction, action_round_trip env readable _ typed isAction⟩
  · exact ⟨observation_sound env readable _ typed isObservation,
      observation_round_trip env readable _ typed isObservation⟩

omit readable

/-- What has come back once comes back the same any number of times. -/
theorem reloads_settle {env : Environment μ} {event : Event μ} (back : RoundTrips env event) :
    ∃ decoded, Reloaded event decoded ∧ ∀ trips, reloads env (trips + 1) event = .ok decoded := by
  obtain ⟨dict, decoded, written, read, reloaded, again⟩ := back
  have first : reload env event = .ok decoded := by
    rw [reload, written]
    exact read
  have next : reload env decoded = .ok decoded := by
    rw [reload, again]
    exact read
  have settled (trips : Nat) : reloads env trips decoded = .ok decoded := by
    induction trips with
    | zero => rfl
    | succ trips ih =>
      rw [reloads, next]
      exact ih
  refine ⟨decoded, reloaded, fun trips => ?_⟩
  rw [reloads, first]
  exact settled trips

/-- Command output that was constructed is sound: its content was cut, or it is hidden. -/
theorem constructed_sound {event : Event μ} (output : event.eventClass = .cmdOutputObservation)
    (constructed : initialiseCmdOutput args = .ok event.attributes) : Sound event := by
  rw [Sound]
  rw [output]
  rw [initialiseCmdOutput] at constructed
  split at constructed
  · split at constructed
    · generalize (args.get "hidden").getD (.data (.bool false)) = hidden at constructed
      cases shown : hidden.truthy with
      | true =>
        rw [if_pos shown] at constructed
        obtain ⟨_, _, given⟩ := bind_eq_ok _ _ constructed
        obtain ⟨_, _, metadata⟩ := bind_eq_ok _ _ given
        obtain ⟨_, _, coded⟩ := bind_eq_ok _ _ metadata
        obtain ⟨_, _, done⟩ := bind_eq_ok _ _ coded
        rw [← Except.ok.inj done]
        exact .inl shown
      | false =>
        rw [if_neg (by simp [shown])] at constructed
        obtain ⟨cut, truncated, given⟩ := bind_eq_ok _ _ constructed
        obtain ⟨_, _, metadata⟩ := bind_eq_ok _ _ given
        obtain ⟨_, _, coded⟩ := bind_eq_ok _ _ metadata
        obtain ⟨_, _, done⟩ := bind_eq_ok _ _ coded
        rw [← Except.ok.inj done]
        exact .inr (truncate_content_again _ cut truncated)
    · cases constructed
  · cases constructed

/-- Surroundings in which the metadata of a tool call are the entries they are dumped as. -/
def entriesEnvironment : Environment (List (String × Value)) where
  version := "1.0.0"
  printed _ := ""
  literalEval _ := none
  modelDump := .mapping
  modelValidate
    | .mapping entries => .ok entries
    | _ => .error .validationError

/-- Entries are read back as they were dumped. -/
theorem entries_readable : Readable entriesEnvironment := fun metadata => ⟨metadata, rfl, rfl⟩

/-- What a long command printed. -/
def longText : List Char := List.replicate 40000 'a'

/-- The observation of a long command output in a stream. -/
def longOutput : Event (List (String × Value)) where
  eventClass := .cmdOutputObservation
  attributes name :=
    if name = "content" then .text (String.ofList (maybeTruncate maxCmdOutputSize longText))
    else if name = "command" then .text "cat build.log"
    else if name = "observation" then .text "run"
    else if name = "metadata" then .metadata { exitCode := 0, username := some "root" }
    else if name = "hidden" then .data (.bool false)
    else .nothing
  id := 7
  timestamp := some "2025-03-01T12:00:00"
  source := some .agent
  cause := some 6
  toolCallMetadata := some
    [("function_name", .str "execute_bash"), ("tool_call_id", .str "call_1"),
      ("total_calls_in_response", .int 1)]

/-- The arguments a long command output is constructed from. -/
def longArguments : OrderedDict String Attribute where
  entries :=
    [("content", .text (String.ofList longText)), ("command", .text "cat build.log"),
      ("metadata", .metadata { exitCode := 0, username := some "root" }),
      ("hidden", .data (.bool false))]
  distinct := by decide

theorem long_output_typed : Typed longOutput := by
  simp only [Typed, longOutput, EventClass.fields, forall_mem_cons]
  exact ⟨⟨_, rfl⟩, ⟨_, rfl⟩, rfl, ⟨_, rfl⟩, ⟨_, rfl⟩, by simp⟩

/-- The long command output was constructed from its arguments. -/
theorem long_output_constructed :
    initialiseCmdOutput longArguments = .ok longOutput.attributes := by
  refine initialise_output rfl rfl rfl rfl rfl rfl rfl ?_
  simp [truncateContent, Attribute.text]

/-- A rejection whose reason is a number. -/
def numberedRejection : Event (List (String × Value)) where
  eventClass := .agentRejectAction
  attributes name :=
    if name = "outputs" then .data (.mapping [("reason", .int 5)])
    else if name = "thought" then .text ""
    else .text "reject"
  id := 4
  source := some .agent

end ForgePilot.EventSerialization
