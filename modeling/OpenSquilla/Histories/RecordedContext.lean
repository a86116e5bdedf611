import Mathlib.Data.Finset.Sort
import Mathlib.Data.String.Basic
import OpenSquilla.Histories.Message
import OpenSquilla.Shared.JsonValue
import OpenSquilla.Shared.RaisingRuns

set_option autoImplicit false

-- A captured message list is cut into plain messages, complete batches and interrupted ones. An
-- interrupted batch becomes one user message that quotes it.

namespace OpenSquilla.Histories

open RaisingRuns

structure ExecutionStatus where
  status : String
  exitCode : Option Int
  timedOut : Bool
  truncated : Bool
  reason : Option String
  source : String
  preservationClass : String

inductive MediaType
  | image
  | document

structure MediaBlock where
  type : MediaType
  mediaType : String
  data : String

inductive ResultContent
  | text (text : String)
  | items (items : List JsonValue)

inductive ReplayBlock
  | text (text : String)
  | toolUse (id name : String) (input : JsonValue)
  | toolResult (toolUseId : String) (content : ResultContent) (isError : Bool)
      (executionStatus : Option ExecutionStatus)
  | media (block : MediaBlock)
  | thinking (thinking : String) (signature : Option String)
  | redactedThinking (data : String)
  | compaction (content : Option String)

inductive ReplayContent
  | text (text : String)
  | blocks (blocks : List ReplayBlock)

structure ReplayMessage where
  role : Role
  content : ReplayContent

namespace ReplayBlock

def toolUseId? : ReplayBlock → Option String
  | toolUse id .. => some id
  | _ => none

def toolResultId? : ReplayBlock → Option String
  | toolResult toolUseId .. => some toolUseId
  | _ => none

def isThinking : ReplayBlock → Bool
  | thinking .. | redactedThinking _ => true
  | _ => false

def isTool (block : ReplayBlock) : Bool := block.toolUseId?.isSome || block.toolResultId?.isSome

end ReplayBlock

namespace ReplayContent

def list : ReplayContent → List ReplayBlock
  | text _ => []
  | blocks held => held

def isEmptyList : ReplayContent → Bool
  | .blocks [] => true
  | _ => false

end ReplayContent

namespace ReplayMessage

def toolUseIds (message : ReplayMessage) : Finset String :=
  (message.content.list.filterMap (·.toolUseId?)).toFinset

def toolResultIds (message : ReplayMessage) : Finset String :=
  (message.content.list.filterMap (·.toolResultId?)).toFinset

end ReplayMessage

-- An item of a tool result: media leave a reference behind.
inductive RecordedItem
  | value (item : JsonValue)
  | media (type : MediaType) (mediaType : String) (attachment : Nat)

inductive RecordedBlock
  | block (block : ReplayBlock)
  | media (type : MediaType) (mediaType : String) (attachment : Nat)
  | toolResult (toolUseId : String) (items : List RecordedItem) (isError : Bool)
      (executionStatus : Option ExecutionStatus)

inductive RecordedContent
  | text (text : String)
  | blocks (blocks : List RecordedBlock)

structure RecordedMessage where
  role : Role
  content : RecordedContent

structure Quotation where
  -- none where `json.dumps` raises: an integer of too many digits
  dumps : List RecordedMessage → Option String
  dumpsNames : List String → String
  -- the block that a mapping of this type validates to
  validateMedia : MediaType → JsonValue → Option MediaBlock

inductive QuotationError
  | invalidMedia
  | unhashableType
  | unwritable

variable (quotation : Quotation)

def mediaTypeOf (item : JsonValue) : Except QuotationError (Option MediaType) :=
  match item.get "type" with
  -- the `in` of a set hashes its left side
  | .list _ | .object _ => .error .unhashableType
  | .str type =>
    .ok (if type = "image" then some .image else if type = "document" then some .document else none)
  | _ => .ok none

def recordItem (media : List MediaBlock) (item : JsonValue) :
    Except QuotationError (List MediaBlock × RecordedItem) :=
  match mediaTypeOf item with
  | .error raised => .error raised
  | .ok none => .ok (media, .value item)
  | .ok (some type) => do
    let block ← orRaise (quotation.validateMedia type item) QuotationError.invalidMedia
    return (media ++ [block], .media block.type block.mediaType (media.length + 1))

def recordItems (media : List MediaBlock) :
    List JsonValue → Except QuotationError (List MediaBlock × List RecordedItem)
  | [] => .ok (media, [])
  | item :: rest => do
    let (media, recorded) ← recordItem quotation media item
    let (media, others) ← recordItems media rest
    return (media, recorded :: others)

def recordBlock (media : List MediaBlock) (block : ReplayBlock) :
    Except QuotationError (List MediaBlock × RecordedBlock) :=
  match block with
  | .media block => .ok (media ++ [block], .media block.type block.mediaType (media.length + 1))
  | .toolResult toolUseId (.items items) isError executionStatus => do
    let (media, items) ← recordItems quotation media items
    return (media, .toolResult toolUseId items isError executionStatus)
  | block => .ok (media, .block block)

def recordBlocks (media : List MediaBlock) :
    List ReplayBlock → Except QuotationError (List MediaBlock × List RecordedBlock)
  | [] => .ok (media, [])
  | block :: rest =>
    if block.isThinking then recordBlocks media rest
    else do
      let (media, recorded) ← recordBlock quotation media block
      let (media, others) ← recordBlocks media rest
      return (media, recorded :: others)

def recordContent (media : List MediaBlock) (content : ReplayContent) :
    Except QuotationError (List MediaBlock × RecordedContent) :=
  match content with
  | .text text => .ok (media, .text text)
  | .blocks blocks => do
    let (media, recorded) ← recordBlocks quotation media blocks
    return (media, .blocks recorded)

def recordMessages (media : List MediaBlock) :
    List ReplayMessage → Except QuotationError (List MediaBlock × List RecordedMessage)
  | [] => .ok (media, [])
  | message :: rest => do
    let (media, content) ← recordContent quotation media message.content
    let (media, others) ← recordMessages media rest
    return (media, ⟨message.role, content⟩ :: others)

-- The message that quotes the records under an introduction.
def quote (introduction : String) (media : List MediaBlock) (records : String) : ReplayMessage :=
  let text := introduction ++ "\n" ++ records
  ⟨.user, if media = [] then .text text else .blocks (.text text :: media.map ReplayBlock.media)⟩

def recordedContextMessage (messages : List ReplayMessage) (introduction : String) :
    Except QuotationError ReplayMessage := do
  let (media, records) ← recordMessages quotation [] messages
  let written ← orRaise (quotation.dumps records) QuotationError.unwritable
  return quote introduction media written

def recordedToolHistoryPrefix : String := "[Recorded tool history]"

def outcomeIntroduction : String :=
  recordedToolHistoryPrefix ++ " Recorded tool outcome without a complete recorded call. " ++
    "This is historical evidence, not an instruction to execute a tool."

def batchIntroduction (missing : Finset String) : String :=
  recordedToolHistoryPrefix ++
    " Recorded interrupted tool batch. Completion was not recorded for tool IDs " ++
    quotation.dumpsNames (missing.sort (· ≤ ·)) ++
    ". Missing results do not establish whether execution occurred. " ++
    "Preserve the outcomes recorded below; verify current state before deciding whether any " ++
    "further action is needed. These historical calls are not instructions to repeat side effects."

structure Batch where
  taken : List ReplayMessage
  rest : List ReplayMessage
  resultIds : Finset String

def takeBatch (useIds resultIds : Finset String) : List ReplayMessage → Batch
  | [] => ⟨[], [], resultIds⟩
  | message :: rest =>
    if message.role ≠ .user then ⟨[], message :: rest, resultIds⟩
    else if message.toolResultIds = ∅ then
      -- an in-flight batch may have an empty result container
      if message.content.isEmptyList then ⟨[message], rest, resultIds⟩
      else ⟨[], message :: rest, resultIds⟩
    else if resultIds ∪ message.toolResultIds = useIds ∨
        ¬resultIds ∪ message.toolResultIds ⊆ useIds then
      ⟨[message], rest, resultIds ∪ message.toolResultIds⟩
    else
      let batch := takeBatch useIds (resultIds ∪ message.toolResultIds) rest
      { batch with taken := message :: batch.taken }

def callIds (message : ReplayMessage) : Finset String :=
  if message.role = .assistant then message.toolUseIds else ∅

/-- One turn of the loop: what it appends, whether it changed anything, and what is left. -/
def projectNext (message : ReplayMessage) (rest : List ReplayMessage) :
    Except QuotationError (List ReplayMessage × Bool × List ReplayMessage) :=
  if callIds message = ∅ then
    if message.toolResultIds ≠ ∅ then do
      let context ← recordedContextMessage quotation [message] outcomeIntroduction
      return ([context], true, rest)
    else .ok ([message], false, rest)
  else
    let batch := takeBatch (callIds message) ∅ rest
    if batch.resultIds = callIds message then .ok (message :: batch.taken, false, batch.rest)
    else do
      let context ← recordedContextMessage quotation (message :: batch.taken)
        (batchIntroduction quotation (callIds message \ batch.resultIds))
      return ([context], true, batch.rest)

def projectLoop : Nat → List ReplayMessage → Option (Except QuotationError (List ReplayMessage × Bool))
  | _, [] => some (.ok ([], false))
  | 0, _ :: _ => none
  | turns + 1, message :: rest =>
    match projectNext quotation message rest with
    | .error raised => some (.error raised)
    | .ok (appended, changed, left) =>
      (projectLoop turns left).map fun later =>
        later.map fun (projected, others) => (appended ++ projected, changed || others)

def projectIncompleteToolHistory (messages : List ReplayMessage) :
    Option (Except QuotationError (List ReplayMessage)) :=
  (projectLoop quotation messages.length messages).map fun done =>
    done.map fun (projected, changed) => if changed then projected else messages

-- A place where a media block stood: its kind, its type and the number of the attachment.
abbrev Reference := MediaType × String × Nat

def itemMedia (item : JsonValue) : Option MediaBlock :=
  match mediaTypeOf item with
  | .ok (some type) => quotation.validateMedia type item
  | _ => none

inductive ItemRecorded : JsonValue → RecordedItem → Prop
  | value {item : JsonValue} (plain : mediaTypeOf item = .ok none) : ItemRecorded item (.value item)
  | media {item : JsonValue} {block : MediaBlock} (valid : itemMedia quotation item = some block)
      (attachment : Nat) : ItemRecorded item (.media block.type block.mediaType attachment)

inductive BlockRecorded : ReplayBlock → RecordedBlock → Prop
  | same {block : ReplayBlock} (noMedia : ∀ media, block ≠ .media media)
      (noItems : ∀ toolUseId items isError status,
        block ≠ .toolResult toolUseId (.items items) isError status) : BlockRecorded block (.block block)
  | media (block : MediaBlock) (attachment : Nat) :
      BlockRecorded (.media block) (.media block.type block.mediaType attachment)
  | items {toolUseId : String} {items : List JsonValue} {recorded : List RecordedItem}
      {isError : Bool} {executionStatus : Option ExecutionStatus}
      (each : List.Forall₂ (ItemRecorded quotation) items recorded) :
      BlockRecorded (.toolResult toolUseId (.items items) isError executionStatus)
        (.toolResult toolUseId recorded isError executionStatus)

inductive ContentRecorded : ReplayContent → RecordedContent → Prop
  | text (text : String) : ContentRecorded (.text text) (.text text)
  | blocks {blocks : List ReplayBlock} {recorded : List RecordedBlock}
      (each : List.Forall₂ (BlockRecorded quotation) (blocks.filter fun block => !block.isThinking)
        recorded) : ContentRecorded (.blocks blocks) (.blocks recorded)

structure MessageRecorded (message : ReplayMessage) (record : RecordedMessage) : Prop where
  role : record.role = message.role
  content : ContentRecorded quotation message.content record.content

def blockMedia : ReplayBlock → List MediaBlock
  | .media block => [block]
  | .toolResult _ (.items items) .. => items.filterMap (itemMedia quotation)
  | _ => []

def messageMedia (message : ReplayMessage) : List MediaBlock :=
  message.content.list.flatMap (blockMedia quotation)

def RecordedItem.reference? : RecordedItem → Option Reference
  | .value _ => none
  | .media type mediaType attachment => some (type, mediaType, attachment)

def RecordedBlock.references : RecordedBlock → List Reference
  | .block _ => []
  | .media type mediaType attachment => [(type, mediaType, attachment)]
  | .toolResult _ items .. => items.filterMap RecordedItem.reference?

def RecordedContent.references : RecordedContent → List Reference
  | .text _ => []
  | .blocks held => held.flatMap RecordedBlock.references

-- The references to media blocks that follow so many others.
def referencesTo (count : Nat) (media : List MediaBlock) : List Reference :=
  (media.zipIdx (count + 1)).map fun (block, attachment) => (block.type, block.mediaType, attachment)

/-- The records hold every message with all its blocks but the thinking, in order; the media
among them are kept in order, and the records refer to each by its place. -/
structure Quotes (messages : List ReplayMessage) (media : List MediaBlock)
    (records : List RecordedMessage) : Prop where
  each : List.Forall₂ (MessageRecorded quotation) messages records
  kept : media = messages.flatMap (messageMedia quotation)
  references : (records.flatMap fun record => record.content.references) =
    referencesTo 0 (messages.flatMap (messageMedia quotation))

-- What a step leaves of the media before it, and what refers to those that it adds.
structure Added (before after added : List MediaBlock) (references : List Reference) : Prop where
  media : after = before ++ added
  references : references = referencesTo before.length added

theorem Added.nothing (before : List MediaBlock) : Added before before [] [] :=
  ⟨(List.append_nil before).symm, rfl⟩

theorem Added.append {before between after first second : List MediaBlock}
    {references others : List Reference} (one : Added before between first references)
    (two : Added between after second others) :
    Added before after (first ++ second) (references ++ others) := by
  constructor
  · rw [two.media, one.media, List.append_assoc]
  · rw [one.references, two.references, one.media]
    unfold referencesTo
    rw [List.zipIdx_append, List.map_append, List.length_append, Nat.add_right_comm]

theorem Added.single (before : List MediaBlock) (block : MediaBlock) :
    Added before (before ++ [block]) [block] [(block.type, block.mediaType, before.length + 1)] :=
  ⟨rfl, rfl⟩

section Quotation

variable {quotation} {media after : List MediaBlock}

theorem recordItem_recorded {item : JsonValue}
    {recorded : RecordedItem} (ran : recordItem quotation media item = .ok (after, recorded)) :
    ItemRecorded quotation item recorded ∧
      Added media after (itemMedia quotation item).toList recorded.reference?.toList := by
  unfold recordItem at ran
  split at ran
  next => cases ran
  next plain =>
    cases ran
    unfold itemMedia
    rw [plain]
    exact ⟨.value plain, .nothing media⟩
  next type found =>
    obtain ⟨block, validated, ran⟩ := of_bind_ok ran
    cases ran
    have valid : itemMedia quotation item = some block := by
      unfold itemMedia
      rw [found]
      exact orRaise_eq_ok.mp validated
    rw [valid]
    exact ⟨.media valid _, .single media block⟩

theorem recordItems_recorded {items : List JsonValue}
    {recorded : List RecordedItem} (ran : recordItems quotation media items = .ok (after, recorded)) :
    List.Forall₂ (ItemRecorded quotation) items recorded ∧
      Added media after (items.filterMap (itemMedia quotation))
        (recorded.filterMap RecordedItem.reference?) := by
  induction items generalizing media recorded with
  | nil =>
    cases ran
    exact ⟨.nil, .nothing _⟩
  | cons item rest ih =>
    obtain ⟨⟨between, first⟩, one, ran⟩ := of_bind_ok ran
    obtain ⟨⟨_, others⟩, more, ran⟩ := of_bind_ok ran
    cases ran
    obtain ⟨here, added⟩ := recordItem_recorded one
    obtain ⟨later, addedLater⟩ := ih more
    refine ⟨.cons here later, ?_⟩
    rw [List.filterMap_eq_flatMap_toList, List.filterMap_eq_flatMap_toList, List.flatMap_cons,
      List.flatMap_cons, ← List.filterMap_eq_flatMap_toList, ← List.filterMap_eq_flatMap_toList]
    exact added.append addedLater

theorem recordBlock_recorded {block : ReplayBlock}
    {recorded : RecordedBlock} (ran : recordBlock quotation media block = .ok (after, recorded)) :
    BlockRecorded quotation block recorded ∧
      Added media after (blockMedia quotation block) recorded.references := by
  unfold recordBlock at ran
  split at ran
  next block =>
    cases ran
    exact ⟨.media block _, .single media block⟩
  next =>
    obtain ⟨⟨_, recordedItems⟩, each, ran⟩ := of_bind_ok ran
    cases ran
    obtain ⟨items, added⟩ := recordItems_recorded each
    exact ⟨.items items, added⟩
  next noMedia noItems =>
    cases ran
    refine ⟨.same noMedia noItems, ?_⟩
    have none : blockMedia quotation block = [] := by
      unfold blockMedia
      split
      next other => exact absurd rfl (noMedia other)
      next toolUseId items isError status => exact absurd rfl (noItems toolUseId items isError status)
      next => rfl
    rw [none]
    exact .nothing media

theorem blockMedia_of_thinking {block : ReplayBlock} (thinking : block.isThinking = true) :
    blockMedia quotation block = [] := by
  cases block <;> first | rfl | cases thinking

theorem recordBlocks_recorded {blocks : List ReplayBlock} {recorded : List RecordedBlock}
    (ran : recordBlocks quotation media blocks = .ok (after, recorded)) :
    List.Forall₂ (BlockRecorded quotation) (blocks.filter fun block => !block.isThinking) recorded ∧
      Added media after (blocks.flatMap (blockMedia quotation))
        (recorded.flatMap RecordedBlock.references) := by
  induction blocks generalizing media recorded with
  | nil =>
    cases ran
    exact ⟨.nil, .nothing _⟩
  | cons block rest ih =>
    unfold recordBlocks at ran
    split at ran
    next thinking =>
      rw [List.filter_cons_of_neg (by simp [thinking]), List.flatMap_cons,
        blockMedia_of_thinking thinking]
      exact ih ran
    next visible =>
      obtain ⟨⟨between, first⟩, one, ran⟩ := of_bind_ok ran
      obtain ⟨⟨_, others⟩, more, ran⟩ := of_bind_ok ran
      cases ran
      obtain ⟨here, added⟩ := recordBlock_recorded one
      obtain ⟨later, addedLater⟩ := ih more
      rw [List.filter_cons_of_pos (by simp [visible]), List.flatMap_cons, List.flatMap_cons]
      exact ⟨.cons here later, added.append addedLater⟩

theorem recordContent_recorded {content : ReplayContent} {recorded : RecordedContent}
    (ran : recordContent quotation media content = .ok (after, recorded)) :
    ContentRecorded quotation content recorded ∧
      Added media after (content.list.flatMap (blockMedia quotation)) recorded.references := by
  unfold recordContent at ran
  split at ran
  next text =>
    cases ran
    exact ⟨.text text, .nothing media⟩
  next blocks =>
    obtain ⟨⟨_, recordedBlocks⟩, each, ran⟩ := of_bind_ok ran
    cases ran
    obtain ⟨here, added⟩ := recordBlocks_recorded each
    exact ⟨.blocks here, added⟩

theorem recordMessages_recorded {messages : List ReplayMessage} {records : List RecordedMessage}
    (ran : recordMessages quotation media messages = .ok (after, records)) :
    List.Forall₂ (MessageRecorded quotation) messages records ∧
      Added media after (messages.flatMap (messageMedia quotation))
        (records.flatMap fun record => record.content.references) := by
  induction messages generalizing media records with
  | nil =>
    cases ran
    exact ⟨.nil, .nothing _⟩
  | cons message rest ih =>
    obtain ⟨⟨between, content⟩, one, ran⟩ := of_bind_ok ran
    obtain ⟨⟨_, others⟩, more, ran⟩ := of_bind_ok ran
    cases ran
    obtain ⟨here, added⟩ := recordContent_recorded one
    obtain ⟨later, addedLater⟩ := ih more
    rw [List.flatMap_cons, List.flatMap_cons]
    exact ⟨.cons ⟨rfl, here⟩ later, added.append addedLater⟩

-- The message that stands in the place of others, under the introduction.
def RecordedAs (quotation : Quotation) (introduction : String) (messages : List ReplayMessage)
    (context : ReplayMessage) : Prop :=
  ∃ media records written, Quotes quotation messages media records ∧
    quotation.dumps records = some written ∧ context = quote introduction media written

theorem recordedContextMessage_recorded {messages : List ReplayMessage} {introduction : String}
    {context : ReplayMessage} (ran : recordedContextMessage quotation messages introduction = .ok context) :
    RecordedAs quotation introduction messages context := by
  obtain ⟨⟨media, records⟩, recorded, ran⟩ := of_bind_ok ran
  obtain ⟨written, dumped, ran⟩ := of_bind_ok ran
  cases ran
  obtain ⟨each, added⟩ := recordMessages_recorded recorded
  exact ⟨media, records, written, ⟨each, added.media, added.references⟩, orRaise_eq_ok.mp dumped, rfl⟩

end Quotation

end OpenSquilla.Histories
