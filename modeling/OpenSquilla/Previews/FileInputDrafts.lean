import OpenSquilla.Previews.PartialFileInput
import Mathlib.Algebra.Order.Ring.Unbundled.Rat

set_option autoImplicit false

namespace OpenSquilla.Previews

open TextLines JsonText BoundedTail TextScan

def previewIntervalSeconds : Rat := 1

def previewActiveToolLimit : Nat := 8

def previewSeenToolLimit : Nat := 64

inductive PreviewState
  | generating
  | committed
  | discarded
  deriving DecidableEq

structure ToolInputPreview where
  previewId : Nat
  attemptId : Nat
  generationEpoch : Option Int
  toolUseId : Text
  revision : Nat
  state : PreviewState
  toolName : FileTool
  path : Text
  content : Text
  truncated : Bool

/-- The events of a provider's stream. What is not the text that it is declared to be is `none`. -/
inductive Event (P : Type)
  | toolUseStart (toolUseId : Option Text) (toolName : Text) (generationEpoch : Option Int)
  | toolUseDelta (toolUseId : Option Text) (jsonFragment : Option Str)
  | toolUseEnd (toolUseId : Option Text) (toolName : Text) (arguments : Option (Dict Text (Option Text)))
  | toolInputPreview (toolUseId : Text) (payload : P)
  | providerGenerationReset (payload : P)
  | error (payload : P)
  | done (payload : P)
  | other (payload : P)

structure FileInputDrafts where
  attemptId : Nat
  drawn : Nat
  inputs : Dict Text (PartialFileInput Kept)
  previews : Dict Text ToolInputPreview
  published : Dict Text Rat
  seen : List Text
  delegated : List Text
  epochs : Dict Text (Option Int)

namespace FileInputDrafts

variable {P : Type}

def start : FileInputDrafts := ⟨0, 1, .empty, .empty, .empty, [], [], .empty⟩

def activeTools (drafts : FileInputDrafts) : List Text :=
  drafts.previews.keys ++ drafts.inputs.keys.filter fun toolId => toolId ∉ drafts.previews.keys

def discarded (preview : ToolInputPreview) : ToolInputPreview :=
  { preview with state := .discarded, revision := preview.revision + 1, content := [] }

def discard (drafts : FileInputDrafts) : List ToolInputPreview × FileInputDrafts :=
  (drafts.previews.values.map discarded, { drafts with previews := .empty, inputs := .empty })

def isTruncated (source : PartialFileInput Kept) : Bool := previewContentLimit < source.contentChars

def isReady (source : PartialFileInput Kept) : Bool :=
  source.contentChars ≠ 0 && (source.toolName ≠ .writeFile || source.pathComplete && source.path ≠ [])

def snapshot (drafts : FileInputDrafts) (now : Rat) (toolId : Text) (force : Bool) :
    List ToolInputPreview × FileInputDrafts :=
  match drafts.inputs.get? toolId with
  | none => ([], drafts)
  | some source =>
    if isReady source = false then ([], drafts)
    else
      let previous := drafts.previews.get? toolId
      let same := previous.any fun previous =>
        previous.path = source.path && previous.content = source.content.content && previous.truncated =
          isTruncated source
      -- what was shown before was published with it
      let early :=
        previous.isSome && !force && now - (drafts.published.get? toolId).getD 0 < previewIntervalSeconds
      if same || early then ([], drafts)
      else
        let event : ToolInputPreview :=
          { previewId := previous.elim drafts.drawn (·.previewId)
            attemptId := drafts.attemptId
            generationEpoch := (drafts.epochs.get? toolId).getD none
            toolUseId := toolId
            revision := previous.elim 1 (·.revision + 1)
            state := .generating
            toolName := source.toolName
            path := source.path
            content := source.content.content
            truncated := isTruncated source }
        ([event],
          { drafts with
            drawn := if previous.isSome then drafts.drawn else drafts.drawn + 1
            previews := drafts.previews.set toolId event
            published := drafts.published.set toolId now })

def fileTool? (toolName : Text) : Option FileTool :=
  if toolName = FileTool.name .writeFile then some .writeFile
  else if toolName = FileTool.name .executeCode then some .executeCode
  else none

def observeStart (drafts : FileInputDrafts) (toolUseId : Option Text) (toolName : Text)
    (generationEpoch : Option Int) : List ToolInputPreview × FileInputDrafts :=
  match toolUseId with
  | none => ([], drafts)
  | some toolId =>
    if strip toolId = [] || 256 < toolId.length then ([], drafts)
    else if toolId ∈ drafts.seen then drafts.discard
    else if previewSeenToolLimit ≤ drafts.seen.length then ([], drafts)
    else
      let drafts := { drafts with seen := drafts.seen ++ [toolId] }
      match fileTool? toolName with
      | some tool =>
        if toolId ∉ drafts.delegated ∧ drafts.activeTools.length < previewActiveToolLimit then
          ([], { drafts with
            inputs := drafts.inputs.set toolId (.initial (keptStore previewContentLimit) tool)
            epochs := drafts.epochs.set toolId generationEpoch })
        else ([], drafts)
      | none => ([], drafts)

def observeDelta (drafts : FileInputDrafts) (now : Rat) (toolUseId : Option Text) (jsonFragment : Option Str) :
    List ToolInputPreview × FileInputDrafts :=
  match toolUseId, jsonFragment with
  | some toolId, some fragment =>
    match drafts.inputs.get? toolId with
    | some source =>
      let source := source.feed fragment
      snapshot { drafts with inputs := drafts.inputs.set toolId source } now toolId source.contentComplete
    | none => ([], drafts)
  | _, _ => ([], drafts)

-- The completed arguments, where they are those of the tool.
def completed (source : PartialFileInput Kept) (arguments : Dict Text (Option Text)) : PartialFileInput Kept :=
  match arguments.get? source.toolName.contentKey, arguments.get? "path".toList with
  | some (some content), path =>
    let shown : Kept := ⟨lastOf previewContentLimit content, []⟩
    match source.toolName, path with
    | .executeCode, _ => { source with content := shown, contentChars := content.length }
    | .writeFile, some (some path) =>
      if 0 < path.length ∧ path.length ≤ previewPathLimit then
        { source with path := path, pathComplete := true, content := shown, contentChars := content.length }
      else source
    | .writeFile, _ => source
  | _, _ => source

def observeEnd (drafts : FileInputDrafts) (now : Rat) (toolUseId : Option Text) (toolName : Text)
    (arguments : Option (Dict Text (Option Text))) : List ToolInputPreview × FileInputDrafts :=
  match toolUseId with
  | none => ([], drafts)
  | some toolId =>
    let drafts :=
      match drafts.inputs.get? toolId, arguments with
      | some source, some arguments =>
        if toolName = source.toolName.name then
          { drafts with inputs := drafts.inputs.set toolId (completed source arguments) }
        else drafts
      | _, _ => drafts
    let (events, drafts) := drafts.snapshot now toolId true
    (events, { drafts with inputs := drafts.inputs.erase toolId })

def observe (drafts : FileInputDrafts) (now : Rat) : Event P → List ToolInputPreview × FileInputDrafts
  | .toolInputPreview toolUseId _ =>
    ([], { drafts with
      delegated := if drafts.delegated.length < previewSeenToolLimit ∧ toolUseId ∉ drafts.delegated
        then drafts.delegated ++ [toolUseId] else drafts.delegated
      inputs := drafts.inputs.erase toolUseId })
  | .toolUseStart toolUseId toolName generationEpoch => drafts.observeStart toolUseId toolName generationEpoch
  | .toolUseDelta toolUseId jsonFragment => drafts.observeDelta now toolUseId jsonFragment
  | .toolUseEnd toolUseId toolName arguments => drafts.observeEnd now toolUseId toolName arguments
  | .providerGenerationReset _ =>
    let (events, drafts) := drafts.discard
    (events,
      { drafts with
        attemptId := drafts.drawn, drawn := drafts.drawn + 1, seen := [], delegated := []
        epochs := .empty })
  | .error _ => drafts.discard
  | .done _ | .other _ => ([], drafts)

end FileInputDrafts

inductive Output (P : Type)
  | preview (event : ToolInputPreview)
  | passed (event : Event P)

inductive Ending
  | exhausted
  | raised

section Observing

variable {P : Type}

def Event.isDone : Event P → Bool
  | .done _ => true
  | _ => false

-- What is yielded for the events, each at the time that the clock shows.
def observeAll (drafts : FileInputDrafts) : List (Rat × Event P) → List (Output P) × FileInputDrafts
  | [] => ([], drafts)
  | (now, event) :: events =>
    let (previews, drafts) := drafts.observe now event
    let (outputs, drafts) := observeAll drafts events
    (previews.map .preview ++ .passed event :: outputs, drafts)

def previewFileInputs (events : List (Rat × Event P)) (ending : Ending) : List (Output P) :=
  let (outputs, drafts) := observeAll .start events
  let completed := events.any fun event => event.2.isDone
  match ending with
  | .exhausted => if completed then outputs else outputs ++ drafts.discard.1.map .preview
  | .raised => outputs ++ drafts.discard.1.map .preview

end Observing

end OpenSquilla.Previews
