import Mathlib.Data.Finset.Empty
import OpenSquilla.Projections.SettledBlocks

set_option autoImplicit false

namespace OpenSquilla.Projections

open TextLines TextScan JsonText
open RaisingRuns (of_bind_ok exists_mapM_ok mapM_eq_ok_map)

variable {F : Type} (lib : Libraries F) (references : Finset (Text × Text))

section Blocks

def Block.bare : Block F → Block F
  | .toolUse block => .toolUse { block with input := Dict.empty }
  | .toolResult block => .toolResult { block with content := .text [] }
  | .other payload => .other payload

def Block.Settles : Block F → Prop
  | .toolUse block => block.Settles lib
  | .toolResult block => block.Settles lib references
  | .other _ => True

def Block.projected : Block F → Block F × Counts
  | .toolUse block =>
    (.toolUse (block.projected lib).1, ⟨(block.projected lib).2.toNat, 0, 0⟩)
  | .toolResult block =>
    (.toolResult (block.projected lib references).1,
      ⟨0, (block.projected lib references).2.toNat, 0⟩)
  | .other payload => (.other payload, ⟨0, 0, 0⟩)

def Block.Goes : Block F → Prop
  | .toolUse block => block.Goes lib
  | .toolResult block => block.Goes lib references
  | .other _ => True

theorem projectBlock_eq_ok {block : Block F} {result : Block F × Counts} :
    projectBlock lib references block = .ok result ↔
      block.Goes lib references ∧ result = block.projected lib references := by
  cases block with
  | toolUse block =>
    constructor
    · intro ran
      obtain ⟨next, projected, ran⟩ := of_bind_ok ran
      obtain ⟨goes, rfl⟩ := (projectHistoricalToolUse_eq_ok lib).mp projected
      exact ⟨goes, (Except.ok.inj ran).symm⟩
    · rintro ⟨goes, rfl⟩
      rw [projectBlock, (projectHistoricalToolUse_eq_ok lib).mpr ⟨goes, rfl⟩]
      rfl
  | toolResult block =>
    constructor
    · intro ran
      obtain ⟨next, projected, ran⟩ := of_bind_ok ran
      obtain ⟨goes, rfl⟩ := (projectHistoricalToolResult_eq_ok lib references).mp projected
      exact ⟨goes, (Except.ok.inj ran).symm⟩
    · rintro ⟨goes, rfl⟩
      rw [projectBlock, (projectHistoricalToolResult_eq_ok lib references).mpr ⟨goes, rfl⟩]
      rfl
  | other payload =>
    exact ⟨fun ran => ⟨trivial, (Except.ok.inj ran).symm⟩, fun both => congrArg Except.ok both.2.symm⟩

variable {lib references}

theorem ToolUse.projected_unchanged {block : ToolUse F} (unchanged : (block.projected lib).2 = false) :
    (block.projected lib).1 = block := by
  rw [ToolUse.projected] at unchanged ⊢
  split at unchanged
  · rename_i short
    rw [if_pos short]
  · cases unchanged

theorem ToolResult.projected_unchanged {block : ToolResult F}
    (unchanged : (block.projected lib references).2 = false) : (block.projected lib references).1 = block := by
  rcases projected_cases lib references block with same | ⟨reference, -, -, -, projected⟩
  · rw [same]
  · rw [projected] at unchanged
    cases unchanged

theorem Block.projected_unchanged {block : Block F}
    (unchanged : (block.projected lib references).2.toolUsesProjected +
      (block.projected lib references).2.toolResultsProjected = 0) :
    (block.projected lib references).1 = block := by
  cases block with
  | toolUse block =>
    exact congrArg Block.toolUse (ToolUse.projected_unchanged (by simpa [Block.projected] using unchanged))
  | toolResult block =>
    exact congrArg Block.toolResult (ToolResult.projected_unchanged (by simpa [Block.projected] using unchanged))
  | other payload => rfl

theorem bare_projected (block : Block F) : (block.projected lib references).1.bare = block.bare := by
  cases block with
  | toolUse block =>
    have same : (block.projected lib).1.id = block.id ∧ (block.projected lib).1.name = block.name := by
      rw [ToolUse.projected]
      split
      · exact ⟨rfl, rfl⟩
      · exact ⟨rfl, rfl⟩
    simp only [Block.projected, Block.bare, same.1, same.2]
  | toolResult block =>
    rcases ToolResult.projected_cases lib references block with same | ⟨reference, -, -, -, projected⟩
    · simp only [Block.projected, same]
    · simp only [Block.projected, Block.bare, projected]
  | other payload => rfl

omit lib references in
theorem isWritable_toolUse {block : ToolUse F} :
    isWritable block.payload = true ↔ isWritable (.object block.input.entries) = true := by
  rw [ToolUse.payload, isWritable_object]
  simp only [List.forall_mem_cons, List.not_mem_nil, false_implies, implies_true, and_true]
  exact ⟨fun both => both.2.2.2, fun input => ⟨rfl, rfl, rfl, input⟩⟩

omit lib references in
theorem isWritable_toolResult {block : ToolResult F} : isWritable block.payload = true ↔
      isWritable block.content.payload = true ∧ isWritable block.executionStatus = true := by
  rw [ToolResult.payload, isWritable_object]
  simp only [List.forall_mem_cons, List.not_mem_nil, false_implies, implies_true, and_true]
  exact ⟨fun each => ⟨each.2.2.1, each.2.2.2.2⟩, fun both => ⟨rfl, rfl, both.1, rfl, both.2⟩⟩

/-- What a settled block becomes is no larger and stays. -/
structure Block.Rests (lib : Libraries F) (references : Finset (Text × Text)) (block next : Block F) : Prop where
  goes : next.Goes lib references
  writable : isWritable next.payload = true
  noLarger : width lib.floats next.payload ≤ width lib.floats block.payload
  again : (next.projected lib references).1 = next

theorem Block.Settles.goes {block : Block F} (settles : block.Settles lib references)
    (writable : isWritable block.payload = true) : block.Goes lib references := by
  cases block with
  | toolUse block => exact ToolUse.Settles.goes settles (isWritable_toolUse.mp writable)
  | toolResult block => exact ToolResult.Settles.goes settles (isWritable_toolResult.mp writable).1
  | other payload => trivial

theorem Block.Settles.rests {block : Block F} (settles : block.Settles lib references)
    (writable : isWritable block.payload = true) : Block.Rests lib references block
      (block.projected lib references).1 := by
  cases block with
  | toolUse block =>
    have input := ToolUse.Settles.writable settles (isWritable_toolUse.mp writable)
    have short := ToolUse.Settles.projected settles
    have again : ((block.projected lib).1.projected lib).1 = (block.projected lib).1 := by
      rw [ToolUse.projected_of_short short]
    exact ⟨⟨input, .inl short⟩, isWritable_toolUse.mpr input, ToolUse.Settles.noLarger settles,
      congrArg Block.toolUse again⟩
  | toolResult block =>
    have both := isWritable_toolResult.mp writable
    obtain ⟨goes, same⟩ := ToolResult.Settles.again settles both.1
    have again : ((block.projected lib references).1.projected lib references).1 =
        (block.projected lib references).1 := by
      rw [same]
    refine ⟨goes, isWritable_toolResult.mpr ⟨goes.1, ?_⟩, ToolResult.Settles.noLarger settles,
      congrArg Block.toolResult again⟩
    rcases ToolResult.projected_cases lib references block with same | ⟨reference, -, -, -, projected⟩
    · rw [same]
      exact both.2
    · rw [projected]
      exact both.2
  | other payload => exact ⟨trivial, writable, Nat.le_refl _, rfl⟩

end Blocks

section Messages

def MessageContent.bare : MessageContent F → MessageContent F
  | .text content => .text content
  | .blocks content => .blocks (content.map Block.bare)

def Message.bare (message : Message F) : Message F :=
  { message with content := message.content.bare, reasoningContent := none }

def MessageContent.Settles : MessageContent F → Prop
  | .text _ => True
  | .blocks content => ∀ block ∈ content, block.Settles lib references

def MessageContent.Goes : MessageContent F → Prop
  | .text _ => True
  | .blocks content => ∀ block ∈ content, block.Goes lib references

def MessageContent.projected : MessageContent F → MessageContent F
  | .text content => .text content
  | .blocks content => .blocks (content.map fun block => (block.projected lib references).1)

def MessageContent.counts : MessageContent F → Counts
  | .text _ => ⟨0, 0, 0⟩
  | .blocks content => (content.map fun block => (block.projected lib references).2).foldr Counts.add ⟨0, 0, 0⟩

theorem projectBlocks_eq_ok {blocks : List (Block F)} {result : List (Block F) × Counts} :
    projectBlocks lib references blocks = .ok result ↔
      (∀ block ∈ blocks, block.Goes lib references) ∧
        result = (blocks.map fun block => (block.projected lib references).1,
          (blocks.map fun block => (block.projected lib references).2).foldr Counts.add ⟨0, 0, 0⟩) := by
  induction blocks generalizing result with
  | nil =>
      exact ⟨fun ran => ⟨List.forall_mem_nil _, (Except.ok.inj ran).symm⟩, fun both => congrArg _ both.2.symm⟩
  | cons block rest ih =>
    rw [List.forall_mem_cons]
    constructor
    · intro ran
      obtain ⟨next, projected, ran⟩ := of_bind_ok ran
      obtain ⟨later, others, ran⟩ := of_bind_ok ran
      obtain ⟨goes, rfl⟩ := (projectBlock_eq_ok lib references).mp projected
      obtain ⟨go, rfl⟩ := ih.mp others
      exact ⟨⟨goes, go⟩, (Except.ok.inj ran).symm⟩
    · rintro ⟨⟨goes, go⟩, rfl⟩
      rw [projectBlocks, (projectBlock_eq_ok lib references).mpr ⟨goes, rfl⟩, ih.mpr ⟨go, rfl⟩]
      rfl

variable {lib references} in
theorem projected_of_uncounted {blocks : List (Block F)}
    (unchanged : (MessageContent.counts lib references (.blocks blocks)).toolUsesProjected +
      (MessageContent.counts lib references (.blocks blocks)).toolResultsProjected = 0) :
    (blocks.map fun block => (block.projected lib references).1) = blocks := by
  induction blocks with
  | nil => rfl
  | cons block rest ih =>
    simp only [MessageContent.counts, List.map_cons, List.foldr_cons, Counts.add] at unchanged ih
    rw [List.map_cons, Block.projected_unchanged (by omega), ih (by omega)]

theorem projectContent_eq_ok {content : MessageContent F} {result : MessageContent F × Counts} :
    projectContent lib references content = .ok result ↔
      content.Goes lib references ∧
        result = (content.projected lib references, content.counts lib references) := by
  cases content with
  | text content => exact ⟨fun ran => ⟨trivial, (Except.ok.inj ran).symm⟩, fun both => congrArg _ both.2.symm⟩
  | blocks blocks =>
    have chosen : ∀ counts, counts = MessageContent.counts lib references (.blocks blocks) →
        (if counts.toolUsesProjected + counts.toolResultsProjected ≠ 0 then
          blocks.map fun block => (block.projected lib references).1 else blocks) =
          blocks.map fun block => (block.projected lib references).1 := by
      rintro counts rfl
      split
      · rfl
      next unchanged => exact (projected_of_uncounted (not_not.mp unchanged)).symm
    constructor
    · intro ran
      obtain ⟨next, projected, ran⟩ := of_bind_ok ran
      obtain ⟨goes, rfl⟩ := (projectBlocks_eq_ok lib references).mp projected
      rw [← Except.ok.inj ran]
      exact ⟨goes, Prod.ext (congrArg MessageContent.blocks (chosen _ rfl)) rfl⟩
    · rintro ⟨goes, rfl⟩
      rw [projectContent, (projectBlocks_eq_ok lib references).mpr ⟨goes, rfl⟩]
      exact congrArg Except.ok (Prod.ext (congrArg MessageContent.blocks (chosen _ rfl)) rfl)

def keptReasoning (preserve : Bool) (message : Message F) : Option Text :=
  if message.role = .assistant ∧ message.reasoningContent.getD [] ≠ [] ∧ preserve = false then none
  else message.reasoningContent

def Message.projected (preserve : Bool) (message : Message F) : Message F :=
  ⟨message.role, message.content.projected lib references, keptReasoning preserve message,
    message.providerReplay⟩

def Message.counts (preserve : Bool) (message : Message F) : Counts :=
  let counts := message.content.counts lib references
  ⟨counts.toolUsesProjected, counts.toolResultsProjected,
    if message.role = .assistant ∧ message.reasoningContent.getD [] ≠ [] ∧ preserve = false then
      (message.reasoningContent.getD []).length else 0⟩

theorem projectMessage_eq_ok {preserve : Bool} {message : Message F} {result : Message F × Counts} :
    projectMessage lib references preserve message = .ok result ↔
      message.content.Goes lib references ∧
        result = (message.projected lib references preserve, message.counts lib references preserve) := by
  constructor
  · intro ran
    obtain ⟨next, projected, ran⟩ := of_bind_ok ran
    obtain ⟨goes, rfl⟩ := (projectContent_eq_ok lib references).mp projected
    exact ⟨goes, (Except.ok.inj ran).symm⟩
  · rintro ⟨goes, rfl⟩
    rw [projectMessage, (projectContent_eq_ok lib references).mpr ⟨goes, rfl⟩]
    rfl

variable {lib references}

theorem bare_projectedContent (content : MessageContent F) :
    (content.projected lib references).bare = content.bare := by
  cases content with
  | text content => rfl
  | blocks content =>
    simp only [MessageContent.projected, MessageContent.bare, List.map_map, MessageContent.blocks.injEq]
    exact List.map_congr_left fun block _ => bare_projected block

omit lib references in
theorem isWritable_message {message : Message F} :
    isWritable message.payload = true ↔ isWritable message.content.payload = true ∧
      ∀ replay ∈ message.providerReplay, isWritable replay = true := by
  rw [Message.payload, isWritable_object]
  constructor
  · intro each
    refine ⟨each (named "content", message.content.payload) (by simp), fun replay found => ?_⟩
    exact each (named "provider_replay", replay) (by simp [Option.mem_def.mp found])
  · rintro ⟨content, replays⟩ field mem
    simp only [List.mem_append, List.mem_cons, List.not_mem_nil, or_false, List.mem_map,
      Option.mem_toList] at mem
    obtain ((rfl | rfl) | ⟨reasoning, -, rfl⟩) | ⟨replay, found, rfl⟩ := mem
    · rfl
    · exact content
    · rfl
    · exact replays replay found

/-- What a settled message becomes is no larger and stays. -/
structure Message.Rests (lib : Libraries F) (references : Finset (Text × Text)) (preserve : Bool)
    (message next : Message F) : Prop where
  goes : next.content.Goes lib references
  writable : isWritable next.payload = true
  noLarger : width lib.floats next.payload ≤ width lib.floats message.payload
  again : next.projected lib references preserve = next

theorem width_message_le {old new : Message F} (role : new.role = old.role)
    (replay : new.providerReplay = old.providerReplay)
    (content : width lib.floats new.content.payload ≤ width lib.floats old.content.payload)
    (reasoning : new.reasoningContent = old.reasoningContent ∨ new.reasoningContent = none) :
    width lib.floats new.payload ≤ width lib.floats old.payload := by
  rw [Message.payload, Message.payload, width_object, width_object, role, replay]
  simp only [List.map_append, List.map_map, List.sum_append, List.map_cons, List.map_nil, List.sum_cons,
      List.sum_nil,
    List.length_append, List.length_map, List.length_cons, List.length_nil, fieldWidth]
  rcases reasoning with same | none
  · rw [same]
    omega
  · rw [none]
    simp only [Option.toList_none, List.map_nil, List.sum_nil, List.length_nil]
    omega

theorem MessageContent.Settles.goes {content : MessageContent F} (settles : content.Settles lib references)
    (writable : isWritable content.payload = true) : content.Goes lib references := by
  cases content with
  | text content => trivial
  | blocks blocks =>
    have each := isWritable_array.mp writable
    exact fun block mem => Block.Settles.goes (settles block mem) (each _ (List.mem_map_of_mem mem))

theorem MessageContent.Settles.rests {content : MessageContent F}
    (settles : content.Settles lib references) (writable : isWritable content.payload = true) :
    (content.projected lib references).Goes lib references ∧
      isWritable (content.projected lib references).payload = true ∧
      width lib.floats (content.projected lib references).payload ≤
        width lib.floats content.payload ∧
      (content.projected lib references).projected lib references =
        content.projected lib references := by
  cases content with
  | text content => exact ⟨trivial, rfl, Nat.le_refl _, rfl⟩
  | blocks blocks =>
    have each := isWritable_array.mp writable
    have rests : ∀ block ∈ blocks, Block.Rests lib references block (block.projected lib references).1 :=
      fun block mem => Block.Settles.rests (settles block mem) (each _ (List.mem_map_of_mem mem))
    refine ⟨?_, ?_, ?_, ?_⟩
    · intro next mem
      obtain ⟨block, inside, rfl⟩ := List.mem_map.mp mem
      exact (rests block inside).goes
    · refine isWritable_array.mpr (List.forall_mem_map.mpr fun next mem => ?_)
      obtain ⟨block, inside, rfl⟩ := List.mem_map.mp mem
      exact (rests block inside).writable
    · simp only [MessageContent.projected, MessageContent.payload, List.map_map]
      refine width_array_le ?_
      rw [List.forall₂_map_left_iff, List.forall₂_map_right_iff, List.forall₂_same]
      exact fun block mem => (rests block mem).noLarger
    · simp only [MessageContent.projected, List.map_map, MessageContent.blocks.injEq]
      exact List.map_congr_left fun block mem => (rests block mem).again

theorem Message.rests (preserve : Bool) {message : Message F}
    (settles : message.content.Settles lib references) (writable : isWritable message.payload = true) :
    Message.Rests lib references preserve message (message.projected lib references preserve) := by
  obtain ⟨content, replay⟩ := isWritable_message.mp writable
  obtain ⟨goes, written, noLarger, again⟩ := settles.rests content
  refine ⟨goes, isWritable_message.mpr ⟨written, replay⟩, width_message_le rfl rfl noLarger ?_, ?_⟩
  · simp only [Message.projected, keptReasoning]
    split
    · exact .inr rfl
    · exact .inl rfl
  · have reasoning : keptReasoning preserve (message.projected lib references preserve) =
        keptReasoning preserve message := by
      by_cases removed : message.role = .assistant ∧ message.reasoningContent.getD [] ≠ [] ∧ preserve = false
      · have none : keptReasoning preserve message = none := if_pos removed
        rw [keptReasoning, Message.projected, none]
        split <;> rfl
      · have stays : keptReasoning preserve message = message.reasoningContent := if_neg removed
        rw [keptReasoning, Message.projected, stays, if_neg removed]
    unfold Message.projected at reasoning ⊢
    rw [reasoning, again]

end Messages

section Sessions

def Block.result? : Block F → Option (ToolResult F)
  | .toolResult block => some block
  | _ => none

def MessageContent.results : MessageContent F → List (ToolResult F)
  | .text _ => []
  | .blocks content => content.filterMap Block.result?

def toolResults (messages : List (Message F)) : List (ToolResult F) :=
  messages.flatMap fun message => message.content.results

variable (preserve : Bool) (messages : List (Message F))

/-- The replay is stable: only payloads change, they grow no larger, a second projection finds nothing to do, what is
shortened keeps its reference, and what cannot be found again is left alone. -/
structure StableReplay (projected : List (Message F)) (result : HistoricalReplayProjectionResult) : Prop where
  bare : projected.map Message.bare = messages.map Message.bare
  noLarger : result.payloadCharsAfter ≤ result.payloadCharsBefore
  again : ∃ later, projectHistoricalToolPayloads lib references projected preserve = .ok (projected, later)
  reference : List.Forall₂ (fun old new => new.content ≠ old.content →
    new.reference lib = old.reference lib) (toolResults messages) (toolResults projected)
  unverified : List.Forall₂ (fun old new => ¬old.IsVerified lib references → new = old)
    (toolResults messages) (toolResults projected)

def ReplaysStably : Prop :=
  ∃ projected result, projectHistoricalToolPayloads lib references messages preserve = .ok (projected, result) ∧
    StableReplay lib references preserve messages projected result

def sessionPayload : Json F := .array (messages.map Message.payload)

/-- All of it can be written, and every block is left alone or shortened far enough. -/
structure Settles : Prop where
  writable : isWritable (sessionPayload messages) = true
  each : ∀ message ∈ messages, message.content.Settles lib references

def projectedMessages : List (Message F) :=
  messages.map fun message => message.projected lib references preserve

def replayed : HistoricalReplayProjectionResult where
  messagesIn := messages.length
  messagesOut := (projectedMessages lib references preserve messages).length
  payloadCharsBefore := width lib.floats (sessionPayload messages)
  payloadCharsAfter := width lib.floats (sessionPayload (projectedMessages lib references preserve messages))
  counts := (messages.map fun message => message.counts lib references preserve).foldl Counts.add ⟨0, 0, 0⟩

variable {preserve messages}

theorem projectHistoricalToolPayloads_eq_ok {projected : List (Message F)}
    {result : HistoricalReplayProjectionResult} :
    projectHistoricalToolPayloads lib references messages preserve = .ok (projected, result) ↔
      (isWritable (sessionPayload messages) = true ∧
        (∀ message ∈ messages, message.content.Goes lib references) ∧
        isWritable (sessionPayload (projectedMessages lib references preserve messages)) = true) ∧
      projected = projectedMessages lib references preserve messages ∧
      result = replayed lib references preserve messages := by
  have known : (∀ message ∈ messages, message.content.Goes lib references) →
      messages.mapM (projectMessage lib references preserve) =
        .ok (messages.map fun message =>
          (message.projected lib references preserve, message.counts lib references preserve)) :=
    fun goes => mapM_eq_ok_map fun message mem =>
      (projectMessage_eq_ok lib references).mpr ⟨goes message mem, rfl⟩
  have nexts : (messages.map fun message => (message.projected lib references preserve,
      message.counts lib references preserve)).map Prod.fst =
        projectedMessages lib references preserve messages := by
    rw [List.map_map]
    rfl
  have counts : (messages.map fun message => (message.projected lib references preserve,
      message.counts lib references preserve)).map Prod.snd =
        messages.map fun message => message.counts lib references preserve := by
    rw [List.map_map]
    rfl
  constructor
  · intro ran
    obtain ⟨before, counted, ran⟩ := of_bind_ok ran
    obtain ⟨writable, rfl⟩ := (jsonChars_eq_ok lib).mp counted
    obtain ⟨steps, stepped, ran⟩ := of_bind_ok ran
    have goes : ∀ message ∈ messages, message.content.Goes lib references := by
      intro message mem
      obtain ⟨step, done⟩ := exists_mapM_ok.mp ⟨steps, stepped⟩ message mem
      exact ((projectMessage_eq_ok lib references).mp done).1
    cases stepped.symm.trans (known goes)
    rw [nexts, counts] at ran
    obtain ⟨after, counted, ran⟩ := of_bind_ok ran
    obtain ⟨written, rfl⟩ := (jsonChars_eq_ok lib).mp counted
    cases ran
    exact ⟨⟨writable, goes, written⟩, rfl, rfl⟩
  · rintro ⟨⟨writable, goes, written⟩, rfl, rfl⟩
    have before : sessionPayloadChars lib messages = .ok (width lib.floats (sessionPayload messages)) :=
      (jsonChars_eq_ok lib).mpr ⟨writable, rfl⟩
    have after : sessionPayloadChars lib (projectedMessages lib references preserve messages) =
        .ok (width lib.floats (sessionPayload (projectedMessages lib references preserve messages))) :=
      (jsonChars_eq_ok lib).mpr ⟨written, rfl⟩
    rw [projectHistoricalToolPayloads, before, known goes]
    show (do let _ ← sessionPayloadChars lib (List.map Prod.fst _); _) = _
    rw [nexts, after, counts]
    rfl

theorem results_projected (content : MessageContent F) : (content.projected lib references).results =
    content.results.map fun block => (block.projected lib references).1 := by
  cases content with
  | text content => rfl
  | blocks content =>
    simp only [MessageContent.projected, MessageContent.results, List.filterMap_map, List.map_filterMap]
    refine List.filterMap_congr fun block _ => ?_
    cases block with
    | toolUse block => rfl
    | toolResult block => rfl
    | other payload => rfl

variable (messages) in
theorem toolResults_projected : toolResults (projectedMessages lib references preserve messages) =
    (toolResults messages).map fun block => (block.projected lib references).1 := by
  rw [projectedMessages, toolResults, toolResults, List.flatMap_map, List.map_flatMap]
  simp only [Message.projected, results_projected]

variable {lib references}

theorem Settles.result (settles : Settles lib references messages) {block : ToolResult F}
    (mem : block ∈ toolResults messages) : block.Settles lib references := by
  obtain ⟨message, inside, found⟩ := List.mem_flatMap.mp mem
  have each := settles.each message inside
  cases content : message.content with
  | text text =>
    rw [content] at found
    cases found
  | blocks blocks =>
    rw [content] at found each
    obtain ⟨outer, among, same⟩ := List.mem_filterMap.mp found
    have settled := each outer among
    cases outer with
    | toolResult result =>
      obtain rfl := Option.some.inj same
      exact settled
    | _ => cases same

-- The shape is kept, and so is every result without a verified reference, whenever nothing is raised.
theorem replay_bare {projected : List (Message F)} {result : HistoricalReplayProjectionResult}
    (ran : projectHistoricalToolPayloads lib references messages preserve = .ok (projected, result)) :
    projected.map Message.bare = messages.map Message.bare := by
  obtain ⟨-, rfl, -⟩ := (projectHistoricalToolPayloads_eq_ok lib references).mp ran
  rw [projectedMessages, List.map_map]
  refine List.map_congr_left fun message _ => ?_
  rw [Function.comp_apply, Message.projected, Message.bare, Message.bare, bare_projectedContent]

theorem replay_unverified {projected : List (Message F)} {result : HistoricalReplayProjectionResult}
    (ran : projectHistoricalToolPayloads lib references messages preserve = .ok (projected, result)) :
    List.Forall₂ (fun old new => ¬old.IsVerified lib references → new = old)
      (toolResults messages) (toolResults projected) := by
  obtain ⟨-, rfl, -⟩ := (projectHistoricalToolPayloads_eq_ok lib references).mp ran
  rw [toolResults_projected, List.forall₂_map_right_iff, List.forall₂_same]
  intro block _ unverified
  rw [ToolResult.projected_of_unverified unverified]

theorem Settles.rests (settles : Settles lib references messages) :
    ∀ message ∈ messages, Message.Rests lib references preserve message
      (message.projected lib references preserve) := by
  intro message mem
  exact Message.rests preserve (settles.each message mem)
    (isWritable_array.mp settles.writable _ (List.mem_map_of_mem mem))

theorem Settles.replaysStably (settles : Settles lib references messages) :
    ReplaysStably lib references preserve messages := by
  have rests := @Settles.rests F lib references preserve messages settles
  have goes : ∀ message ∈ messages, message.content.Goes lib references := by
    intro message mem
    have writable := isWritable_array.mp settles.writable _ (List.mem_map_of_mem mem)
    exact MessageContent.Settles.goes (settles.each message mem) (isWritable_message.mp writable).1
  have written : isWritable (sessionPayload (projectedMessages lib references preserve messages)) = true := by
    refine isWritable_array.mpr (List.forall_mem_map.mpr fun next mem => ?_)
    obtain ⟨message, inside, rfl⟩ := List.mem_map.mp mem
    exact (rests message inside).writable
  have ran := (@projectHistoricalToolPayloads_eq_ok F lib references preserve messages _ _).mpr
    ⟨⟨settles.writable, goes, written⟩, rfl, rfl⟩
  refine ⟨_, _, ran, replay_bare ran, ?_, ?_, ?_, replay_unverified ran⟩
  · simp only [replayed, sessionPayload, projectedMessages, List.map_map]
    refine width_array_le ?_
    rw [List.forall₂_map_left_iff, List.forall₂_map_right_iff, List.forall₂_same]
    exact fun message mem => (rests message mem).noLarger
  · have still : projectedMessages lib references preserve (projectedMessages lib references preserve messages) =
        projectedMessages lib references preserve messages := by
      simp only [projectedMessages, List.map_map]
      exact List.map_congr_left fun message mem => (rests message mem).again
    refine ⟨_, (projectHistoricalToolPayloads_eq_ok lib references).mpr
      ⟨⟨written, fun next mem => ?_, by rwa [still]⟩, still.symm, rfl⟩⟩
    obtain ⟨message, inside, rfl⟩ := List.mem_map.mp mem
    exact (rests message inside).goes
  · rw [toolResults_projected, List.forall₂_map_right_iff, List.forall₂_same]
    exact fun block mem _ => (settles.result mem).reference

end Sessions

section Padding

def markerKeys : List Str :=
  [named "_opensquilla_compacted_tool_arguments", named "tool", named "reason", named "original_chars",
    named "argument_keys"]

/-- The arguments are too long although none of them is: they all stay, and five more are added. -/
structure ToolUse.IsPadded (block : ToolUse F) : Prop where
  total : argumentTotalMaxChars < block.inputChars lib
  none : block.input.values.any (isLong lib) = false
  fresh : ∀ key ∈ markerKeys, key ∉ block.input.keys

variable {lib references}

theorem entries_markInput {block : ToolUse F} {input : Dict Str (Json F)}
    (fresh : ∀ key ∈ markerKeys, key ∉ input.keys) :
    (markInput block (block.inputChars lib) input).entries = input.entries ++
      [(named "_opensquilla_compacted_tool_arguments", .scalar (.bool true)), (named "tool", str block.name),
        (named "reason", str "historical_tool_arguments_omitted".toList),
        (named "original_chars", .scalar (.int (block.inputChars lib))),
        (named "argument_keys", .array ((sortedKeys block.input.keys).map fun key => .scalar (.str key)))] := by
  -- each key is new, behind those set before it too
  have sets : ∀ (n : Nat) (dict : Dict Str (Json F)) (others : List (Str × Json F)) (key : Str) (value : Json F),
      dict.entries = input.entries ++ others → others.map Prod.fst = markerKeys.take n → key ∈ markerKeys →
        key ∉ markerKeys.take n →
          (dict.set key value).entries = input.entries ++ (others ++ [(key, value)]) := by
    intro n dict others key value entries before mem apart
    have absent : key ∉ dict.keys := by
      rw [Dict.keys, entries, List.map_append, List.mem_append, not_or, before]
      exact ⟨fresh key mem, apart⟩
    rw [Dict.entries_set_of_absent dict key value absent, entries, List.append_assoc]
  have first :=
    sets 0 input [] (named "_opensquilla_compacted_tool_arguments") (.scalar (.bool true)) (by simp) rfl
    (by decide) (by decide)
  have second := sets 1 _ _ (named "tool") (str block.name) first rfl (by decide) (by decide)
  have third :=
    sets 2 _ _ (named "reason") (str "historical_tool_arguments_omitted".toList) second rfl (by decide)
    (by decide)
  have fourth :=
    sets 3 _ _ (named "original_chars") (.scalar (.int (block.inputChars lib))) third rfl (by decide)
    (by decide)
  exact sets 4 _ _ (named "argument_keys")
      (.array ((sortedKeys block.input.keys).map fun key => .scalar (.str key))) fourth
    rfl (by decide) (by decide)

theorem get?_markInput (block : ToolUse F) (input : Dict Str (Json F)) :
    (markInput block (block.inputChars lib) input).get? (named "original_chars") =
      some (.scalar (.int (block.inputChars lib))) := by
  have last : named "original_chars" ≠ named "argument_keys" := by decide
  rw [markInput, Dict.get?_set, if_neg last, Dict.get?_set, if_pos rfl]

theorem fixed_of_map_eq {α : Type} {f : α → α} {items : List α} (same : items.map f = items) :
    ∀ item ∈ items, f item = item := by
  induction items with
  | nil => exact List.forall_mem_nil _
  | cons item rest ih =>
    rw [List.map_cons, List.cons.injEq] at same
    exact List.forall_mem_cons.mpr ⟨same.1, ih same.2⟩

theorem notedInput_of_none {block : ToolUse F} (none : block.input.values.any (isLong lib) = false) :
    notedInput lib block = block.input := by
  ext1
  refine (List.map_congr_left fun field mem => ?_).trans (List.map_id' _)
  have short := List.any_eq_false.mp none field.2 (List.mem_map_of_mem mem)
  rw [notedField, if_neg short]

theorem projected_of_padded {block : ToolUse F} (padded : block.IsPadded lib) : block.projected lib =
      (⟨block.id, block.name, markInput block (block.inputChars lib) block.input⟩, true) := by
  have notShort :
      ¬(block.inputChars lib ≤ argumentTotalMaxChars ∧ block.input.values.any isLongString = false) :=
    fun short => absurd short.1 (Nat.not_le.mpr padded.total)
  rw [ToolUse.projected, if_neg notShort, notedInput_of_none padded.none]
  simp only [padded.none, Bool.false_eq_true, if_false]

theorem padded_again {block : ToolUse F} (padded : block.IsPadded lib) :
    ((block.projected lib).1.projected lib).1 ≠ (block.projected lib).1 := by
  have entries := @entries_markInput F lib block block.input padded.fresh
  have marks := @get?_markInput F lib
  rw [projected_of_padded padded]
  have recorded := marks block block.input
  generalize markInput block (block.inputChars lib) block.input = input at entries recorded ⊢
  have grown : block.inputChars lib < ToolUse.inputChars lib ⟨block.id, block.name, input⟩ := by
    rw [ToolUse.inputChars, ToolUse.inputChars, width_object, width_object, entries, List.map_append,
        List.sum_append,
      List.length_append]
    simp only [List.length_cons, List.length_nil]
    omega
  intro same
  have inputs := congrArg ToolUse.input same
  have notShort : ¬(ToolUse.inputChars lib ⟨block.id, block.name, input⟩ ≤ argumentTotalMaxChars ∧
      input.values.any isLongString = false) := by
    have := padded.total
    omega
  rw [ToolUse.projected, if_neg notShort] at inputs
  cases long : input.values.any (isLong lib) with
  | false =>
    simp only [long, Bool.false_eq_true, if_false] at inputs
    have counts := congrArg (Dict.get? · (named "original_chars")) inputs
    simp only [marks, recorded, Option.some.injEq, Json.scalar.injEq, Scalar.int.injEq] at counts
    omega
  | true =>
    simp only [long, if_true] at inputs
    obtain ⟨value, mem, isLongValue⟩ := List.any_eq_true.mp long
    obtain ⟨field, inside, rfl⟩ := List.mem_map.mp mem
    have fixed : notedField lib ⟨block.id, block.name, input⟩ field = field :=
      fixed_of_map_eq (congrArg Dict.entries inputs) field inside
    rw [notedField, if_pos isLongValue] at fixed
    have noted := congrArg Prod.snd fixed
    rw [entries, List.mem_append] at inside
    rcases inside with old | new
    · exact absurd isLongValue (List.any_eq_false.mp padded.none field.2 (List.mem_map_of_mem old))
    simp only [List.mem_cons, List.not_mem_nil, or_false] at new
    rcases new with rfl | rfl | rfl | rfl | rfl
    · cases noted
    · -- a note is longer than the name it begins with
      have lengths := congrArg (fun value => (shownText (plainText lib value)).length) noted
      simp only [str, plainText, shownText_asStr] at lengths
      rw [← cost_one, cost_noteOf fair_one, ToolUse.noteChars, argumentNoteCost] at lengths
      simp only [cost_one] at lengths
      omega
    · simp only [isLong, str, plainText, asStr, List.length_map] at isLongValue
      exact absurd isLongValue (by decide)
    · cases noted
    · cases noted

variable {preserve : Bool} {messages : List (Message F)}

theorem ReplaysStably.goes (stable : ReplaysStably lib references preserve messages) :
    isWritable (sessionPayload messages) = true ∧
      ∀ message ∈ messages, message.content.Goes lib references := by
  obtain ⟨projected, result, ran, -⟩ := stable
  obtain ⟨⟨writable, goes, -⟩, -⟩ := (projectHistoricalToolPayloads_eq_ok lib references).mp ran
  exact ⟨writable, goes⟩

theorem ReplaysStably.block_again (stable : ReplaysStably lib references preserve messages)
    {message : Message F}
    (mem : message ∈ messages) {blocks : List (Block F)} (content : message.content = .blocks blocks)
    {block : Block F} (inside : block ∈ blocks) :
    ((block.projected lib references).1.projected lib references).1 =
      (block.projected lib references).1 := by
  obtain ⟨projected, result, ran, stable⟩ := stable
  obtain ⟨-, rfl, -⟩ := (projectHistoricalToolPayloads_eq_ok lib references).mp ran
  obtain ⟨later, ran⟩ := stable.again
  obtain ⟨-, again, -⟩ := (projectHistoricalToolPayloads_eq_ok lib references).mp ran
  simp only [projectedMessages, List.map_map] at again
  have contents := congrArg Message.content (List.map_inj_left.mp again.symm message mem)
  simp only [Function.comp_apply, Message.projected, content, MessageContent.projected,
    MessageContent.blocks.injEq, List.map_map] at contents
  exact List.map_inj_left.mp contents block inside

-- A text that is to be shortened cannot be encoded or read, or arguments are too long only together.
def Block.Fails (lib : Libraries F) (references : Finset (Text × Text)) : Block F → Prop
  | .toolUse block => ¬block.IsShort lib ∧ ¬block.Encodes lib ∨ block.IsPadded lib
  | .toolResult block => ¬block.IsShort lib ∧ ((∀ reference, block.reference lib ≠ .ok reference) ∨
      block.IsVerified lib references ∧ ¬Encodes (block.content.plainText lib))
  | .other _ => False

theorem not_replaysStably_of_fails {message : Message F} (mem : message ∈ messages) {blocks : List (Block F)}
    (content : message.content = .blocks blocks) {block : Block F} (inside : block ∈ blocks)
    (fails : block.Fails lib references) : ¬ReplaysStably lib references preserve messages := by
  intro stable
  have goes := stable.goes.2 message mem
  rw [content] at goes
  have go := goes block inside
  cases block with
  | toolUse block =>
    obtain ⟨long, unencodable⟩ | padded := fails
    · exact unencodable (go.2.resolve_left long)
    · have again := stable.block_again mem content inside
      simp only [Block.projected, Block.toolUse.injEq] at again
      exact padded_again padded again
  | toolResult block =>
    obtain ⟨long, raises⟩ := fails
    obtain ⟨⟨reference, read⟩, encodes⟩ := go.2.resolve_left long
    obtain unread | ⟨verified, unencodable⟩ := raises
    · exact unread reference read
    · exact unencodable (encodes verified)
  | other payload => exact fails

end Padding

/-- Earlier tool payloads are projected for good, in the shape they had, no larger and with their references, where
all of them can be written and every one is left alone or shortened far enough. What cannot be written, encoded or
read is not, and neither are arguments that are too long together alone. -/
theorem historical_payloads_are_projected_once {F : Type} (lib : Libraries F)
    (references : Finset (Text × Text)) (preserve : Bool) (messages : List (Message F)) :
    (Settles lib references messages → ReplaysStably lib references preserve messages) ∧
      ((isWritable (sessionPayload messages) = false ∨ ∃ message ∈ messages, ∃ blocks,
        message.content = .blocks blocks ∧ ∃ block ∈ blocks, block.Fails lib references) →
          ¬ReplaysStably lib references preserve messages) := by
  constructor
  · exact fun settles => settles.replaysStably
  · rintro (unwritable | ⟨message, mem, blocks, content, block, inside, fails⟩)
    · intro stable
      rw [stable.goes.1] at unwritable
      cases unwritable
    · exact not_replaysStably_of_fails mem content inside fails

def plainLibrary : Libraries Unit where
  floats := zeroFloats
  loads := fun _ => .error .caught
  sha256 := fun _ => List.replicate 64 '0'
  sha256_hex := fun _ => ⟨by decide, by decide⟩

def manyArguments : ToolUse Unit where
  id := "call".toList
  name := "write_file".toList
  input := ⟨["path", "before", "after"].map fun key => (named key, str (List.replicate 1500 'x')), by
    rw [List.map_map]; decide⟩

theorem arguments_are_padded : ¬∀ (messages : List (Message Unit)) (preserve : Bool),
    ReplaysStably plainLibrary ∅ preserve messages := by
  intro stable
  have chars : cost spelled (List.replicate 1500 'x') = 1500 := by
    rw [fair_spelled.cost_eq, List.length_replicate]
    exact fun c mem => by rw [List.eq_of_mem_replicate mem]; decide
  have padded : manyArguments.IsPadded plainLibrary := by
    refine ⟨?_, ?_, ?_⟩
    · rw [ToolUse.inputChars, width_object]
      simp only [manyArguments, List.map_cons, List.map_nil, List.sum_cons, List.sum_nil, fieldWidth, str,
          width_str,
        shownText_asStr, chars, argumentTotalMaxChars]
      omega
    · rw [Dict.values, List.any_eq_false]
      intro value mem
      obtain ⟨field, inside, rfl⟩ := List.mem_map.mp mem
      obtain ⟨key, -, rfl⟩ := List.mem_map.mp inside
      simp only [isLong, str, plainText, asStr, List.length_map, List.length_replicate]
      decide
    · decide
  have fails : Block.Fails plainLibrary ∅ (.toolUse manyArguments) := Or.inr padded
  exact not_replaysStably_of_fails (List.mem_singleton_self _) rfl (List.mem_singleton_self _) fails
    (stable [⟨.assistant, .blocks [.toolUse manyArguments], none, none⟩] false)

end OpenSquilla.Projections
