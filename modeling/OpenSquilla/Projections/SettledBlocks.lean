import OpenSquilla.Projections.References

set_option autoImplicit false

namespace OpenSquilla.Projections

open TextLines TextScan JsonText
open RaisingRuns (of_bind_ok exists_mapM_ok mapM_eq_ok_map)

variable {F : Type} (lib : Libraries F)

section Writing

theorem jsonText_of_writable {value : Json F} (writable : isWritable value = true) :
    jsonText lib value = .ok (dumpsPoints lib.floats value) := if_pos writable

theorem writable_of_jsonText {value : Json F} {text : Str} (ran : jsonText lib value = .ok text) :
    isWritable value = true := by
  unfold jsonText at ran
  split at ran
  · assumption
  · cases ran

theorem jsonChars_eq_ok {value : Json F} {chars : Nat} :
    jsonChars lib value = .ok chars ↔ isWritable value = true ∧ chars = width lib.floats value := by
  have length : (dumpsPoints lib.floats value).length = width lib.floats value := by
    rw [width, ← shownText_dumpsPoints, length_shownText]
  constructor
  · intro ran
    obtain ⟨text, written, rest⟩ := of_bind_ok ran
    have writable := writable_of_jsonText lib written
    rw [jsonText_of_writable lib writable] at written
    cases written
    exact ⟨writable, (Except.ok.inj rest).symm.trans length⟩
  · rintro ⟨writable, rfl⟩
    rw [jsonChars, jsonText_of_writable lib writable, ← length]
    rfl

omit lib in
theorem isWritable_array {items : List (Json F)} :
    isWritable (.array items) = true ↔ ∀ item ∈ items, isWritable item = true := by
  rw [isWritable, fold_array, List.all_map, List.all_eq_true]
  rfl

omit lib in
theorem isWritable_object {fields : List (Str × Json F)} :
    isWritable (.object fields) = true ↔ ∀ field ∈ fields, isWritable field.2 = true := by
  rw [isWritable, fold_object, List.all_map, List.all_eq_true]
  rfl

-- The text of what can be written.
def plainText : Json F → Str
  | .scalar (.str points) => points
  | value => dumpsPoints lib.floats value

theorem valueText_of_writable {value : Json F} (writable : isWritable value = true) :
    valueText lib value = .ok (plainText lib value) := by
  have written := jsonText_of_writable lib writable
  cases value with
  | scalar value =>
    cases value with
    | str points => rfl
    | _ => exact written
  | _ => exact written

def ResultContent.plainText : ResultContent F → Str
  | .text content => content
  | .items content => dumpsPoints lib.floats (.array content)

theorem resultText_eq_ok {content : ResultContent F} {text : Str} : resultText lib content = .ok text ↔
      isWritable content.payload = true ∧ text = content.plainText lib := by
  cases content with
  | text content =>
      exact ⟨fun ran => ⟨rfl, (Except.ok.inj ran).symm⟩, fun both => congrArg Except.ok both.2.symm⟩
  | items content =>
    constructor
    · intro ran
      have writable := writable_of_jsonText lib ran
      exact ⟨writable, Except.ok.inj (ran.symm.trans (jsonText_of_writable lib writable))⟩
    · rintro ⟨writable, rfl⟩
      exact jsonText_of_writable lib writable

end Writing

section ToolUses

def ToolUse.inputChars (block : ToolUse F) : Nat := width lib.floats (.object block.input.entries)

def isLong (value : Json F) : Bool := argumentFieldMaxChars < (plainText lib value).length

def ToolUse.IsShort (block : ToolUse F) : Prop :=
  block.inputChars lib ≤ argumentTotalMaxChars ∧ block.input.values.any isLongString = false

-- No surrogate stands alone in a text that is to be shortened.
def ToolUse.Encodes (block : ToolUse F) : Prop :=
  ∀ field ∈ block.input.entries, isLong lib field.2 = true → Projections.Encodes (plainText lib field.2)

def noteOf (block : ToolUse F) (field : Str × Json F) : Str :=
  argumentNote lib block.name block.id field.1 (plainText lib field.2) (block.inputChars lib)

def notedField (block : ToolUse F) (field : Str × Json F) : Str × Json F :=
  (field.1, if isLong lib field.2 then .scalar (.str (noteOf lib block field)) else field.2)

def notedInput (block : ToolUse F) : Dict Str (Json F) where
  entries := block.input.entries.map (notedField lib block)
  nodupKeys := by
    rw [List.map_map]
    exact block.input.nodupKeys

/-- What a tool use becomes unless something is raised. -/
def ToolUse.projected (block : ToolUse F) : ToolUse F × Bool :=
  if block.inputChars lib ≤ argumentTotalMaxChars ∧ block.input.values.any isLongString = false then
    (block, false)
  else
    (⟨block.id, block.name,
      if block.input.values.any (isLong lib) then notedInput lib block
      else markInput block (block.inputChars lib) (notedInput lib block)⟩, true)

def ToolUse.Goes (block : ToolUse F) : Prop :=
  isWritable (.object block.input.entries) = true ∧ (block.IsShort lib ∨ block.Encodes lib)

variable {block : ToolUse F}

theorem projectField_eq_ok {field : Str × Json F} {result : (Str × Json F) × Bool}
    (writable : isWritable field.2 = true) : projectField lib block (block.inputChars lib) field = .ok result ↔
      (isLong lib field.2 = true → Encodes (plainText lib field.2)) ∧
        result = (notedField lib block field, isLong lib field.2) := by
  rw [projectField, valueText_of_writable lib writable, notedField]
  by_cases long : argumentFieldMaxChars < (plainText lib field.2).length
  · have isLong : isLong lib field.2 = true := decide_eq_true long
    simp only [isLong, if_true, forall_const]
    constructor
    · intro ran
      replace ran := (if_pos long).symm.trans ran
      obtain ⟨note, noted, ran⟩ := of_bind_ok ran
      obtain ⟨encodes, rfl⟩ := (toolArgumentProjection_eq_ok lib).mp noted
      exact ⟨encodes, (Except.ok.inj ran).symm⟩
    · rintro ⟨encodes, rfl⟩
      refine (if_pos long).trans ?_
      rw [(toolArgumentProjection_eq_ok lib).mpr ⟨encodes, rfl⟩]
      rfl
  · have isShort : isLong lib field.2 = false := decide_eq_false long
    simp only [isShort, Bool.false_eq_true, if_false, false_implies, true_and]
    constructor
    · exact fun ran => (Except.ok.inj ((if_neg long).symm.trans ran)).symm
    · rintro rfl
      exact if_neg long

theorem projectFields_eq_ok {steps : List ((Str × Json F) × Bool)}
    (writable : ∀ field ∈ block.input.entries, isWritable field.2 = true) :
    block.input.entries.mapM (projectField lib block (block.inputChars lib)) = .ok steps ↔
      block.Encodes lib ∧
        steps = block.input.entries.map fun field => (notedField lib block field, isLong lib field.2) := by
  have known : block.Encodes lib →
      block.input.entries.mapM (projectField lib block (block.inputChars lib)) =
        .ok (block.input.entries.map fun field => (notedField lib block field, isLong lib field.2)) :=
    fun encodes => mapM_eq_ok_map fun field mem =>
      (projectField_eq_ok lib (writable field mem)).mpr ⟨encodes field mem, rfl⟩
  constructor
  · intro stepped
    have encodes : block.Encodes lib := by
      intro field mem long
      obtain ⟨step, done⟩ := exists_mapM_ok.mp ⟨steps, stepped⟩ field mem
      exact ((projectField_eq_ok lib (writable field mem)).mp done).1 long
    exact ⟨encodes, Except.ok.inj (stepped.symm.trans (known encodes))⟩
  · rintro ⟨encodes, rfl⟩
    exact known encodes

theorem projectHistoricalToolUse_eq_ok {result : ToolUse F × Bool} :
    projectHistoricalToolUse lib block = .ok result ↔
      block.Goes lib ∧ result = block.projected lib := by
  have input : Dict.ofList ((block.input.entries.map fun field =>
      (notedField lib block field, isLong lib field.2)).map Prod.fst) = notedInput lib block := by
    ext1
    rw [List.map_map]
    exact Dict.entries_ofList (notedInput lib block).nodupKeys
  have changed : (block.input.entries.map fun field =>
      (notedField lib block field, isLong lib field.2)).any Prod.snd =
        block.input.values.any (isLong lib) := by
    rw [Dict.values, List.any_map, List.any_map]
    rfl
  unfold projectHistoricalToolUse ToolUse.projected ToolUse.Goes ToolUse.IsShort
  constructor
  · intro ran
    obtain ⟨chars, counted, ran⟩ := of_bind_ok ran
    obtain ⟨writable, rfl⟩ := (jsonChars_eq_ok lib).mp counted
    split at ran
    next short => exact ⟨⟨writable, .inl short⟩, (Except.ok.inj ran).symm.trans (if_pos short).symm⟩
    next long =>
      obtain ⟨steps, stepped, ran⟩ := of_bind_ok ran
      obtain ⟨encodes, rfl⟩ := (projectFields_eq_ok lib (isWritable_object.mp writable)).mp stepped
      refine ⟨⟨writable, .inr encodes⟩, ?_⟩
      rw [input, changed] at ran
      exact (Except.ok.inj ran).symm.trans (if_neg long).symm
  · rintro ⟨⟨writable, encodes⟩, rfl⟩
    rw [(jsonChars_eq_ok lib).mpr ⟨writable, rfl⟩]
    by_cases short : block.IsShort lib
    · exact (if_pos short).trans (congrArg Except.ok (if_pos short).symm)
    · have stepped := (projectFields_eq_ok lib (isWritable_object.mp writable)).mpr
        ⟨encodes.resolve_left short, rfl⟩
      refine (if_neg short).trans (Eq.trans ?_ (congrArg Except.ok (if_neg short).symm))
      show (block.input.entries.mapM (projectField lib block (block.inputChars lib)) >>= _) = _
      rw [stepped, ← input, ← changed]
      rfl

-- The length of the note that takes the place of a field.
def ToolUse.noteChars (price : Char → Nat) (block : ToolUse F) (field : Str × Json F) : Nat :=
  argumentNoteCost price block.name block.id (shownText field.1) (shownText (plainText lib field.2))
    (block.inputChars lib)

-- The length of the arguments with a note in the place of each long field.
def ToolUse.notedChars (block : ToolUse F) : Nat :=
  2 + (block.input.entries.map fun field => (quoted field.1).length + 2 +
    if isLong lib field.2 then 2 + block.noteChars lib spelled field else
        width lib.floats field.2).sum +
    (block.input.entries.length - 1) * 2

/-- Some field is long, and notes in the place of the long ones leave short arguments. -/
structure ToolUse.Shrinks (block : ToolUse F) : Prop where
  long : block.input.values.any (isLong lib) = true
  encodes : block.Encodes lib
  notes : ∀ field ∈ block.input.entries, isLong lib field.2 = true →
    block.noteChars lib (fun _ => 1) field ≤ argumentFieldMaxChars
  total : block.notedChars lib ≤ argumentTotalMaxChars
  noLarger : block.notedChars lib ≤ block.inputChars lib

def ToolUse.Settles (block : ToolUse F) : Prop := block.IsShort lib ∨ block.Shrinks lib

variable {lib}

theorem ToolUse.projected_of_short (short : block.IsShort lib) :
    block.projected lib = (block, false) := if_pos short

theorem ToolUse.projected_of_long (long : block.input.values.any (isLong lib) = true)
    (notShort : ¬block.IsShort lib) :
    block.projected lib = (⟨block.id, block.name, notedInput lib block⟩, true) := by
  rw [ToolUse.projected]
  simp only [long, if_true]
  exact if_neg notShort

theorem cost_noteOf {price : Char → Nat} (fair : Fair price) (block : ToolUse F) (field : Str × Json F) :
    cost price (shownText (noteOf lib block field)) = block.noteChars lib price field :=
  cost_argumentNote lib fair _ _ _ _ _

theorem fieldWidth_notedField (block : ToolUse F) (field : Str × Json F) :
    fieldWidth lib.floats (notedField lib block field) = (quoted field.1).length + 2 +
      if isLong lib field.2 then 2 + block.noteChars lib spelled field else
          width lib.floats field.2 := by
  rw [fieldWidth, notedField]
  cases isLong lib field.2 with
  | false => rfl
  | true =>
    simp only [if_true]
    rw [width_str, cost_noteOf fair_spelled]

theorem inputChars_noted (block : ToolUse F) :
    ToolUse.inputChars lib ⟨block.id, block.name, notedInput lib block⟩ = block.notedChars lib := by
  rw [ToolUse.inputChars, width_object, ToolUse.notedChars, notedInput, List.map_map, List.length_map]
  simp only [Function.comp_def, fieldWidth_notedField]

theorem isLongString_of_not_long {value : Json F} (short : isLong lib value = false) :
    isLongString value = false := by
  cases value with
  | scalar value =>
    cases value with
    | str points => exact short
    | _ => rfl
  | _ => rfl

theorem ToolUse.Shrinks.noted_short (shrinks : block.Shrinks lib) :
    ToolUse.IsShort lib ⟨block.id, block.name, notedInput lib block⟩ := by
  refine ⟨?_, ?_⟩
  · rw [inputChars_noted]
    exact shrinks.total
  · rw [Dict.values, notedInput, List.map_map, List.any_map, List.any_eq_false]
    intro field mem
    simp only [Function.comp_def, notedField]
    cases long : isLong lib field.2 with
    | false => simp [isLongString_of_not_long long]
    | true =>
      have fits := shrinks.notes field mem long
      rw [← cost_noteOf fair_one, cost_one, length_shownText] at fits
      simp only [if_true, isLongString, decide_eq_true_eq, Nat.not_lt]
      exact fits

theorem isWritable_noted (writable : isWritable (.object block.input.entries) = true) :
    isWritable (.object (notedInput lib block).entries) = true := by
  rw [isWritable_object] at writable ⊢
  intro field mem
  obtain ⟨field, inside, rfl⟩ := List.mem_map.mp mem
  rw [notedField]
  split
  · rfl
  · exact writable field inside

theorem ToolUse.Settles.goes (settles : block.Settles lib)
    (writable : isWritable (.object block.input.entries) = true) : block.Goes lib :=
  ⟨writable, settles.imp_right fun shrinks => shrinks.encodes⟩

theorem ToolUse.Settles.projected (settles : block.Settles lib) : (block.projected lib).1.IsShort lib := by
  by_cases short : block.IsShort lib
  · rw [projected_of_short short]
    exact short
  · have shrinks := settles.resolve_left short
    rw [projected_of_long shrinks.long short]
    exact shrinks.noted_short

theorem ToolUse.Settles.writable (settles : block.Settles lib)
    (writable : isWritable (.object block.input.entries) = true) :
    isWritable (.object (block.projected lib).1.input.entries) = true := by
  by_cases short : block.IsShort lib
  · rwa [projected_of_short short]
  · rw [projected_of_long (settles.resolve_left short).long short]
    exact isWritable_noted writable

theorem width_toolUse (block : ToolUse F) : width lib.floats block.payload =
    width lib.floats (.object [(named "type", str "tool_use".toList), (named "id", str block.id),
      (named "name", str block.name), (named "input", .scalar .null)]) + block.inputChars lib - 4 := by
  have null : width lib.floats (.scalar .null) = 4 := rfl
  rw [ToolUse.payload, width_object, width_object]
  simp only [List.map_cons, List.map_nil, List.sum_cons, List.sum_nil, fieldWidth, List.length_cons,
      List.length_nil, null,
    ToolUse.inputChars]
  omega

theorem ToolUse.Settles.noLarger (settles : block.Settles lib) :
    width lib.floats (block.projected lib).1.payload ≤ width lib.floats block.payload := by
  by_cases short : block.IsShort lib
  · rw [projected_of_short short]
  · have shrinks := settles.resolve_left short
    rw [projected_of_long shrinks.long short, width_toolUse, width_toolUse, inputChars_noted]
    exact Nat.sub_le_sub_right (Nat.add_le_add_left shrinks.noLarger _) 4

end ToolUses

section ToolResults

variable (references : Finset (Text × Text))

-- What the content refers to, if it can be read.
def ToolResult.reference (block : ToolResult F) : Except Raised (Option (Text × Text)) :=
  recoverableToolResultReference lib (block.content.plainText lib)

-- The result refers to an original that is known to be there.
def ToolResult.IsVerified (block : ToolResult F) : Prop :=
  ∃ reference ∈ references, block.reference lib = .ok (some reference)

def ToolResult.noteChars (price : Char → Nat) (block : ToolResult F) : Nat :=
  let content := shownText (block.content.plainText lib)
  if isProjection content then projectionNoteCost price content block.toolUseId
  else resultNoteCost price content block.toolUseId

/-- What takes the place of the content is short and no larger, and the lines that name the original stay. -/
structure ToolResult.Shrinks (block : ToolResult F) : Prop where
  encodes : Encodes (block.content.plainText lib)
  note : block.noteChars lib (fun _ => 1) ≤ resultMaxChars
  noLarger : 2 + block.noteChars lib spelled ≤ width lib.floats block.content.payload
  header : isProjection (shownText (block.content.plainText lib)) = true →
    HeaderStays (shownText (block.content.plainText lib))

def ToolResult.IsShort (block : ToolResult F) : Prop :=
  (block.content.plainText lib).length ≤ resultMaxChars

def ToolResult.Settles (block : ToolResult F) : Prop :=
  block.IsShort lib ∨ (∃ reference, block.reference lib = .ok reference) ∧
    (¬block.IsVerified lib references ∨ block.Shrinks lib)

def compactedContent (block : ToolResult F) (reference : Text × Text) : Text :=
  let content := shownText (block.content.plainText lib)
  if isProjection content then compactedProjection lib content block.toolUseId
  else compactedText lib content "historical_tool_result".toList (resultMetadata reference block.toolUseId)

/-- What a tool result becomes unless something is raised. -/
def ToolResult.projected (block : ToolResult F) : ToolResult F × Bool :=
  if (block.content.plainText lib).length ≤ resultMaxChars then (block, false)
  else
    match block.reference lib with
    | .ok (some reference) =>
      if reference ∉ references then (block, false)
      else ({ block with content := .text (asStr (compactedContent lib block reference)) }, true)
    | _ => (block, false)

def ToolResult.Goes (block : ToolResult F) : Prop :=
  isWritable block.content.payload = true ∧ (block.IsShort lib ∨
    (∃ reference, block.reference lib = .ok reference) ∧
      (block.IsVerified lib references → Encodes (block.content.plainText lib)))

variable {lib references} {block : ToolResult F}

theorem ToolResult.projected_of_short (short : block.IsShort lib) :
    block.projected lib references = (block, false) := if_pos short

theorem ToolResult.projected_of_unverified (unverified : ¬block.IsVerified lib references) :
    block.projected lib references = (block, false) := by
  unfold ToolResult.projected
  split
  · rfl
  split
  next reference known =>
    exact if_pos fun mem => unverified ⟨reference, mem, known⟩
  · rfl

theorem ToolResult.projected_of_verified {reference : Text × Text}
    (long : ¬block.IsShort lib) (mem : reference ∈ references)
    (known : block.reference lib = .ok (some reference)) : block.projected lib references =
      ({ block with content := .text (asStr (compactedContent lib block reference)) }, true) := by
  unfold ToolResult.projected
  refine (if_neg long).trans ?_
  rw [known]
  exact if_neg (not_not_intro mem)

variable (lib references) in
theorem ToolResult.projected_cases (block : ToolResult F) : block.projected lib references = (block, false) ∨
      ∃ reference, ¬block.IsShort lib ∧ block.IsVerified lib references ∧
        block.reference lib = .ok (some reference) ∧
        block.projected lib references =
          ({ block with content := .text (asStr (compactedContent lib block reference)) }, true) := by
  by_cases short : block.IsShort lib
  · exact .inl (projected_of_short short)
  by_cases verified : block.IsVerified lib references
  · obtain ⟨reference, mem, known⟩ := verified
    exact .inr ⟨reference, short, ⟨reference, mem, known⟩, known, projected_of_verified short mem known⟩
  · exact .inl (projected_of_unverified verified)

theorem ToolResult.not_verified {found : Option (Text × Text)}
    (known : block.reference lib = .ok found) (absent : ∀ reference ∈ found, reference ∉ references) :
    ¬block.IsVerified lib references := by
  rintro ⟨reference, mem, same⟩
  cases known.symm.trans same
  exact absent reference rfl mem

variable (lib references) in
theorem projectHistoricalToolResult_eq_ok {result : ToolResult F × Bool} :
    projectHistoricalToolResult lib references block = .ok result ↔
      block.Goes lib references ∧ result = block.projected lib references := by
  constructor
  · intro ran
    obtain ⟨content, written, ran⟩ := of_bind_ok ran
    obtain ⟨writable, rfl⟩ := (resultText_eq_ok lib).mp written
    split at ran
    next short =>
      exact ⟨⟨writable, .inl short⟩, (Except.ok.inj ran).symm.trans (ToolResult.projected_of_short short).symm⟩
    next long =>
      obtain ⟨found, known, ran⟩ := of_bind_ok ran
      cases found with
      | none =>
        have unverified : ¬block.IsVerified lib references := ToolResult.not_verified known (by simp)
        exact ⟨⟨writable, .inr ⟨⟨_, known⟩, fun verified => absurd verified unverified⟩⟩,
          (Except.ok.inj ran).symm.trans (ToolResult.projected_of_unverified unverified).symm⟩
      | some reference =>
        dsimp only at ran
        split at ran
        next absent =>
          have unverified : ¬block.IsVerified lib references :=
            ToolResult.not_verified known (by simpa using absent)
          exact ⟨⟨writable, .inr ⟨⟨_, known⟩, fun verified => absurd verified unverified⟩⟩,
            (Except.ok.inj ran).symm.trans (ToolResult.projected_of_unverified unverified).symm⟩
        next present =>
          have mem := not_not.mp present
          have done := ToolResult.projected_of_verified long mem known
          unfold compactedContent at done
          split at ran
          next projection =>
            obtain ⟨compacted, made, ran⟩ := of_bind_ok ran
            obtain ⟨encodes, rfl⟩ := (compactHistoricalToolResultProjection_eq_ok lib).mp made
            dsimp only at done
            rw [if_pos projection] at done
            exact ⟨⟨writable, .inr ⟨⟨_, known⟩, fun _ => encodes⟩⟩, (Except.ok.inj ran).symm.trans done.symm⟩
          next other =>
            obtain ⟨compacted, made, ran⟩ := of_bind_ok ran
            obtain ⟨encodes, rfl⟩ := (compactHistoricalText_eq_ok lib).mp made
            dsimp only at done
            rw [if_neg other] at done
            exact ⟨⟨writable, .inr ⟨⟨_, known⟩, fun _ => encodes⟩⟩, (Except.ok.inj ran).symm.trans done.symm⟩
  · rintro ⟨⟨writable, goes⟩, rfl⟩
    rw [projectHistoricalToolResult, (resultText_eq_ok lib).mpr ⟨writable, rfl⟩]
    by_cases short : block.IsShort lib
    · exact (if_pos short).trans (congrArg Except.ok (ToolResult.projected_of_short short).symm)
    refine (if_neg short).trans ?_
    obtain ⟨⟨found, known⟩, encodes⟩ := goes.resolve_left short
    have read : recoverableToolResultReference lib (block.content.plainText lib) = .ok found := known
    rw [read]
    cases found with
    | none =>
      have unverified : ¬block.IsVerified lib references := ToolResult.not_verified known (by simp)
      exact congrArg Except.ok (ToolResult.projected_of_unverified unverified).symm
    | some reference =>
      by_cases mem : reference ∈ references
      · have ready := encodes ⟨reference, mem, known⟩
        have done := ToolResult.projected_of_verified short mem known
        unfold compactedContent at done
        refine (if_neg (not_not_intro mem)).trans ?_
        by_cases projection : isProjection (shownText (block.content.plainText lib)) = true
        · refine (if_pos projection).trans ?_
          rw [(compactHistoricalToolResultProjection_eq_ok lib).mpr ⟨ready, rfl⟩, done, if_pos projection]
          rfl
        · refine (if_neg projection).trans ?_
          rw [(compactHistoricalText_eq_ok lib).mpr ⟨ready, rfl⟩, done, if_neg projection]
          rfl
      · have unverified : ¬block.IsVerified lib references :=
          ToolResult.not_verified known (by simpa using mem)
        exact (if_pos mem).trans (congrArg Except.ok (ToolResult.projected_of_unverified unverified).symm)

theorem cost_compactedContent {price : Char → Nat} (fair : Fair price)
    {reference : Text × Text} (known : block.reference lib = .ok (some reference)) :
    cost price (compactedContent lib block reference) = block.noteChars lib price := by
  obtain ⟨handle, sha256⟩ := recoverable_checked lib known
  unfold compactedContent ToolResult.noteChars
  dsimp only
  split
  · exact cost_projectionNote lib fair _ _
  · exact cost_resultNote lib fair _ _ handle sha256

theorem ToolResult.Settles.shrinks (settles : block.Settles lib references)
    (long : ¬block.IsShort lib) (verified : block.IsVerified lib references) : block.Shrinks lib :=
  (settles.resolve_left long).2.resolve_left (not_not_intro verified)

theorem ToolResult.Settles.goes (settles : block.Settles lib references)
    (writable : isWritable block.content.payload = true) : block.Goes lib references := by
  refine ⟨writable, settles.imp_right fun read => ⟨read.1, fun verified => ?_⟩⟩
  exact (read.2.resolve_left (not_not_intro verified)).encodes

theorem ToolResult.Settles.again (settles : block.Settles lib references)
    (writable : isWritable block.content.payload = true) :
    (block.projected lib references).1.Goes lib references ∧
      (block.projected lib references).1.projected lib references =
        ((block.projected lib references).1, false) := by
  rcases projected_cases lib references block with same | ⟨reference, long, verified, known, projected⟩
  · rw [same]
    exact ⟨settles.goes writable, same⟩
  · have fits := (settles.shrinks long verified).note
    rw [← cost_compactedContent fair_one known, cost_one] at fits
    rw [projected]
    have short : ToolResult.IsShort lib
        { block with content := .text (asStr (compactedContent lib block reference)) } := by
      unfold ToolResult.IsShort ResultContent.plainText
      rwa [asStr, List.length_map]
    exact ⟨⟨rfl, .inl short⟩, projected_of_short short⟩

theorem width_toolResult_le {old new : ToolResult F} (id : new.toolUseId = old.toolUseId)
    (flag : new.isError = old.isError) (status : new.executionStatus = old.executionStatus)
    (le : width lib.floats new.content.payload ≤ width lib.floats old.content.payload) :
    width lib.floats new.payload ≤ width lib.floats old.payload := by
  rw [ToolResult.payload, ToolResult.payload, width_object, width_object, id, flag, status]
  simp only [List.map_cons, List.map_nil, List.sum_cons, List.sum_nil, fieldWidth, List.length_cons,
      List.length_nil]
  omega

theorem ToolResult.Settles.noLarger (settles : block.Settles lib references) :
    width lib.floats (block.projected lib references).1.payload ≤ width lib.floats block.payload := by
  rcases projected_cases lib references block with same | ⟨reference, long, verified, known, projected⟩
  · rw [same]
  · have le := (settles.shrinks long verified).noLarger
    rw [← cost_compactedContent fair_spelled known] at le
    rw [projected]
    refine width_toolResult_le rfl rfl rfl ?_
    rw [ResultContent.payload, width_str, shownText_asStr]
    exact le

theorem ToolResult.Settles.reference (settles : block.Settles lib references) :
    (block.projected lib references).1.reference lib = block.reference lib := by
  rcases projected_cases lib references block with same | ⟨reference, long, verified, known, projected⟩
  · rw [same]
  · obtain ⟨handle, sha256⟩ := recoverable_checked lib known
    rw [projected, known]
    unfold ToolResult.reference ResultContent.plainText compactedContent
    dsimp only
    split
    next projection =>
      exact compacted_projection_reference lib projection
        ((settles.shrinks long verified).header projection) known _
    · exact compacted_reference lib handle sha256 _ _

end ToolResults

end OpenSquilla.Projections
