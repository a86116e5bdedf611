import OpenSquilla.Patches.Hunk
import OpenSquilla.Shared.TextScan

set_option autoImplicit false

namespace OpenSquilla.Patches

open TextLines TextScan

def beginMarker : Text := "*** Begin Patch".toList

def endMarker : Text := "*** End Patch".toList

def sectionMarker : Text := "*** ".toList

def addMarker : Text := "*** Add File: ".toList

def updateMarker : Text := "*** Update File: ".toList

def deleteMarker : Text := "*** Delete File: ".toList

def isHunkHeader (line : Text) : Bool :=
  ['@', '@', ' '].isPrefixOf (strip line) || ['@', '@', '@', ' '].isPrefixOf (strip line)

def scanRange (sign : Char) (text : Text) : Option ((Nat × Nat) × Text) := do
  let text ← scanSpaces text
  let text ← scanText [sign] text
  let (start, text) ← scanNat text
  match (scanText [','] text).bind scanNat with
  | some (count, text) => return ((start, count), text)
  | none => return ((start, 1), text)

def scanHeader (text : Text) : Option Hunk := do
  let text ← (scanText ['@', '@', '@'] text).or (scanText ['@', '@'] text)
  let (old, text) ← scanRange '-' text
  let (new, text) ← scanRange '+' text
  let text ← scanSpaces text
  let _ ← scanText ['@', '@'] text
  return { oldStart := old.1, oldCount := old.2, newStart := new.1, newCount := new.2 }

def parseHunkHeader (header : Text) : Except PatchError Hunk :=
  match scanHeader (strip header) with
  | some hunk => .ok hunk
  | none => .error .invalidHunkHeader

def parseHunks : List (Text × List Text) → Except PatchError (List Hunk)
  | [] => .ok []
  | (header, lines) :: rest => do
    let hunk ← parseHunkHeader header
    let hunks ← parseHunks rest
    return { hunk with lines := lines } :: hunks

/-- What the loop reads from one header up to the next line that starts with the section marker.
A section with another header is passed over. -/
def parseSection (header : Text) (lines : List Text) : Except PatchError (Option PatchOp) :=
  if addMarker.isPrefixOf header then
    let content := (lines.filter (fun raw => raw.head? = some '+')).map List.tail
    .ok (some (.addFile (strip (header.drop addMarker.length)) (joinLines content)))
  else if updateMarker.isPrefixOf header then
    let path := strip (header.drop updateMarker.length)
    match parseHunks (sections isHunkHeader lines).2 with
    | .error raised => .error raised
    | .ok [] => .error (.noHunks path)
    | .ok hunks => .ok (some (.updateFile path hunks))
  else if deleteMarker.isPrefixOf header then
    .ok (some (.deleteFile (strip (header.drop deleteMarker.length))))
  else .ok none

def parseSections : List (Text × List Text) → Except PatchError (List PatchOp)
  | [] => .ok []
  | (header, lines) :: rest => do
    let op ← parseSection header lines
    let ops ← parseSections rest
    return op.toList ++ ops

def parsePatch (patchText : Text) : Except PatchError (List PatchOp) :=
  let lines := splitLines patchText
  match lines.findIdx? (fun line => strip line = beginMarker) with
  | none => .error .noBeginPatch
  | some start =>
    match lines.findIdx? (fun line => strip line = endMarker) with
    | none => .error .noEndPatch
    | some stop =>
      let body := (lines.take stop).drop (start + 1)
      match parseSections (sections sectionMarker.isPrefixOf body).2 with
      | .error raised => .error raised
      | .ok [] => .error .noOperations
      | .ok ops => .ok ops

def renderRange (sign : Char) (start count : Nat) : Text :=
  [' ', sign] ++ Nat.toDigits 10 start ++ [','] ++ Nat.toDigits 10 count

def renderHeader (hunk : Hunk) : Text :=
  ['@', '@'] ++ renderRange '-' hunk.oldStart hunk.oldCount ++
    renderRange '+' hunk.newStart hunk.newCount ++ [' ', '@', '@']

def renderLines : PatchOp → List Text
  | .addFile _ content => (splitFeeds content).map ('+' :: ·)
  | .updateFile _ hunks => hunks.flatMap (fun hunk => renderHeader hunk :: hunk.lines)
  | .deleteFile _ => []

def renderTitle : PatchOp → Text
  | .addFile path _ => addMarker ++ path
  | .updateFile path _ => updateMarker ++ path
  | .deleteFile path => deleteMarker ++ path

def renderPatch (ops : List PatchOp) : Text :=
  joinLines (beginMarker :: ops.flatMap (fun op => renderTitle op :: renderLines op) ++ [endMarker])

def HunkLine (raw : Text) : Prop :=
  Unbroken raw ∧ (raw.head? = some ' ' ∨ raw.head? = some '-' ∨ raw.head? = some '+')

-- The operations that can be written down as a patch, line by line.
structure Writable (op : PatchOp) : Prop where
  named : op.path ≠ []
  trimmed : strip op.path = op.path
  onOneLine : Unbroken op.path
  contents : ∀ path content, op = .addFile path content →
    ∀ c ∈ content, isLineBreak c = true → c = '\n'
  hunkLines : ∀ path hunks, op = .updateFile path hunks →
    ∀ hunk ∈ hunks, ∀ raw ∈ hunk.lines, HunkLine raw

-- No context line reads like the end of the patch or like a hunk header.
def PlainContext (hunk : Hunk) : Prop :=
  ∀ raw ∈ hunk.lines, raw.head? = some ' ' → strip raw ≠ endMarker ∧ isHunkHeader raw = false

def PlainUpdate (op : PatchOp) : Prop :=
  ∀ path hunks, op = .updateFile path hunks → hunks ≠ [] ∧ ∀ hunk ∈ hunks, PlainContext hunk

def Inner (raw : Text) : Prop :=
  Unbroken raw ∧ sectionMarker.isPrefixOf raw = false ∧ strip raw ≠ endMarker

structure Rereadable (op : PatchOp) : Prop where
  trimmed : strip op.path = op.path
  onOneLine : Unbroken op.path
  contents : ∀ path content, op = .addFile path content →
    ∀ c ∈ content, isLineBreak c = true → c = '\n'
  hunks : ∀ path hunks, op = .updateFile path hunks → hunks ≠ []
  hunkLines : ∀ path hunks, op = .updateFile path hunks →
    ∀ hunk ∈ hunks, ∀ raw ∈ hunk.lines, Inner raw ∧ isHunkHeader raw = false

theorem scanSpaces_single {c : Char} {rest : Text} (plain : isSpace c = false) :
    scanSpaces (' ' :: c :: rest) = some (c :: rest) := by
  have blank : isSpace ' ' = true := by decide
  rw [scanSpaces, List.takeWhile_cons_of_pos blank, List.dropWhile_cons_of_pos blank,
    List.dropWhile_cons_of_neg (by simp [plain])]
  exact if_neg (List.cons_ne_nil _ _)

theorem scanText_singleton (c : Char) (rest : Text) : scanText [c] (c :: rest) = some rest :=
  scanText_append [c] rest

theorem scanRange_renderRange {sign : Char} (plain : isSpace sign = false) (start count : Nat)
    (rest : Text) (ends : ∀ c, rest.head? = some c → isDigit c = false) :
    scanRange sign (renderRange sign start count ++ rest) = some ((start, count), rest) := by
  have written : renderRange sign start count ++ rest =
      ' ' :: sign :: (Nat.toDigits 10 start ++ (',' :: (Nat.toDigits 10 count ++ rest))) := by
    simp [renderRange]
  have comma : ∀ c, (',' :: (Nat.toDigits 10 count ++ rest)).head? = some c → isDigit c = false := by
    rintro c ⟨⟩
    decide
  simp only [written, scanRange, Option.bind_eq_bind, scanSpaces_single plain, scanText_singleton,
    Option.bind_some, scanNat_toDigits start comma, scanNat_toDigits count ends, Option.pure_def]

theorem strip_renderHeader (hunk : Hunk) : strip (renderHeader hunk) = renderHeader hunk := by
  refine strip_of_edges ?_ ?_
  · rintro c ⟨⟩
    decide
  · intro c last
    rw [renderHeader, List.getLast?_append] at last
    cases last
    decide

theorem unbroken_renderRange {sign : Char} (plain : isLineBreak sign = false) (start count : Nat) :
    Unbroken (renderRange sign start count) := by
  have opening : Unbroken [' ', sign] :=
    List.forall_mem_cons.mpr ⟨by decide, List.forall_mem_singleton.mpr plain⟩
  have comma : Unbroken [','] := by decide
  simp only [renderRange, Unbroken, List.forall_mem_append]
  exact ⟨⟨⟨opening, unbroken_toDigits start⟩, comma⟩, unbroken_toDigits count⟩

theorem unbroken_renderHeader (hunk : Hunk) : Unbroken (renderHeader hunk) := by
  have opening : Unbroken ['@', '@'] := by decide
  have closing : Unbroken [' ', '@', '@'] := by decide
  simp only [renderHeader, Unbroken, List.forall_mem_append]
  exact ⟨⟨⟨opening, unbroken_renderRange (by decide) _ _⟩, unbroken_renderRange (by decide) _ _⟩, closing⟩

theorem isHunkHeader_renderHeader (hunk : Hunk) : isHunkHeader (renderHeader hunk) = true := by
  rw [isHunkHeader, strip_renderHeader]
  rfl

theorem parseHunkHeader_renderHeader (hunk : Hunk) :
    parseHunkHeader (renderHeader hunk) = .ok { hunk with lines := [] } := by
  have minus : isSpace '-' = false := by decide
  have plus : isSpace '+' = false := by decide
  have closing : isSpace '@' = false := by decide
  have opening : (scanText ['@', '@', '@'] (renderHeader hunk)).or
      (scanText ['@', '@'] (renderHeader hunk)) =
        some (renderRange '-' hunk.oldStart hunk.oldCount ++
          (renderRange '+' hunk.newStart hunk.newCount ++ [' ', '@', '@'])) := by
    rw [renderHeader, List.append_assoc, List.append_assoc, scanText_append]
    rfl
  have old := scanRange_renderRange minus hunk.oldStart hunk.oldCount
    (renderRange '+' hunk.newStart hunk.newCount ++ [' ', '@', '@'])
    (by rintro c ⟨⟩; decide)
  have new := scanRange_renderRange plus hunk.newStart hunk.newCount [' ', '@', '@']
    (by rintro c ⟨⟩; decide)
  have scanned : scanHeader (renderHeader hunk) = some { hunk with lines := [] } := by
    simp only [scanHeader, Option.bind_eq_bind, opening, Option.bind_some, old, new,
      scanSpaces_single closing]
    rfl
  rw [parseHunkHeader, strip_renderHeader, scanned]

theorem parseHunks_render (hunks : List Hunk) :
    parseHunks (hunks.map (fun hunk => (renderHeader hunk, hunk.lines))) = .ok hunks := by
  induction hunks with
  | nil => rfl
  | cons hunk rest ih =>
    rw [List.map_cons, parseHunks, parseHunkHeader_renderHeader, ih]
    rfl

section Sections

variable {op : PatchOp}

theorem isHunkHeader_marked {raw : Text} {mark : Char} (first : raw.head? = some mark)
    (plain : isSpace mark = false) (noAt : mark ≠ '@') : isHunkHeader raw = false := by
  cases raw with
  | nil => cases first
  | cons c rest =>
    obtain rfl := Option.some.inj first
    simp [isHunkHeader, strip_cons plain, List.isPrefixOf, Ne.symm noAt]

theorem hunkLine_follows {hunk : Hunk} {raw : Text} (context : PlainContext hunk)
    (mem : raw ∈ hunk.lines) (marked : HunkLine raw) : isHunkHeader raw = false := by
  rcases marked.2 with blank | minus | plus
  · exact (context raw mem blank).2
  · exact isHunkHeader_marked minus (by decide) (by decide)
  · exact isHunkHeader_marked plus (by decide) (by decide)

theorem filter_added (pieces : List Text) :
    ((pieces.map ('+' :: ·)).filter (fun raw => raw.head? = some '+')).map List.tail = pieces := by
  rw [List.filter_eq_self.mpr, List.map_map]
  · exact List.map_id _
  · intro raw mem
    obtain ⟨piece, -, rfl⟩ := List.mem_map.mp mem
    rfl

theorem isPrefixOf_append (marker rest : Text) : marker.isPrefixOf (marker ++ rest) = true :=
  List.isPrefixOf_iff_prefix.mpr (List.prefix_append _ _)

theorem parseSection_reread (rereadable : Rereadable op) :
    parseSection (renderTitle op) (renderLines op) = .ok (some op) := by
  cases op with
  | addFile path content =>
    have trimmed : strip path = path := rereadable.trimmed
    rw [parseSection, renderTitle, if_pos (isPrefixOf_append _ _), List.drop_left, renderLines]
    dsimp only
    rw [filter_added, joinLines_splitFeeds, trimmed]
  | updateFile path hunks =>
    have trimmed : strip path = path := rereadable.trimmed
    have nonempty := rereadable.hunks path hunks rfl
    have blocks := sections_flatMap isHunkHeader renderHeader Hunk.lines
      (fun hunk _ => isHunkHeader_renderHeader hunk)
      (fun hunk mem raw inside => (rereadable.hunkLines path hunks rfl hunk mem raw inside).2)
    have noAdd : addMarker.isPrefixOf (updateMarker ++ path) = false := by rfl
    rw [parseSection, renderTitle, noAdd, if_neg Bool.false_ne_true, if_pos (isPrefixOf_append _ _),
      List.drop_left, renderLines, blocks]
    dsimp only
    rw [parseHunks_render, trimmed]
    cases hunks with
    | nil => exact absurd rfl nonempty
    | cons hunk rest => rfl
  | deleteFile path =>
    have trimmed : strip path = path := rereadable.trimmed
    have noAdd : addMarker.isPrefixOf (deleteMarker ++ path) = false := by rfl
    have noUpdate : updateMarker.isPrefixOf (deleteMarker ++ path) = false := by rfl
    rw [parseSection, renderTitle, noAdd, if_neg Bool.false_ne_true, noUpdate,
      if_neg Bool.false_ne_true, if_pos (isPrefixOf_append _ _), List.drop_left, trimmed]

theorem parseSections_reread {ops : List PatchOp} (rereadable : ∀ op ∈ ops, Rereadable op) :
    parseSections (ops.map (fun op => (renderTitle op, renderLines op))) = .ok ops := by
  induction ops with
  | nil => rfl
  | cons op rest ih =>
    obtain ⟨here, later⟩ := List.forall_mem_cons.mp rereadable
    rw [List.map_cons, parseSections, parseSection_reread here, ih later]
    rfl

theorem strip_marked {raw : Text} {mark : Char} (first : raw.head? = some mark)
    (plain : isSpace mark = false) (noStar : mark ≠ '*') : strip raw ≠ endMarker := by
  cases raw with
  | nil => cases first
  | cons c rest =>
    obtain rfl := Option.some.inj first
    rw [strip_cons plain]
    exact fun same => noStar (List.cons.inj same).1

theorem notSection_marked {raw : Text} {mark : Char} (first : raw.head? = some mark)
    (noStar : mark ≠ '*') : sectionMarker.isPrefixOf raw = false := by
  cases raw with
  | nil => cases first
  | cons c rest =>
    obtain rfl := Option.some.inj first
    simp [sectionMarker, List.isPrefixOf, Ne.symm noStar]

theorem Writable.rereadable (writable : Writable op) (plain : PlainUpdate op) : Rereadable op where
  trimmed := writable.trimmed
  onOneLine := writable.onOneLine
  contents := writable.contents
  hunks := fun path hunks same => (plain path hunks same).1
  hunkLines := by
    intro path hunks same hunk mem raw inside
    have context := (plain path hunks same).2 hunk mem
    have written := writable.hunkLines path hunks same hunk mem raw inside
    refine ⟨⟨written.1, ?_⟩, hunkLine_follows context inside written⟩
    rcases written.2 with blank | minus | plus
    · exact ⟨notSection_marked blank (by decide), (context raw inside blank).1⟩
    · exact ⟨notSection_marked minus (by decide), strip_marked minus (by decide) (by decide)⟩
    · exact ⟨notSection_marked plus (by decide), strip_marked plus (by decide) (by decide)⟩

theorem renderLines_inner (rereadable : Rereadable op) {raw : Text} (mem : raw ∈ renderLines op) :
    Inner raw := by
  cases op with
  | addFile path content =>
    obtain ⟨piece, inside, rfl⟩ := List.mem_map.mp mem
    have unbroken := unbroken_of_mem_splitFeeds (rereadable.contents path content rfl) piece inside
    exact ⟨List.forall_mem_cons.mpr ⟨by decide, unbroken⟩, notSection_marked rfl (by decide),
      strip_marked rfl (by decide) (by decide)⟩
  | updateFile path hunks =>
    obtain ⟨hunk, hunkMember, inside⟩ := List.mem_flatMap.mp mem
    rcases List.mem_cons.mp inside with rfl | inside
    · exact ⟨unbroken_renderHeader hunk, notSection_marked rfl (by decide),
        strip_marked rfl (by decide) (by decide)⟩
    · exact (rereadable.hunkLines path hunks rfl hunk hunkMember raw inside).1
  | deleteFile path => cases mem

theorem strip_starred {rest : Text} (differs : endMarker.isPrefixOf ('*' :: rest) = false) :
    strip ('*' :: rest) ≠ endMarker := by
  intro same
  have start : strip ('*' :: rest) <+: '*' :: rest := by
    rw [strip_cons (by decide), List.prefix_cons_inj]
    exact List.rdropWhile_prefix _ _
  rw [same, ← List.isPrefixOf_iff_prefix, differs] at start
  cases start

theorem renderTitle_opens (path : Unbroken op.path) :
    Unbroken (renderTitle op) ∧ sectionMarker.isPrefixOf (renderTitle op) = true ∧
      strip (renderTitle op) ≠ endMarker := by
  cases op with
  | addFile path content =>
    have marker : Unbroken addMarker := by decide
    exact ⟨List.forall_mem_append.mpr ⟨marker, path⟩, rfl, strip_starred rfl⟩
  | updateFile path hunks =>
    have marker : Unbroken updateMarker := by decide
    exact ⟨List.forall_mem_append.mpr ⟨marker, path⟩, rfl, strip_starred rfl⟩
  | deleteFile path =>
    have marker : Unbroken deleteMarker := by decide
    exact ⟨List.forall_mem_append.mpr ⟨marker, path⟩, rfl, strip_starred rfl⟩

theorem findIdx?_first (lines : List Text) {marker first : Text} {rest : List Text}
    (none : ∀ line ∈ lines, strip line ≠ marker) (found : strip first = marker) :
    (lines ++ first :: rest).findIdx? (fun line => strip line = marker) = some lines.length := by
  induction lines with
  | nil => simp [List.findIdx?_cons, found]
  | cons line tail ih =>
    obtain ⟨here, later⟩ := List.forall_mem_cons.mp none
    simp [List.findIdx?_cons, here, ih later]

end Sections

theorem mem_of_mem_strip {text : Text} {c : Char} (inside : c ∈ strip text) : c ∈ text :=
  (List.dropWhile_suffix isSpace).subset ((List.rdropWhile_prefix isSpace _).subset inside)

theorem mem_joinLines {lines : List Text} {c : Char} (inside : c ∈ joinLines lines) :
    c = '\n' ∨ ∃ line ∈ lines, c ∈ line := by
  induction lines with
  | nil => cases inside
  | cons line rest ih =>
    by_cases last : rest = []
    · rw [last, joinLines] at inside
      exact .inr ⟨line, List.mem_cons_self, inside⟩
    · rw [joinLines_cons last, List.mem_append, List.mem_append, List.mem_singleton] at inside
      obtain (here | feed) | later := inside
      · exact .inr ⟨line, List.mem_cons_self, here⟩
      · exact .inl feed
      · obtain feed | ⟨other, mem, own⟩ := ih later
        · exact .inl feed
        · exact .inr ⟨other, List.mem_cons_of_mem line mem, own⟩

theorem follows_of_mem_sections {starts : Text → Bool} {lines : List Text} :
    (∀ line ∈ (sections starts lines).1, starts line = false) ∧
    ∀ block ∈ (sections starts lines).2, block.1 ∈ lines ∧ ∀ line ∈ block.2, starts line = false := by
  induction lines with
  | nil => exact ⟨List.forall_mem_nil _, List.forall_mem_nil _⟩
  | cons first rest ih =>
    obtain ⟨lead, blocks⟩ := ih
    have later : ∀ block ∈ (sections starts rest).2, block.1 ∈ first :: rest ∧ ∀ line ∈ block.2,
        starts line = false :=
      fun block mem => ⟨List.mem_cons_of_mem first (blocks block mem).1, (blocks block mem).2⟩
    rw [sections]
    split
    next => exact ⟨List.forall_mem_nil _, List.forall_mem_cons.mpr ⟨⟨List.mem_cons_self, lead⟩, later⟩⟩
    next plain => exact ⟨List.forall_mem_cons.mpr ⟨Bool.eq_false_iff.mpr plain, lead⟩, later⟩

theorem parseHunks_lines {blocks : List (Text × List Text)} {hunks : List Hunk}
    (parsed : parseHunks blocks = .ok hunks) : ∀ hunk ∈ hunks, ∃ block ∈ blocks, hunk.lines = block.2 := by
  induction blocks generalizing hunks with
  | nil =>
    cases parsed
    nofun
  | cons block rest ih =>
    obtain ⟨header, lines⟩ := block
    rw [parseHunks] at parsed
    cases first : parseHunkHeader header with
    | error raised =>
      rw [first] at parsed
      cases parsed
    | ok hunk =>
      cases others : parseHunks rest with
      | error raised =>
        rw [first, others] at parsed
        cases parsed
      | ok later =>
        rw [first, others] at parsed
        cases parsed
        refine List.forall_mem_cons.mpr ⟨⟨(header, lines), List.mem_cons_self .., rfl⟩, ?_⟩
        intro hunk mem
        obtain ⟨block, inside, same⟩ := ih others hunk mem
        exact ⟨block, List.mem_cons_of_mem _ inside, same⟩

theorem parseSection_rereadable {header : Text} {lines : List Text} {op : PatchOp} (title : Unbroken header)
    (inner : ∀ line ∈ lines, Inner line) (parsed : parseSection header lines = .ok (some op)) :
    Rereadable op := by
  have path : ∀ count, Unbroken (strip (header.drop count)) := fun count c inside =>
    title c (List.mem_of_mem_drop (mem_of_mem_strip inside))
  unfold parseSection at parsed
  split at parsed
  · cases parsed
    refine ⟨strip_strip _, path _, ?_, by nofun, by nofun⟩
    rintro path content ⟨⟩ c inside breaks
    obtain feed | ⟨piece, mem, own⟩ := mem_joinLines inside
    · exact feed
    · obtain ⟨raw, listed, rfl⟩ := List.mem_map.mp mem
      have plain := (inner raw (List.mem_of_mem_filter listed)).1 c (List.mem_of_mem_tail own)
      rw [plain] at breaks
      cases breaks
  · split at parsed
    · dsimp only at parsed
      split at parsed
      · cases parsed
      · cases parsed
      next some read =>
        cases parsed
        refine ⟨strip_strip _, path _, by nofun, ?_, ?_⟩
        · rintro path hunks ⟨⟩
          exact some
        · rintro path hunks ⟨⟩ hunk mem raw inside
          obtain ⟨block, own, same⟩ := parseHunks_lines read hunk mem
          rw [same] at inside
          exact ⟨inner raw (mem_of_mem_sections.2 block own raw inside),
              (follows_of_mem_sections.2 block own).2 raw inside⟩
    · split at parsed
      · cases parsed
        exact ⟨strip_strip _, path _, by nofun, by nofun, by nofun⟩
      · cases parsed

theorem parseSections_rereadable {blocks : List (Text × List Text)} {ops : List PatchOp}
    (titles : ∀ block ∈ blocks, Unbroken block.1) (inner : ∀ block ∈ blocks, ∀ line ∈ block.2, Inner line)
    (parsed : parseSections blocks = .ok ops) : ∀ op ∈ ops, Rereadable op := by
  induction blocks generalizing ops with
  | nil =>
    cases parsed
    nofun
  | cons block rest ih =>
    obtain ⟨header, lines⟩ := block
    obtain ⟨title, others⟩ := List.forall_mem_cons.mp titles
    obtain ⟨here, later⟩ := List.forall_mem_cons.mp inner
    rw [parseSections] at parsed
    cases first : parseSection header lines with
    | error raised =>
      rw [first] at parsed
      cases parsed
    | ok op =>
      cases tail : parseSections rest with
      | error raised =>
        rw [first, tail] at parsed
        cases parsed
      | ok behind =>
        rw [first, tail] at parsed
        cases parsed
        rw [List.forall_mem_append]
        refine ⟨fun own mem => ?_, ih others later tail⟩
        obtain rfl := Option.mem_toList.mp mem
        exact parseSection_rereadable title here first

theorem parsePatch_rereadable {patchText : Text} {ops : List PatchOp}
    (parsed : parsePatch patchText = .ok ops) : ops ≠ [] ∧ ∀ op ∈ ops, Rereadable op := by
  unfold parsePatch at parsed
  dsimp only at parsed
  split at parsed
  · cases parsed
  next start _ =>
    split at parsed
    · cases parsed
    next stop ended =>
      split at parsed
      · cases parsed
      · cases parsed
      next some read =>
        cases parsed
        have body : ∀ line ∈ ((splitLines patchText).take stop).drop (start + 1), Unbroken line ∧
            strip line ≠ endMarker := by
          intro line inside
          obtain ⟨at_, before, rfl⟩ := List.mem_take_iff_getElem.mp (List.mem_of_mem_drop inside)
          obtain ⟨_, _, first⟩ := List.findIdx?_eq_some_iff_getElem.mp ended
          refine ⟨unbroken_of_mem_splitLines (List.getElem_mem _), fun same => ?_⟩
          exact first at_ (Nat.lt_of_lt_of_le before (Nat.min_le_left _ _)) (by simpa using same)
        refine ⟨some, parseSections_rereadable (fun block own => ?_) (fun block own line inside => ?_) read⟩
        · exact (body _ (follows_of_mem_sections.2 block own).1).1
        · have listed := body line (mem_of_mem_sections.2 block own line inside)
          exact ⟨listed.1, (follows_of_mem_sections.2 block own).2 line inside, listed.2⟩

theorem parsePatch_reread {ops : List PatchOp} (nonempty : ops ≠ []) (rereadable : ∀ op ∈ ops, Rereadable op) :
    parsePatch (renderPatch ops) = .ok ops := by
  have inside : ∀ line ∈ ops.flatMap (fun op => renderTitle op :: renderLines op),
      Unbroken line ∧ strip line ≠ endMarker := by
    intro line mem
    obtain ⟨op, opMember, own⟩ := List.mem_flatMap.mp mem
    rcases List.mem_cons.mp own with rfl | own
    · have title := renderTitle_opens (rereadable op opMember).onOneLine
      exact ⟨title.1, title.2.2⟩
    · have lines := renderLines_inner (rereadable op opMember) own
      exact ⟨lines.1, lines.2.2⟩
  have lines : splitLines (renderPatch ops) =
      beginMarker :: ops.flatMap (fun op => renderTitle op :: renderLines op) ++ [endMarker] := by
    have opening : Unbroken beginMarker := by decide
    have closing : Unbroken endMarker := by decide
    refine splitLines_joinLines ?_ ?_
    · rw [List.forall_mem_append, List.forall_mem_cons, List.forall_mem_singleton]
      exact ⟨⟨opening, fun line mem => (inside line mem).1⟩, closing⟩
    · intro line last
      rw [List.getLast?_append] at last
      cases last
      exact List.cons_ne_nil _ _
  have start : (splitLines (renderPatch ops)).findIdx? (fun line => strip line = beginMarker) = some 0 := by
    rw [lines]
    exact findIdx?_first [] (by simp) (by decide)
  have stop : (splitLines (renderPatch ops)).findIdx? (fun line => strip line = endMarker) =
      some ((ops.flatMap (fun op => renderTitle op :: renderLines op)).length + 1) := by
    rw [lines]
    refine findIdx?_first _ (List.forall_mem_cons.mpr ⟨?_, fun line mem => (inside line mem).2⟩) ?_
    · decide
    · decide
  have body := sections_flatMap sectionMarker.isPrefixOf renderTitle renderLines
    (fun op mem => (renderTitle_opens (rereadable op mem).onOneLine).2.1)
    (fun op mem raw own => (renderLines_inner (rereadable op mem) own).2.1)
  rw [parsePatch]
  dsimp only
  rw [start, stop, lines]
  dsimp only
  rw [List.cons_append, List.take_succ_cons, List.drop_succ_cons, List.drop_zero, List.take_left, body]
  dsimp only
  rw [parseSections_reread rereadable]
  cases ops with
  | nil => exact absurd rfl nonempty
  | cons op rest => rfl

/-- A written patch is read back. -/
theorem parsePatch_renderPatch {ops : List PatchOp} (nonempty : ops ≠ [])
    (writable : ∀ op ∈ ops, Writable op) (plain : ∀ op ∈ ops, PlainUpdate op) :
    parsePatch (renderPatch ops) = .ok ops :=
  parsePatch_reread nonempty fun op mem => (writable op mem).rereadable (plain op mem)

def threeSections : List PatchOp :=
  [.addFile "new file.txt".toList "one\n\n@@ two\n".toList,
   .updateFile "src/main.c".toList
    [{ oldStart := 3, oldCount := 2, newStart := 3, newCount := 2,
       lines := [" int x;".toList, "-*** End Patch".toList, "+@@ -1 +1 @@".toList] },
     { oldStart := 120, oldCount := 0, newStart := 121, newCount := 0 }],
   .deleteFile "old".toList]

theorem parsePatch_renderPatch_threeSections : parsePatch (renderPatch threeSections) = .ok threeSections := by
  refine parsePatch_renderPatch (by decide) ?_ ?_
  · simp only [threeSections, List.forall_mem_cons]
    refine ⟨⟨by decide, by decide, by decide, ?_, by nofun⟩,
      ⟨by decide, by decide, by decide, by nofun, ?_⟩,
      ⟨by decide, by decide, by decide, by nofun, by nofun⟩, by nofun⟩
    · rintro path content ⟨⟩
      decide
    · rintro path hunks ⟨⟩
      unfold HunkLine
      decide
  · simp only [threeSections, List.forall_mem_cons]
    refine ⟨by nofun, ?_, by nofun, by nofun⟩
    rintro path hunks ⟨⟩
    unfold PlainContext
    decide

def keepsLine (line : String) : PatchOp :=
  .updateFile "notes".toList
    [{ oldStart := 1, oldCount := 1, newStart := 1, newCount := 1, lines := [' ' :: line.toList] }]

/-- No operation and no hunk are refused, and a context line that reads like the end of the patch or
like a hunk header is taken for one. -/
theorem renderPatch_misread : parsePatch (renderPatch []) = .error .noOperations ∧
    Writable (.updateFile "notes".toList []) ∧
    parsePatch (renderPatch [.updateFile "notes".toList []]) = .error (.noHunks "notes".toList) ∧
    Writable (keepsLine "*** End Patch") ∧ parsePatch (renderPatch [keepsLine "*** End Patch"]) =
      .ok [.updateFile "notes".toList [{ oldStart := 1, oldCount := 1, newStart := 1, newCount := 1 }]] ∧
    Writable (keepsLine "@@ see below") ∧
    parsePatch (renderPatch [keepsLine "@@ see below"]) = .error .invalidHunkHeader := by
  refine ⟨by decide, ⟨by decide, by decide, by decide, by nofun, ?_⟩,
    by decide, ⟨by decide, by decide, by decide, by nofun, ?_⟩,
    by decide, ⟨by decide, by decide, by decide, by nofun, ?_⟩,
    by decide⟩
  all_goals
    rintro path hunks ⟨⟩
    unfold HunkLine
    decide

/-- What is accepted can be written down: the canonical text of its operations is accepted as well,
and means the same. -/
theorem accepted_patch_is_reread {patchText : Text} {ops : List PatchOp}
    (accepted : parsePatch patchText = .ok ops) :
    (∀ op ∈ ops, Rereadable op) ∧ parsePatch (renderPatch ops) = .ok ops := by
  obtain ⟨nonempty, rereadable⟩ := parsePatch_rereadable accepted
  exact ⟨rereadable, parsePatch_reread nonempty rereadable⟩

-- text in front of the patch and of a hunk, a context line without a mark
def looseText : Text :=
  "?\n*** Begin Patch\n*** Update File:  a \n?\n@@@ -3 +4,0 @@\n*x\n*** End Patch".toList

def looseOps : List PatchOp :=
  [.updateFile ['a'] [{ oldStart := 3, oldCount := 1, newStart := 4, newCount := 0, lines := [['*', 'x']] }]]

theorem loose_patch_is_reread : (∀ op ∈ looseOps, Rereadable op) ∧
    parsePatch (renderPatch looseOps) = .ok looseOps :=
  @accepted_patch_is_reread looseText looseOps (by decide)

end OpenSquilla.Patches
