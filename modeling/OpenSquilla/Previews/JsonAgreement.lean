import OpenSquilla.Previews.PartialFileInput
import OpenSquilla.Shared.JsonGrammar

set_option autoImplicit false

namespace OpenSquilla.Previews

open TextLines JsonText BoundedTail PartialFileInput

section Stores

variable {C D : Type} {store : ContentStore C} {store' : ContentStore D} (shown : C → D)

def PartialFileInput.mapContent (input : PartialFileInput C) : PartialFileInput D :=
  ⟨input.toolName, input.path, shown input.content, input.contentChars, input.contentComplete,
    input.pathComplete,
    input.depth, input.expectKey, input.key, input.inString, input.role, input.token, input.tokenOverflow,
      input.escape,
    input.highSurrogate⟩

variable (clears : shown store.clear = store'.clear)
  (pushes : ∀ content c, shown (store.push content c) = store'.push (shown content) c)

include pushes in
theorem mapContent_takeChar (input : PartialFileInput C) (c : Char) :
    (takeChar store input c).mapContent shown = takeChar store' (input.mapContent shown) c := by
  obtain ⟨_, _, _, _, _, _, _, _, _, _, role, _, _, _, _⟩ := input
  cases role with
  | content => simp [takeChar, mapContent, pushes]
  | skip => rfl
  | key | path =>
    simp only [takeChar, apply_ite (mapContent shown)]
    rfl

include pushes in
theorem mapContent_decoded (input : PartialFileInput C) (point : CodePoint) :
    (decoded store input point).mapContent shown = decoded store' (input.mapContent shown) point := by
  cases point with
  | char c => exact mapContent_takeChar shown pushes _ c
  | surrogate offset =>
    simp only [decoded]
    split
    · rfl
    · obtain ⟨_, _, _, _, _, _, _, _, _, _, _, _, _, _, pending⟩ := input
      cases pending with
      | none => rfl
      | some high => exact mapContent_takeChar shown pushes _ _

theorem mapContent_closeString (input : PartialFileInput C) :
    input.closeString.mapContent shown = (input.mapContent shown).closeString := by
  obtain ⟨_, _, _, _, _, _, _, _, _, _, role, _, _, _, _⟩ := input
  cases role <;> rfl

include clears in
theorem mapContent_openString (input : PartialFileInput C) :
    (openString store input).mapContent shown = openString store' (input.mapContent shown) := by
  have role : stringRole (input.mapContent shown) = stringRole input := rfl
  simp only [openString, role]
  cases stringRole input <;> simp [mapContent, clears]

include clears pushes in
theorem mapContent_readPoint (input : PartialFileInput C) (point : CodePoint) :
    (readPoint store input point).mapContent shown = readPoint store' (input.mapContent shown) point := by
  have escaped : ∀ escape, (readEscape store input escape).mapContent shown =
      readEscape store' (input.mapContent shown) escape := by
    intro escape
    simp only [readEscape]
    split
    · rfl
    · cases loadsEscape escape with
      | none => rfl
      | some point =>
        have inner : (decoded store input point).mapContent shown = _ :=
          mapContent_decoded shown pushes input point
        simp only [← inner]
        rfl
  have inString : (input.mapContent shown).inString = input.inString := rfl
  have escape : (input.mapContent shown).escape = input.escape := rfl
  have depth : (input.mapContent shown).depth = input.depth := rfl
  simp only [readPoint, inString, escape, depth, apply_ite (mapContent shown)]
  split
  · cases input.escape with
    | none =>
      simp only [apply_ite (mapContent shown), mapContent_closeString, mapContent_decoded shown pushes]
      rfl
    | some pending => exact escaped _
  · simp only [mapContent_openString shown clears]
    rfl

end Stores

section Fragments

def wholeStore : ContentStore Text := ⟨[], fun content c => content ++ [c]⟩

def shownStore (limit : Nat) : ContentStore Text := ⟨[], fun content c => lastOf limit (content ++ [c])⟩

def Kept.shown (limit : Nat) (kept : Kept) : Text := lastOf limit (kept.content ++ kept.appended)

theorem shown_push (limit : Nat) (kept : Kept) (c : Char) :
    ((keptStore limit).push kept c).shown limit = (shownStore limit).push (kept.shown limit) c := by
  simp only [keptStore, shownStore, Kept.shown, lastOf_append_right, lastOf_append_lastOf, List.append_assoc]

theorem lastOf_push (limit : Nat) (content : Text) (c : Char) :
    lastOf limit (wholeStore.push content c) = (shownStore limit).push (lastOf limit content) c := by
  simp only [wholeStore, shownStore, lastOf_append_lastOf]

theorem mapContent_readAll {C D : Type} {store : ContentStore C} {store' : ContentStore D} (shown : C → D)
    (clears : shown store.clear = store'.clear)
    (pushes : ∀ content c, shown (store.push content c) = store'.push (shown content) c)
    (input : PartialFileInput C) (text : Str) : (text.foldl (readPoint store) input).mapContent shown =
      text.foldl (readPoint store') (input.mapContent shown) := by
  induction text generalizing input with
  | nil => rfl
  | cons point text ih => rw [List.foldl_cons, List.foldl_cons, ih, mapContent_readPoint shown clears pushes]

theorem content_readAll {C : Type} {store : ContentStore C} {holds : C → Prop} (clears : holds store.clear)
    (pushes : ∀ content c, holds content → holds (store.push content c)) {input : PartialFileInput C}
    (start : holds input.content) (text : Str) : holds (text.foldl (readPoint store) input).content := by
  let kept : ContentStore { content // holds content } :=
    ⟨⟨store.clear, clears⟩, fun content c => ⟨store.push content.1 c, pushes content.1 c content.2⟩⟩
  have same := @mapContent_readAll _ _ kept store Subtype.val rfl (fun _ _ => rfl)
    (input.mapContent fun _ => ⟨input.content, start⟩) text
  have content := congrArg PartialFileInput.content same
  have input_ :
      (input.mapContent fun _ =>
        (⟨input.content, start⟩ : { content // holds content })).mapContent Subtype.val =
      input := rfl
  rw [input_] at content
  rw [← content]
  exact Subtype.property _

variable {limit : Nat}

-- Between two fragments nothing is appended, and no more is kept than is shown.
def Settled (limit : Nat) (input : PartialFileInput Kept) : Prop :=
  input.content.appended = [] ∧ input.content.content.length ≤ limit

theorem Settled.shown {input : PartialFileInput Kept} (settled : Settled limit input) :
    input.content.shown limit = input.content.content := by
  rw [Kept.shown, settled.1, List.append_nil, lastOf_of_length_le settled.2]

theorem feed_spec {input : PartialFileInput Kept} (settled : Settled limit input) (fragment : Str) :
    Settled limit (input.feedUpTo limit fragment) ∧
      (input.feedUpTo limit fragment).mapContent (Kept.shown limit) =
        fragment.foldl (readPoint (shownStore limit)) (input.mapContent (Kept.shown limit)) := by
  unfold feedUpTo
  have start : ({ input with content := ⟨input.content.content, []⟩ } : PartialFileInput Kept) = input := by
    obtain ⟨_, _, ⟨content, appended⟩, _, _, _, _, _, _, _, _, _, _, _, _⟩ := input
    obtain rfl : appended = [] := settled.1
    rfl
  have clears : (keptStore limit).clear.shown limit = (shownStore limit).clear := by
    simp [keptStore, shownStore, Kept.shown, lastOf]
  have ran := mapContent_readAll (Kept.shown limit) clears (shown_push limit) input fragment
  have bounded : (fragment.foldl (readPoint (keptStore limit)) input).content.content.length ≤ limit :=
    @content_readAll Kept _ (fun kept => kept.content.length ≤ limit) (by simp [keptStore])
      (fun _ _ short => short) _
      settled.2 fragment
  rw [start, ← ran]
  generalize fragment.foldl (readPoint (keptStore limit)) input = read at bounded ⊢
  by_cases more : read.content.appended = []
  · refine ⟨⟨rfl, ?_⟩, ?_⟩
    · simpa only [more, ne_eq, not_true_eq_false, if_false] using bounded
    · simp [more, mapContent, Kept.shown]
  · have short : (lastOf limit (read.content.content ++ read.content.appended)).length ≤ limit := by
      rw [length_lastOf]
      exact Nat.min_le_right _ _
    refine ⟨⟨rfl, ?_⟩, ?_⟩
    · simpa only [if_pos more] using short
    · simp only [if_pos more, mapContent, Kept.shown, List.append_nil, lastOf_of_length_le short]

variable (limit) in
theorem feedAll_spec (fragments : List Str) {input : PartialFileInput Kept} (settled : Settled limit input) :
    Settled limit (fragments.foldl (feedUpTo limit) input) ∧
      (fragments.foldl (feedUpTo limit) input).mapContent (Kept.shown limit) =
        fragments.flatten.foldl (readPoint (shownStore limit))
          (input.mapContent (Kept.shown limit)) := by
  induction fragments generalizing input with
  | nil => exact ⟨settled, rfl⟩
  | cons fragment fragments ih =>
    obtain ⟨settled', fed⟩ := feed_spec settled fragment
    obtain ⟨settled'', read⟩ := ih settled'
    exact ⟨settled'', by rw [List.foldl_cons, read, fed, List.flatten_cons, List.foldl_append]⟩

def readText (toolName : FileTool) (text : Str) : PartialFileInput Text :=
  text.foldl (readPoint wholeStore) (initial wholeStore toolName)

variable (limit) in
theorem feedAll_eq (toolName : FileTool) (fragments : List Str) :
    (fragments.foldl (feedUpTo limit) (initial (keptStore limit) toolName)).mapContent Kept.content =
      (readText toolName fragments.flatten).mapContent (lastOf limit) := by
  have settled : Settled limit (initial (keptStore limit) toolName) := ⟨rfl, Nat.zero_le _⟩
  obtain ⟨settled', read⟩ := feedAll_spec limit fragments settled
  have shown : (fragments.foldl (feedUpTo limit) (initial (keptStore limit) toolName)).mapContent Kept.content =
      (fragments.foldl (feedUpTo limit) (initial (keptStore limit) toolName)).mapContent (Kept.shown limit) := by
    simp only [mapContent, settled'.shown]
  have whole : (readText toolName fragments.flatten).mapContent (lastOf limit) = _ :=
    @mapContent_readAll _ _ _ (shownStore limit) (lastOf limit)
      (by simp [wholeStore, shownStore, lastOf]) (lastOf_push _) _ _
  rw [shown, read, whole]
  simp [initial, mapContent, keptStore, wholeStore, Kept.shown, lastOf]

end Fragments

/-- A text is read, and at every point the content is a beginning of what it is in the end. -/
inductive Reads : PartialFileInput Text → Str → PartialFileInput Text → Prop
  | nil (input : PartialFileInput Text) : Reads input [] input
  | cons {input last : PartialFileInput Text} {point : CodePoint} {text : Str}
      (grows : input.content <+: (readPoint wholeStore input point).content)
      (rest : Reads (readPoint wholeStore input point) text last) : Reads input (point :: text) last

namespace Reads

variable {input middle last : PartialFileInput Text} {text more : Str}

theorem append (first : Reads input text middle) (second : Reads middle more last) :
    Reads input (text ++ more) last := by
  induction first with
  | nil => exact second
  | cons grows _ ih => exact .cons grows (ih second)

theorem foldl_eq (reads : Reads input text last) : text.foldl (readPoint wholeStore) input = last := by
  induction reads with
  | nil => rfl
  | cons _ _ ih => exact ih

theorem content_prefix (reads : Reads input text last) {before : Str} (front : before <+: text) :
    (before.foldl (readPoint wholeStore) input).content <+: last.content := by
  induction reads generalizing before with
  | nil input =>
    obtain rfl := List.prefix_nil.1 front
    exact List.prefix_rfl
  | cons grows rest ih =>
    cases before with
    | nil => exact grows.trans (ih (List.nil_prefix))
    | cons point before =>
      obtain ⟨rfl, later⟩ := List.cons_prefix_cons.1 front
      exact ih later

theorem single {point : CodePoint} (step : readPoint wholeStore input point = last)
    (keeps : last.content = input.content) : Reads input [point] last := by
  subst step
  exact .cons (keeps ▸ List.prefix_rfl) (.nil _)

end Reads

def Scratched (input other : PartialFileInput Text) : Prop :=
  ∃ role token tokenOverflow, other = { input with role := role, token := token, tokenOverflow := tokenOverflow }

theorem Scratched.rfl (input : PartialFileInput Text) : Scratched input input := ⟨_, _, _, Eq.refl _⟩

theorem Scratched.trans {input other third : PartialFileInput Text} (first : Scratched input other)
    (second : Scratched other third) : Scratched input third := by
  obtain ⟨_, _, _, rfl⟩ := first
  obtain ⟨role, token, tokenOverflow, rfl⟩ := second
  exact ⟨role, token, tokenOverflow, Eq.refl _⟩

-- A text leads from one state to another, whatever is left of the last string.
def Leads (input : PartialFileInput Text) (text : Str) (last : PartialFileInput Text) : Prop :=
  ∃ other, Reads input text other ∧ Scratched last other

structure Outside (input : PartialFileInput Text) : Prop where
  inString : input.inString = false
  escape : input.escape = none
  highSurrogate : input.highSurrogate = none

theorem Outside.scratched {input other : PartialFileInput Text} (outside : Outside input)
    (scratched : Scratched input other) : Outside other := by
  obtain ⟨_, _, _, rfl⟩ := scratched
  exact ⟨outside.inString, outside.escape, outside.highSurrogate⟩

def Plain (point : CodePoint) : Prop :=
  ∀ mark ∈ ['"', '\x7b', '[', '\x7d', ']', ','], point ≠ .char mark

theorem readPoint_plain {input : PartialFileInput Text} {point : CodePoint} (outside : Outside input)
    (plain : Plain point) : readPoint wholeStore input point = input := by
  simp only [Plain, List.forall_mem_cons] at plain
  simp [readPoint, outside.inString, plain]

theorem reads_plain {input : PartialFileInput Text} (outside : Outside input) {text : Str}
    (plain : ∀ point ∈ text, Plain point) : Reads input text input := by
  induction text with
  | nil => exact .nil input
  | cons point text ih =>
    rw [List.forall_mem_cons] at plain
    exact (Reads.single (readPoint_plain outside plain.1) rfl).append (ih plain.2)

section Strings

variable {input : PartialFileInput Text}

/-- The characters of the points, behind a surrogate that may wait for its other half. -/
def drain : Option (Fin 2048) → Str → Text
  | _, [] => []
  | _, .char c :: rest => c :: drain none rest
  | pending, .surrogate offset :: rest =>
    if isHighSurrogate offset then drain (some offset) rest
    else
      match pending with
      | some high => pairOf high offset :: drain none rest
      | none => drain none rest

theorem content_takeChar (input : PartialFileInput Text) (c : Char) :
    input.content <+: (takeChar wholeStore input c).content := by
  cases role : input.role with
  | content => simp [takeChar, role, wholeStore]
  | skip => simp [takeChar, role]
  | key | path =>
    simp only [takeChar, role]
    split <;> exact List.prefix_rfl

theorem content_decoded (input : PartialFileInput Text) (point : CodePoint) :
    input.content <+: (decoded wholeStore input point).content := by
  cases point with
  | char c => exact content_takeChar { input with highSurrogate := none } c
  | surrogate offset =>
    simp only [decoded]
    split
    · exact List.prefix_rfl
    · split
      · exact content_takeChar { input with highSurrogate := none } _
      · exact List.prefix_rfl

@[simp] theorem takeChar_inString (input : PartialFileInput Text) (c : Char) :
    (takeChar wholeStore input c).inString = input.inString := by
  simp only [takeChar]
  split
  all_goals first | rfl | (split <;> rfl)

@[simp] theorem takeChar_escape (input : PartialFileInput Text) (c : Char) :
    (takeChar wholeStore input c).escape = input.escape := by
  simp only [takeChar]
  split
  all_goals first | rfl | (split <;> rfl)

theorem decoded_state (input : PartialFileInput Text) (point : CodePoint) :
    (decoded wholeStore input point).inString = input.inString ∧
      (decoded wholeStore input point).escape = input.escape := by
  cases point with
  | char c => simp [decoded]
  | surrogate offset =>
    simp only [decoded]
    split
    · exact ⟨rfl, rfl⟩
    · split <;> simp

theorem takeChar_escaped (input : PartialFileInput Text) (escape : Option Str) (c : Char) :
    takeChar wholeStore { input with escape := escape } c =
      { takeChar wholeStore input c with escape := escape } := by
  simp only [takeChar]
  split
  all_goals first | rfl | (split <;> rfl)

theorem decoded_escaped (input : PartialFileInput Text) (escape : Option Str) (point : CodePoint) :
    decoded wholeStore { input with escape := escape } point =
      { decoded wholeStore input point with escape := escape } := by
  cases point with
  | char c => exact takeChar_escaped { input with highSurrogate := none } escape c
  | surrogate offset =>
    simp only [decoded]
    split
    · rfl
    · split
      · exact takeChar_escaped { input with highSurrogate := none } escape _
      · rfl

structure Inside (input : PartialFileInput Text) : Prop where
  inString : input.inString = true
  escape : input.escape = none

theorem Inside.decoded (inside : Inside input) (point : CodePoint) : Inside (decoded wholeStore input point) :=
  ⟨(decoded_state input point).1.trans inside.inString, (decoded_state input point).2.trans inside.escape⟩

theorem reads_plainPiece (inside : Inside input) {point : CodePoint} (quote : point ≠ .char '"')
    (slash : point ≠ .char '\\') : Reads input [point] (decoded wholeStore input point) := by
  have step : readPoint wholeStore input point = decoded wholeStore input point := by
    simp [readPoint, inside.inString, inside.escape, quote, slash]
  exact .cons (step ▸ content_decoded input point) (step ▸ .nil _)

theorem reads_escape (inString : input.inString = true) {begun : Str} (waits : input.escape = some begun)
    {point : CodePoint}
    (goesOn : (begun ++ [point]).head? = some (CodePoint.char 'u') ∧ (begun ++ [point]).length < 5) :
    Reads input [point] { input with escape := some (begun ++ [point]) } := by
  refine .single ?_ rfl
  rw [readPoint, if_pos inString, waits]
  simp only [readEscape, if_pos goesOn]

theorem reads_backslash (inside : Inside input) : Reads input [.char '\\'] { input with escape := some [] } := by
  refine .single ?_ rfl
  simp [readPoint, inside.inString, inside.escape]

theorem loadsEscape_mark {mark c : Char} (found : backslashes.lookup mark = some c) :
    loadsEscape [.char mark] = some (.char c) := by
  have each : ∀ entry ∈ backslashes, loadsEscape [.char entry.1] = some (.char entry.2) := by decide
  obtain ⟨before, after, split, -⟩ := List.lookup_eq_some_iff.mp found
  exact each (mark, c) (by rw [split]; exact List.mem_append_right _ (List.mem_cons_self ..))

theorem reads_escapeEnd (inString : input.inString = true) {begun : Str} (waits : input.escape = some begun)
    {point value : CodePoint}
    (ends : ¬((begun ++ [point]).head? = some (CodePoint.char 'u') ∧ (begun ++ [point]).length < 5))
    (loads : loadsEscape (begun ++ [point]) = some value) {unescaped : PartialFileInput Text}
    (plain : { input with escape := none } = unescaped) :
    Reads input [point] (decoded wholeStore unescaped value) := by
  subst plain
  have step : readPoint wholeStore input point = decoded wholeStore { input with escape := none } value := by
    rw [readPoint, if_pos inString, waits]
    simp only [readEscape, if_neg ends, loads]
    exact (decoded_escaped input none value).symm
  exact .cons (step ▸ content_decoded { input with escape := none } value) (step ▸ .nil _)

theorem reads_piece (inside : Inside input) {piece : StringPiece} (lawful : piece.Lawful) :
    Reads input piece.text (decoded wholeStore input piece.point) := by
  have plain : { input with escape := none } = input := by
    obtain ⟨_, _, _, _, _, _, _, _, _, _, _, _, _, escape, _⟩ := input
    obtain rfl : escape = none := inside.escape
    rfl
  have start := reads_backslash inside
  cases piece with
  | plain point =>
    cases point with
    | char c =>
      obtain ⟨quote, slash, -⟩ := lawful
      exact reads_plainPiece inside (by simpa using quote) (by simpa using slash)
    | surrogate offset => exact reads_plainPiece inside (by simp) (by simp)
  | short mark =>
    obtain ⟨c, found⟩ := Option.isSome_iff_exists.1 lawful
    have other : mark ≠ 'u' := by
      rintro rfl
      cases found
    have loads : loadsEscape ([] ++ [CodePoint.char mark]) = some (CodePoint.char c) := loadsEscape_mark found
    have last :=
      @reads_escapeEnd { input with escape := some [] } inside.inString [] rfl (.char mark) (.char c)
        (by simp [other])
      loads _ plain
    have value : (StringPiece.short mark).point = .char c := by simp [StringPiece.point, found]
    rw [value]
    exact start.append last
  | escaped digits =>
    obtain ⟨length, some_⟩ := lawful
    obtain ⟨code, found⟩ := Option.isSome_iff_exists.1 some_
    obtain ⟨a, b, c, d, rfl⟩ := List.length_eq_four.1 length
    have loads : loadsEscape ([CodePoint.char 'u', CodePoint.char a, CodePoint.char b, CodePoint.char c] ++
        [CodePoint.char d]) = some (pointOf code) := congrArg (Option.map pointOf) found
    have u := @reads_escape { input with escape := some [] } inside.inString [] rfl (.char 'u') (by simp)
    have first :=
      @reads_escape { input with escape := some [.char 'u'] } inside.inString _ rfl (.char a) (by simp)
    have second :=
      @reads_escape { input with escape := some [.char 'u', .char a] } inside.inString _ rfl (.char b) (by simp)
    have third :=
      @reads_escape { input with escape := some [.char 'u', .char a, .char b] } inside.inString _ rfl (.char c)
      (by simp)
    have last :=
      @reads_escapeEnd { input with escape := some [.char 'u', .char a, .char b, .char c] } inside.inString _ rfl
      (.char d) (pointOf code) (by simp) loads _ plain
    have value : (StringPiece.escaped [a, b, c, d]).point = pointOf code := by simp [StringPiece.point, found]
    rw [value]
    exact start.append (u.append (first.append (second.append (third.append last))))

theorem reads_pieces {pieces : List StringPiece} (lawful : ∀ piece ∈ pieces, piece.Lawful)
    (inside : Inside input) : Reads input (pieces.flatMap StringPiece.text)
      ((pieces.map StringPiece.point).foldl (decoded wholeStore) input) ∧
      Inside ((pieces.map StringPiece.point).foldl (decoded wholeStore) input) := by
  induction pieces generalizing input with
  | nil => exact ⟨.nil input, inside⟩
  | cons piece pieces ih =>
    rw [List.forall_mem_cons] at lawful
    obtain ⟨reads, inside'⟩ := ih lawful.2 (inside.decoded piece.point)
    exact ⟨(reads_piece inside lawful.1).append reads, inside'⟩

end Strings

section Characters

variable {input : PartialFileInput Text}

def takeAll (input : PartialFileInput Text) (chars : Text) :
    PartialFileInput Text := chars.foldl (takeChar wholeStore) input

theorem takeAll_pending (input : PartialFileInput Text) (pending : Option (Fin 2048)) (chars : Text) :
    takeAll { input with highSurrogate := pending } chars =
      { takeAll input chars with highSurrogate := pending } := by
  induction chars generalizing input with
  | nil => rfl
  | cons c chars ih =>
    have step : takeChar wholeStore { input with highSurrogate := pending } c =
        { takeChar wholeStore input c with highSurrogate := pending } := by
      simp only [takeChar]
      split
      all_goals first | rfl | (split <;> rfl)
    rw [takeAll, List.foldl_cons, step]
    exact ih _

theorem decodeAll_eq (input : PartialFileInput Text) (points : Str) : ∃ pending,
    points.foldl (decoded wholeStore) input =
      { takeAll input (drain input.highSurrogate points) with highSurrogate := pending } := by
  induction points generalizing input with
  | nil => exact ⟨input.highSurrogate, rfl⟩
  | cons point points ih =>
    have taken : ∀ c, ∃ pending,
        points.foldl (decoded wholeStore) (takeChar wholeStore { input with highSurrogate := none } c) =
        { takeAll input (c :: drain none points) with highSurrogate := pending } := by
      intro c
      have step : takeChar wholeStore { input with highSurrogate := none } c =
          { takeChar wholeStore input c with highSurrogate := none } := takeAll_pending input none [c]
      obtain ⟨pending, read⟩ := ih { takeChar wholeStore input c with highSurrogate := none }
      refine ⟨pending, ?_⟩
      rw [step, read, takeAll_pending]
      rfl
    cases point with
    | char c => exact taken c
    | surrogate offset =>
      cases isHigh : isHighSurrogate offset with
      | true =>
        obtain ⟨pending, read⟩ := ih { input with highSurrogate := some offset }
        exact ⟨pending, by simp [decoded, drain, isHigh, read, takeAll_pending]⟩
      | false =>
        cases waiting : input.highSurrogate with
        | none =>
          obtain ⟨pending, read⟩ := ih input
          exact ⟨pending, by simp [decoded, drain, isHigh, waiting, read]⟩
        | some high =>
          obtain ⟨pending, read⟩ := taken (pairOf high offset)
          exact ⟨pending, by simp [decoded, drain, isHigh, waiting, read]⟩

theorem pointOf_high {code : Nat} (high : isHigh code = true) :
    ∃ offset, pointOf code = .surrogate offset ∧ offset.val = code - 0xD800 ∧ isHighSurrogate offset = true := by
  simp only [isHigh, Bool.and_eq_true, decide_eq_true_eq] at high
  have bound : (code - 0xD800) % 2048 = code - 0xD800 := Nat.mod_eq_of_lt (by omega)
  refine ⟨Fin.ofNat 2048 (code - 0xD800), ?_, bound, ?_⟩
  · rw [pointOf, isHigh, if_pos (by simp only [high.1, high.2, decide_true, Bool.and_self, Bool.true_or])]
  · simp only [isHighSurrogate, Fin.val_ofNat, bound, decide_eq_true_eq]
    omega

theorem pointOf_low {code : Nat} (low : isLow code = true) :
    ∃ offset, pointOf code = .surrogate offset ∧ offset.val = code - 0xD800 ∧
      isHighSurrogate offset = false := by
  simp only [isLow, Bool.and_eq_true, decide_eq_true_eq] at low
  have bound : (code - 0xD800) % 2048 = code - 0xD800 := Nat.mod_eq_of_lt (by omega)
  refine ⟨Fin.ofNat 2048 (code - 0xD800), ?_, bound, ?_⟩
  · rw [pointOf, isLow, if_pos (by simp only [low.1, low.2, decide_true, Bool.and_self, Bool.or_true])]
  · simp only [isHighSurrogate, Fin.val_ofNat, bound, decide_eq_false_iff_not]
    omega

theorem drain_cons (pending : Option (Fin 2048)) (point : CodePoint) {rest other : Str}
    (same : ∀ pending, drain pending rest = drain pending other) :
    drain pending (point :: rest) = drain pending (point :: other) := by
  cases point with
  | char c => simp [drain, same]
  | surrogate offset =>
    simp only [drain, same]

theorem drain_pieces (pieces : List StringPiece) (pending : Option (Fin 2048)) :
    drain pending (pieces.map StringPiece.point) = drain pending (pieceValue pieces) := by
  induction pieces using pieceValue.induct generalizing pending with
  | case1 => rfl
  | case2 high low rest both ih =>
    rw [Bool.and_eq_true] at both
    obtain ⟨first, isFirst, firstCode, isHighFirst⟩ := pointOf_high both.1
    obtain ⟨second, isSecond, secondCode, isLowSecond⟩ := pointOf_low both.2
    have pair : pairOf first second = surrogatePair ((hexCode high).getD 0) ((hexCode low).getD 0) := by
      have isLowCode := both.2
      simp only [isLow, Bool.and_eq_true, decide_eq_true_eq] at isLowCode
      have offsets : (hexCode low).getD 0 - 0xD800 - 1024 = (hexCode low).getD 0 - 0xDC00 := by omega
      rw [pairOf, surrogatePair, firstCode, secondCode, offsets]
    rw [pieceValue, if_pos (by simp [both]), List.map_cons, List.map_cons, StringPiece.point,
        StringPiece.point, isFirst, isSecond]
    simp [drain, isHighFirst, isLowSecond, pair, ih]
  | case3 high low rest both ih =>
    have value : pieceValue (.escaped high :: .escaped low :: rest) =
        (StringPiece.escaped high).point :: pieceValue (.escaped low :: rest) := by
      rw [pieceValue, if_neg both, StringPiece.point]
    rw [value, List.map_cons]
    exact drain_cons pending (StringPiece.escaped high).point ih
  | case4 piece rest other ih =>
    have value : pieceValue (piece :: rest) = piece.point :: pieceValue rest := by
      cases piece with
      | plain point => rfl
      | short mark => rfl
      | escaped digits =>
        cases rest with
        | nil => rfl
        | cons next rest =>
          cases next with
          | plain point => rfl
          | short mark => rfl
          | escaped low => exact absurd rfl (other digits low rest rfl)
    rw [value, List.map_cons]
    exact drain_cons pending _ ih

theorem drain_paired {points : Str} (paired : Paired points) : drain none points = characters points := by
  induction points using characters.induct with
  | case1 => rfl
  | case2 c rest ih => rw [drain, characters, ih paired]
  | case3 high low rest ih =>
    obtain ⟨isHigh, isLow, later⟩ := paired
    have first : isHighSurrogate high = true := by simpa [isHighSurrogate] using isHigh
    have second : isHighSurrogate low = false := by simpa [isHighSurrogate] using isLow
    simp [drain, first, second, characters, ih later, pairOf]
  | case4 offset rest other ih =>
    cases rest with
    | nil => exact paired.elim
    | cons point rest =>
      cases point with
      | char c => exact paired.elim
      | surrogate low => exact absurd rfl (other low rest)

end Characters

section Roles

variable {input : PartialFileInput Text}

theorem takeAll_content (role : input.role = .content) (chars : Text) : takeAll input chars =
    { input with content := input.content ++ chars, contentChars := input.contentChars + chars.length } := by
  induction chars generalizing input with
  | nil => simp [takeAll]
  | cons c chars ih =>
    have step : takeChar wholeStore input c =
        { input with content := input.content ++ [c], contentChars := input.contentChars + 1 } := by
      simp [takeChar, role, wholeStore]
    have more := @ih { input with content := input.content ++ [c], contentChars := input.contentChars + 1 } role
    rw [takeAll, List.foldl_cons, step, ← takeAll, more]
    simp [Nat.add_assoc, Nat.add_comm 1]

theorem takeAll_skip (role : input.role = .skip) (chars : Text) : takeAll input chars = input := by
  induction chars with
  | nil => rfl
  | cons c chars ih =>
    have step : takeChar wholeStore input c = input := by simp [takeChar, role]
    rw [takeAll, List.foldl_cons, step]
    exact ih

theorem takeAll_token {limit : Nat} (role : input.role = .key ∨ input.role = .path)
    (fits : tokenLimit input.role = limit)
    (short : input.token.length ≤ limit) (chars : Text) : takeAll input chars =
      { input with
        token := (input.token ++ chars).take limit
        tokenOverflow := input.tokenOverflow || decide (limit < (input.token ++ chars).length) } := by
  induction chars generalizing input with
  | nil => simp [takeAll, List.take_of_length_le short, Nat.not_lt.2 short]
  | cons c chars ih =>
    have step : takeChar wholeStore input c =
        if input.token.length < limit then { input with token := input.token ++ [c] } else
            { input with tokenOverflow := true } := by
      rw [← fits]
      obtain key | path := role
      · simp [takeChar, key]
      · simp [takeChar, path]
    rw [takeAll, List.foldl_cons, step, ← takeAll]
    split
    next room =>
      have more :=
        @ih { input with token := input.token ++ [c] } role fits (by simpa using Nat.succ_le_of_lt room)
      rw [more]
      simp
    next full =>
      have more := @ih { input with tokenOverflow := true } role fits short
      have whole : limit ≤ input.token.length := Nat.not_lt.1 full
      have taken : (input.token ++ chars).take limit = (input.token ++ c :: chars).take limit := by
        rw [List.take_append_of_le_length whole, List.take_append_of_le_length whole]
      have beyond : limit < (input.token ++ c :: chars).length := by
        rw [List.length_append, List.length_cons]
        omega
      rw [more, ← taken]
      simp only [beyond, decide_true, Bool.or_true, Bool.true_or]

def afterString (input : PartialFileInput Text) (chars : Text) : PartialFileInput Text :=
  match stringRole input with
  | .skip => input
  | .key => { input with key := if tokenLimit .key < chars.length then [] else chars, expectKey := false }
  | .path =>
    { input with
      pathComplete := !decide (tokenLimit .path < chars.length)
      path := if tokenLimit .path < chars.length then [] else chars }
  | .content => { input with content := chars, contentChars := chars.length, contentComplete := true }

theorem inside_openString (outside : Outside input) :
    Inside (openString wholeStore input) ∧ (openString wholeStore input).highSurrogate = none := by
  unfold openString
  cases stringRole input
  all_goals exact ⟨⟨rfl, outside.escape⟩, outside.highSurrogate⟩

theorem content_closeString (input : PartialFileInput Text) : input.closeString.content = input.content := by
  obtain ⟨_, _, _, _, _, _, _, _, _, _, role, _, _, _, _⟩ := input
  cases role <;> rfl

theorem scratched_closeString (outside : Outside input) (chars : Text) (pending : Option (Fin 2048)) :
    Scratched (afterString input chars)
      (closeString { takeAll (openString wholeStore input) chars with highSurrogate := pending }) := by
  obtain ⟨inString, -, high⟩ := outside
  obtain ⟨_, _, _, _, _, _, _, _, _, _, _, _, _, _, _⟩ := input
  subst inString high
  unfold afterString openString
  cases role : stringRole _ with
  | skip =>
    rw [takeAll_skip rfl]
    exact ⟨.skip, [], false, rfl⟩
  | content =>
    rw [takeAll_content rfl]
    exact ⟨.content, [], false, by simp [closeString, wholeStore]⟩
  | key =>
    rw [takeAll_token (.inl rfl) rfl (Nat.zero_le _)]
    generalize tokenLimit .key = limit
    refine ⟨.key, chars.take limit, decide (limit < chars.length), ?_⟩
    by_cases beyond : limit < chars.length
    · simp [closeString, beyond]
    · simp [closeString, beyond, List.take_of_length_le (Nat.not_lt.1 beyond)]
  | path =>
    rw [takeAll_token (.inr rfl) rfl (Nat.zero_le _)]
    generalize tokenLimit .path = limit
    refine ⟨.path, chars.take limit, decide (limit < chars.length), ?_⟩
    by_cases beyond : limit < chars.length
    · simp [closeString, beyond]
    · simp [closeString, beyond, List.take_of_length_le (Nat.not_lt.1 beyond)]

theorem leads_string (outside : Outside input) {points : Str} {text : Str} (spells : SpellsString points text)
    (paired : stringRole input ≠ .skip → Paired points)
    (fresh : stringRole input = .content → input.content = []) :
    Leads input text (afterString input (characters points)) := by
  obtain ⟨pieces, lawful, rfl, rfl⟩ := spells
  obtain ⟨inside, waits⟩ := inside_openString outside
  have opens : Reads input [.char '"'] (openString wholeStore input) := by
    have step : readPoint wholeStore input (.char '"') = openString wholeStore input := by
      simp [readPoint, outside.inString]
    refine .cons (step ▸ ?_) (step ▸ .nil _)
    unfold openString
    cases role : stringRole input with
    | content =>
      rw [fresh role]
      exact List.nil_prefix
    | skip | key | path => exact List.prefix_rfl
  obtain ⟨reads, inside'⟩ := reads_pieces lawful inside
  have closes :
      Reads ((pieces.map StringPiece.point).foldl (decoded wholeStore) (openString wholeStore input)) [.char '"']
      (closeString
        ((pieces.map StringPiece.point).foldl (decoded wholeStore) (openString wholeStore input))) := by
    refine .single ?_ (content_closeString _)
    simp [readPoint, inside'.inString, inside'.escape]
  refine ⟨_, opens.append (reads.append closes), ?_⟩
  obtain ⟨pending, taken⟩ := decodeAll_eq (openString wholeStore input) (pieces.map StringPiece.point)
  rw [taken, waits, drain_pieces]
  by_cases skipped : stringRole input = .skip
  · have unread : ∀ chars other, Scratched (afterString input chars) other →
        Scratched (afterString input (characters (pieceValue pieces))) other := by
      intro chars other scratched
      simpa only [afterString, skipped] using scratched
    exact unread _ _ (scratched_closeString outside _ pending)
  · rw [drain_paired (paired skipped)]
    exact scratched_closeString outside _ pending

end Roles

section Values

variable {F : Type} {floats : Floats F} {input : PartialFileInput Text}

theorem Leads.refl (input : PartialFileInput Text) : Leads input [] input := ⟨input, .nil input, .rfl input⟩

theorem Leads.scratched {last other : PartialFileInput Text} {text : Str} (leads : Leads input text last)
    (scratched : Scratched other last) : Leads input text other := by
  obtain ⟨third, reads, more⟩ := leads
  exact ⟨third, reads, scratched.trans more⟩

theorem Leads.append {middle last : PartialFileInput Text} {text more : Str} (first : Leads input text middle)
    (second : ∀ other, Scratched middle other → Leads other more last) : Leads input (text ++ more) last := by
  obtain ⟨other, reads, scratched⟩ := first
  obtain ⟨third, reads', scratched'⟩ := second other scratched
  exact ⟨third, reads.append reads', scratched'⟩

theorem Leads.single {last : PartialFileInput Text} {point : CodePoint}
    (step : readPoint wholeStore input point = last)
    (keeps : last.content = input.content) : Leads input [point] last := ⟨last, .single step keeps, .rfl last⟩

theorem leads_plain (outside : Outside input) {text : Str} (plain : ∀ point ∈ text, Plain point) :
    Leads input text input :=
  ⟨input, reads_plain outside plain, .rfl input⟩

theorem plain_of_blanks {text : Str} (blanks : Blanks text) : ∀ point ∈ text, Plain point := by
  intro point mem
  obtain ⟨c, rfl, blank⟩ := blanks point mem
  simp only [isBlank, List.contains_eq_mem, List.mem_cons, List.not_mem_nil, or_false,
      decide_eq_true_eq] at blank
  obtain rfl | rfl | rfl | rfl := blank <;> simp [Plain]

theorem plain_colon : Plain (.char ':') := by simp [Plain]

theorem plain_of_number {number : Number} (lawful : number.Lawful) :
    ∀ point ∈ asStr number.text, Plain point := by
  obtain ⟨integer, fraction, exponent⟩ := lawful
  have digit : ∀ c : Char, c.isDigit = true → Plain (.char c) := by
    intro c isDigit mark special
    rintro ⟨⟩
    revert isDigit
    simp only [List.mem_cons, List.not_mem_nil, or_false] at special
    obtain rfl | rfl | rfl | rfl | rfl | rfl := special <;> decide
  have sign : ∀ c : Char, c = '-' ∨ c = '+' ∨ c = '.' ∨ c = 'e' ∨ c = 'E' → Plain (.char c) := by
    rintro c (rfl | rfl | rfl | rfl | rfl) <;> simp [Plain]
  have digits : ∀ text : Text, IsDigits text → ∀ c ∈ text, Plain (.char c) := fun _ isDigits c mem =>
    digit c (isDigits.2 c mem)
  intro point mem
  obtain ⟨c, inText, rfl⟩ := List.mem_map.1 mem
  simp only [Number.text, List.mem_append] at inText
  obtain (minus | whole) | part | power := inText
  · split at minus
    · exact sign c (.inl (List.mem_singleton.1 minus))
    · cases minus
  · exact digits _ integer.1 c whole
  · cases found : number.fraction with
    | none => simp [found] at part
    | some fractional =>
      rw [found, Option.elim_some, List.mem_cons] at part
      obtain rfl | inside := part
      · exact sign _ (by simp)
      · exact digits _ (fraction _ found) c inside
  · cases found : number.exponent with
    | none => simp [found] at power
    | some raised =>
      obtain ⟨mark, signs, power_⟩ := exponent _ found
      rw [found, Option.elim_some, Exponent.text, List.mem_cons, List.mem_append, Option.mem_toList] at power
      obtain rfl | signed | inside := power
      · exact sign _ (by simp [mark])
      · obtain rfl | rfl := signs c signed <;> exact sign _ (by simp)
      · exact digits _ power_ c inside

theorem stringRole_deep (deep : 2 ≤ input.depth) : stringRole input = .skip := by
  have other : input.depth ≠ 1 := by omega
  simp [stringRole, other]

-- Every value, as long as it is read below the top level, leaves all as it was.
def Skips (text : Str) : Prop := ∀ input : PartialFileInput Text, Outside input → 2 ≤ input.depth →
    Leads input text input

theorem Skips.append {text more : Str} (first : Skips text) (second : Skips more) : Skips (text ++ more) := by
  intro input outside deep
  refine (first input outside deep).append fun other scratched => ?_
  have again := second other (outside.scratched scratched)
  obtain ⟨_, _, _, rfl⟩ := scratched
  exact (again deep).scratched ⟨_, _, _, rfl⟩

theorem skips_plain {text : Str} (plain : ∀ point ∈ text, Plain point) : Skips text :=
  fun _ outside _ => leads_plain outside plain

theorem skips_string {points text : Str} (spells : SpellsString points text) : Skips text := by
  intro input outside deep
  have role := stringRole_deep deep
  have leads := leads_string outside spells (by simp [role]) (by simp [role])
  simpa only [afterString, role] using leads

theorem skips_comma : Skips [.char ','] := by
  intro input outside deep
  have other : input.depth ≠ 1 := by omega
  exact .single (by simp [readPoint, outside.inString, other]) rfl

theorem skips_intercalate {parts : List Str} (each : ∀ part ∈ parts, Skips part) :
    Skips ([.char ','].intercalate parts) := by
  cases parts with
  | nil => exact skips_plain (by simp)
  | cons first rest =>
    rw [intercalate_cons]
    rw [List.forall_mem_cons] at each
    refine each.1.append ?_
    obtain ⟨-, later⟩ := each
    induction rest with
    | nil => exact skips_plain (by simp)
    | cons next rest ih =>
      rw [List.forall_mem_cons] at later
      exact (skips_comma.append later.1).append (ih later.2)

theorem skips_items {α : Type} {spells : α → Str → Prop} {items : List α} {text : Str}
    (spelled : SpellsItems spells items text)
    (each : ∀ item ∈ items, ∀ part, spells item part → Skips part) : Skips text := by
  obtain ⟨-, blanks⟩ | ⟨parts, -, matched, rfl⟩ := spelled
  · exact skips_plain (plain_of_blanks blanks)
  · refine skips_intercalate ?_
    induction matched with
    | nil => simp
    | cons spelled _ ih =>
      rw [List.forall_mem_cons] at each ⊢
      exact ⟨each.1 _ spelled, ih each.2⟩

theorem leads_brackets (outside : Outside input) (below : 1 ≤ input.depth) {opening closing : Char}
    (opens : opening = '\x7b' ∨ opening = '[') (closes : closing = '\x7d' ∨ closing = ']') {inner : Str}
    (skips : Skips inner) :
    Leads input (CodePoint.char opening :: inner ++ [CodePoint.char closing]) input := by
  have deeper : input.depth + 1 ≠ 1 := by omega
  have first : Leads input [.char opening] { input with depth := input.depth + 1 } := by
    refine .single ?_ rfl
    obtain rfl | rfl := opens <;> simp [readPoint, outside.inString, deeper]
  have second : ∀ other, Scratched { input with depth := input.depth + 1 } other →
      Leads other inner { input with depth := input.depth + 1 } := by
    rintro _ ⟨role, token, tokenOverflow, rfl⟩
    have deep : 2 ≤ input.depth + 1 := by omega
    exact (skips
        { input with
          depth := input.depth + 1, role := role, token := token, tokenOverflow := tokenOverflow }
      ⟨outside.inString, outside.escape, outside.highSurrogate⟩ deep).scratched ⟨role, token, tokenOverflow, rfl⟩
  refine (first.append second).append ?_
  rintro _ ⟨role, token, tokenOverflow, rfl⟩
  have third :
      Leads { input with depth := input.depth + 1, role := role, token := token, tokenOverflow := tokenOverflow }
      [.char closing] { input with role := role, token := token, tokenOverflow := tokenOverflow } := by
    refine .single ?_ rfl
    obtain rfl | rfl := closes <;> simp [readPoint, outside.inString]
  exact third.scratched ⟨role, token, tokenOverflow, rfl⟩

theorem skips_brackets {opening closing : Char} (opens : opening = '\x7b' ∨ opening = '[')
    (closes : closing = '\x7d' ∨ closing = ']') {inner : Str} (skips : Skips inner) :
    Skips (CodePoint.char opening :: inner ++ [CodePoint.char closing]) :=
  fun _ outside deep => leads_brackets outside (by omega) opens closes skips

theorem skips_item {spells : Str → Prop} (each : ∀ body, spells body → Skips body) {text : Str}
    (spelled : SpellsItem spells text) : Skips text := by
  obtain ⟨before, body, behind, front, inner, back, rfl⟩ := spelled
  exact ((skips_plain (plain_of_blanks front)).append (each body inner)).append
      (skips_plain (plain_of_blanks back))

theorem skips_field {field : Str × (Str → Prop)} (each : ∀ body, field.2 body → Skips body) {text : Str}
    (spelled : SpellsField field text) : Skips text := by
  obtain ⟨before, key, between, body, front, named, middle, inner, rfl⟩ := spelled
  have colon : Skips (.char ':' :: body) :=
    (@skips_plain [.char ':'] (by simpa using plain_colon)).append (skips_item each inner)
  exact (((skips_plain (plain_of_blanks front)).append (skips_string named)).append
      (skips_plain (plain_of_blanks middle))).append
    colon

theorem skips_scalar {value : Scalar F} {text : Str} (spells : value.Spells floats text) : Skips text := by
  cases value with
  | null =>
    obtain rfl := spells
    exact skips_plain (by simp [asStr, Plain])
  | bool value =>
    obtain rfl := spells
    cases value <;> exact skips_plain (by simp [asStr, Plain])
  | int value =>
    obtain ⟨number, lawful, -, -, rfl⟩ := spells
    exact skips_plain (plain_of_number lawful)
  | float value =>
    obtain ⟨number, lawful, -, -, rfl⟩ := spells
    exact skips_plain (plain_of_number lawful)
  | str points => exact skips_string spells

theorem skips_mapItems {items : List (Json F)} (each : ∀ item ∈ items, ∀ text, item.Spells floats text →
    Skips text) {inner : Str}
    (spelled : SpellsItems SpellsItem (items.map (Json.Spells floats)) inner) : Skips inner := by
  refine skips_items spelled ?_
  rintro _ mem part item
  obtain ⟨json, inside, rfl⟩ := List.mem_map.1 mem
  exact skips_item (each json inside) item

theorem skips_mapFields {fields : List (Str × Json F)}
    (each : ∀ field ∈ fields, ∀ text, field.2.Spells floats text → Skips text) {inner : Str}
    (spelled : SpellsItems SpellsField (fields.map fun field => (field.1, field.2.Spells floats)) inner) :
    Skips inner := by
  refine skips_items spelled ?_
  rintro _ mem part item
  obtain ⟨field, inside, rfl⟩ := List.mem_map.1 mem
  exact skips_field (each field inside) item

theorem skips_json (json : Json F) : ∀ text, json.Spells floats text → Skips text := by
  induction json using Json.induct with
  | scalar value => exact fun _ spells => skips_scalar spells
  | array items ih =>
    intro text spells
    obtain ⟨inner, spelled, rfl⟩ := (spells_array floats).1 spells
    exact skips_brackets (.inr rfl) (.inr rfl) (skips_mapItems ih spelled)
  | object fields ih =>
    intro text spells
    obtain ⟨inner, spelled, rfl⟩ := (spells_object floats).1 spells
    exact skips_brackets (.inl rfl) (.inl rfl) (skips_mapFields ih spelled)

end Values

section TopLevel

variable {F : Type} {floats : Floats F} {input : PartialFileInput Text}

def asString : Json F → Option Str
  | .scalar (.str points) => some points
  | _ => none

def topLevel (fields : List (Str × Json F)) (name : Text) :
    Option Str := (fields.lookup (asStr name)).bind asString

def afterValue (input : PartialFileInput Text) (json : Json F) : PartialFileInput Text :=
  (asString json).elim input fun points => afterString input (characters points)
variable {other : PartialFileInput Text}

theorem stringRole_scratched (scratched : Scratched input other) : stringRole other = stringRole input := by
  obtain ⟨_, _, _, rfl⟩ := scratched
  rfl

theorem afterString_scratched (scratched : Scratched input other) (chars : Text) :
    Scratched (afterString input chars) (afterString other chars) := by
  have role := stringRole_scratched scratched
  obtain ⟨strayRole, token, tokenOverflow, rfl⟩ := scratched
  refine ⟨strayRole, token, tokenOverflow, ?_⟩
  unfold afterString
  rw [role]
  cases stringRole input <;> rfl

theorem leads_value (outside : Outside input) (top : input.depth = 1) {json : Json F} {text : Str}
    (spells : json.Spells floats text) (paired : ∀ points, asString json = some points → Paired points)
    (fresh : stringRole input = .content → input.content = []) : Leads input text (afterValue input json) := by
  have other : input.depth ≥ 1 := by omega
  cases json with
  | scalar value =>
    cases value with
    | str points => exact leads_string outside spells (fun _ => paired points rfl) fresh
    | null =>
      obtain rfl := spells
      exact leads_plain outside (by simp [asStr, Plain])
    | bool value =>
      obtain rfl := spells
      cases value <;> exact leads_plain outside (by simp [asStr, Plain])
    | int value =>
      obtain ⟨number, lawful, -, -, rfl⟩ := spells
      exact leads_plain outside (plain_of_number lawful)
    | float value =>
      obtain ⟨number, lawful, -, -, rfl⟩ := spells
      exact leads_plain outside (plain_of_number lawful)
  | array items =>
    obtain ⟨inner, spelled, rfl⟩ := (spells_array floats).1 spells
    exact leads_brackets outside other (.inr rfl) (.inr rfl)
        (skips_mapItems (fun json _ => skips_json json) spelled)
  | object fields =>
    obtain ⟨inner, spelled, rfl⟩ := (spells_object floats).1 spells
    exact leads_brackets outside other (.inl rfl) (.inl rfl)
        (skips_mapFields (fun field _ => skips_json field.2) spelled)

theorem key_eq_iff {points : Str} (paired : Paired points) {name : Text} (some_ : name ≠ [])
    (short : name.length ≤ tokenLimit .key) (basic : ∀ c ∈ name, c.toNat < 0x10000) :
    (if tokenLimit .key < (characters points).length then [] else characters points) = name ↔
      points = asStr name := by
  constructor
  · split
    · exact fun absent => absurd absent.symm some_
    · exact fun same => eq_asStr_of_characters paired same basic
  · rintro rfl
    rw [characters_asStr, if_neg (Nat.not_lt.2 short)]

def pathString (toolName : FileTool) (fields : List (Str × Json F)) : Option Str :=
  if toolName = .writeFile then topLevel fields "path".toList else none

structure Seen (toolName : FileTool) (fields : List (Str × Json F)) (input : PartialFileInput Text) : Prop where
  tool : input.toolName = toolName
  content : input.content = (topLevel fields toolName.contentKey).elim [] characters
  contentChars : input.contentChars = input.content.length
  contentComplete : input.contentComplete = (topLevel fields toolName.contentKey).isSome
  path : input.path = (pathString toolName fields).elim [] fun points =>
    if tokenLimit .path < (characters points).length then [] else characters points
  pathComplete : input.pathComplete = (pathString toolName fields).elim false fun points =>
    !decide (tokenLimit .path < (characters points).length)

structure AtTop (toolName : FileTool) (fields : List (Str × Json F)) (expectKey : Bool)
    (input : PartialFileInput Text) : Prop where
  outside : Outside input
  depth : input.depth = 1
  expectKey : input.expectKey = expectKey
  seen : Seen toolName fields input

variable {toolName : FileTool}

theorem Seen.scratched {fields : List (Str × Json F)}
    (seen : Seen toolName fields input) (scratched : Scratched input other) : Seen toolName fields other := by
  obtain ⟨_, _, _, rfl⟩ := scratched
  exact ⟨seen.tool, seen.content, seen.contentChars, seen.contentComplete, seen.path, seen.pathComplete⟩

theorem AtTop.scratched {fields : List (Str × Json F)} {expectKey : Bool}
    (atTop : AtTop toolName fields expectKey input) (scratched : Scratched input other) :
    AtTop toolName fields expectKey other := by
  refine ⟨atTop.outside.scratched scratched, ?_, ?_, atTop.seen.scratched scratched⟩ <;>
      obtain ⟨_, _, _, rfl⟩ := scratched
  · exact atTop.depth
  · exact atTop.expectKey

theorem topLevel_concat {fields : List (Str × Json F)} {field : Str × Json F}
    (absent : field.1 ∉ fields.map Prod.fst)
    (name : Text) : topLevel (fields ++ [field]) name = if field.1 = asStr name then asString field.2 else
      topLevel fields name := by
  rw [topLevel, List.lookup_append]
  obtain ⟨key, value⟩ := field
  by_cases same : key = asStr name
  · have none_ : fields.lookup (asStr name) = none := by
      rw [List.lookup_eq_none_iff]
      intro entry mem
      rw [bne_iff_ne, ← same]
      exact fun equal => absent (List.mem_map.mpr ⟨entry, mem, equal.symm⟩)
    simp [none_, same]
  · have other : (asStr name == key) = false := by simpa using fun equal => same equal.symm
    simp [List.lookup_cons, other, same, topLevel]

theorem topLevel_eq_none {fields : List (Str × Json F)} {key : Str} (absent : key ∉ fields.map Prod.fst)
    {name : Text} (same : key = asStr name) : topLevel fields name = none := by
  have none_ : fields.lookup (asStr name) = none := by
    rw [List.lookup_eq_none_iff]
    intro entry mem
    rw [bne_iff_ne, ← same]
    exact fun equal => absent (equal ▸ List.mem_map_of_mem mem)
  rw [topLevel, none_]
  rfl

theorem contentKey_spec (toolName : FileTool) : toolName.contentKey ≠ [] ∧
    toolName.contentKey.length ≤ tokenLimit .key ∧
    (∀ c ∈ toolName.contentKey, c.toNat < 0x10000) ∧ toolName.contentKey ≠ "path".toList := by
  cases toolName <;> decide

theorem seen_afterValue {fields : List (Str × Json F)} {field : Str × Json F}
    (atTop : AtTop toolName fields false input) (absent : field.1 ∉ fields.map Prod.fst)
    (paired : Paired field.1)
    (key : input.key = if tokenLimit .key < (characters field.1).length then [] else characters field.1) :
    AtTop toolName (fields ++ [field]) false (afterValue input field.2) := by
  obtain ⟨outside, depth, expectKey, tool, content, contentChars, contentComplete, path, pathComplete⟩ := atTop
  obtain ⟨some_, short, basic, other⟩ := contentKey_spec toolName
  have isContent : input.key = toolName.contentKey ↔ field.1 = asStr toolName.contentKey := by
    rw [key]
    exact key_eq_iff paired some_ short basic
  have isPath : input.key = "path".toList ↔ field.1 = asStr "path".toList := by
    rw [key]
    exact key_eq_iff paired (by decide) (by decide) (by decide)
  have role : stringRole input = if field.1 = asStr toolName.contentKey then .content
      else if field.1 = asStr "path".toList ∧ toolName = .writeFile then .path else .skip := by
    simp only [stringRole, depth, expectKey, tool, isContent, isPath, Bool.false_eq_true, and_false,
        if_false, true_and]
  have apart : ¬(field.1 = asStr toolName.contentKey ∧ field.1 = asStr "path".toList) := by
    rintro ⟨first, second⟩
    refine other (List.map_injective_iff.2 (fun _ _ same => ?_) (first.symm.trans second))
    simpa using same
  have concat := topLevel_concat absent
  cases value : asString field.2 with
  | none =>
    have unchanged : ∀ name, topLevel (fields ++ [field]) name = topLevel fields name := by
      intro name
      rw [concat, value]
      split
      next same => exact (topLevel_eq_none absent same).symm
      next => rfl
    have same : afterValue input field.2 = input := by rw [afterValue, value]; rfl
    rw [same]
    exact ⟨outside, depth, expectKey, tool,
        by rw [unchanged, content], contentChars, by rw [unchanged, contentComplete],
      by rw [pathString, unchanged, ← pathString, path], by rw [pathString, unchanged, ← pathString, pathComplete]⟩
  | some points =>
    rw [afterValue, value, Option.elim_some, afterString, role]
    by_cases named : field.1 = asStr toolName.contentKey
    · have elsewhere : field.1 ≠ asStr "path".toList := fun same => apart ⟨named, same⟩
      rw [if_pos named]
      refine ⟨⟨outside.inString, outside.escape, outside.highSurrogate⟩, depth, expectKey, tool, ?_, rfl,
          ?_, ?_, ?_⟩
      · simp [concat, named, value]
      · simp [concat, named, value]
      · simpa only [pathString, concat, if_neg elsewhere] using path
      · simpa only [pathString, concat, if_neg elsewhere] using pathComplete
    · rw [if_neg named]
      by_cases located : field.1 = asStr "path".toList ∧ toolName = .writeFile
      · rw [if_pos located]
        have paths : pathString toolName (fields ++ [field]) = some points := by
          rw [pathString, if_pos located.2, concat, if_pos located.1, value]
        refine ⟨⟨outside.inString, outside.escape, outside.highSurrogate⟩, depth, expectKey, tool, ?_,
            contentChars, ?_, ?_, ?_⟩
        · simpa only [concat, if_neg named] using content
        · simpa only [concat, if_neg named] using contentComplete
        · rw [paths, Option.elim_some]
        · rw [paths, Option.elim_some]
      · rw [if_neg located]
        have paths : pathString toolName (fields ++ [field]) = pathString toolName fields := by
          unfold pathString
          split
          next write => rw [concat, if_neg fun same => located ⟨same, write⟩]
          next => rfl
        exact ⟨outside, depth, expectKey, tool, by rw [concat, if_neg named, content], contentChars,
          by rw [concat, if_neg named, contentComplete], by rw [paths, path], by rw [paths, pathComplete]⟩

def LeadsAll (input : PartialFileInput Text) (text : Str) (last : PartialFileInput Text) : Prop :=
  ∀ other, Scratched input other → Leads other text last

theorem LeadsAll.append {middle last : PartialFileInput Text} {text more : Str}
    (first : LeadsAll input text middle)
    (second : LeadsAll middle more last) : LeadsAll input (text ++ more) last :=
  fun other scratched => (first other scratched).append second

theorem leadsAll_plain (outside : Outside input) {text : Str} (plain : ∀ point ∈ text, Plain point) :
    LeadsAll input text input :=
  fun _ scratched => (leads_plain (outside.scratched scratched) plain).scratched scratched

theorem leadsAll_key (outside : Outside input) (role : stringRole input = .key) {points text : Str}
    (spells : SpellsString points text) (paired : Paired points) : LeadsAll input text { input with
      key := if tokenLimit .key < (characters points).length then [] else characters points
      expectKey := false } := by
  intro other scratched
  have role' := (stringRole_scratched scratched).trans role
  have leads := leads_string (outside.scratched scratched) spells (fun _ => paired) (by simp [role'])
  have same := afterString_scratched scratched (characters points)
  simp only [afterString, role, role'] at leads same
  exact leads.scratched same

theorem leadsAll_value (outside : Outside input) (top : input.depth = 1) {json : Json F} {text : Str}
    (spells : json.Spells floats text) (paired : ∀ points, asString json = some points → Paired points)
    (fresh : stringRole input = .content → input.content = []) :
    LeadsAll input text (afterValue input json) := by
  intro other scratched
  have outside' := outside.scratched scratched
  have role := stringRole_scratched scratched
  have same : Scratched (afterValue input json) (afterValue other json) := by
    unfold afterValue
    cases asString json with
    | none => exact scratched
    | some points => exact afterString_scratched scratched _
  obtain ⟨_, _, _, rfl⟩ := scratched
  exact (leads_value outside' top spells paired fresh).scratched same

theorem leads_field {fields : List (Str × Json F)} {field : Str × Json F} {text : Str}
    (atTop : AtTop toolName fields true input) (absent : field.1 ∉ fields.map Prod.fst)
    (keyPaired : Paired field.1) (paired : ∀ points, asString field.2 = some points → Paired points)
    (spells : SpellsField (field.1, field.2.Spells floats) text) :
    ∃ last, Leads input text last ∧ AtTop toolName (fields ++ [field]) false last := by
  obtain ⟨before, key, between, body, front, named, middle,
      ⟨before', value, behind, front', spelled, back, rfl⟩, rfl⟩ := spells
  obtain ⟨outside, depth, expectKey, seen⟩ := atTop
  have role : stringRole input = .key := by simp [stringRole, depth, expectKey]
  have keyed := leadsAll_key outside role named keyPaired
  generalize isNamed : ({ input with
      key := if tokenLimit .key < (characters field.1).length then [] else characters field.1
      expectKey := false } : PartialFileInput Text) = middle' at keyed
  have ready : AtTop toolName fields false middle' := by
    subst isNamed
    exact ⟨⟨outside.inString, outside.escape, outside.highSurrogate⟩, depth, rfl,
      ⟨seen.tool, seen.content, seen.contentChars, seen.contentComplete, seen.path, seen.pathComplete⟩⟩
  have key' : middle'.key = if tokenLimit .key < (characters field.1).length then [] else
      characters field.1 := by
    rw [← isNamed]
  have fresh : stringRole middle' = .content → middle'.content = [] := by
    intro content
    obtain ⟨some_, short, basic, -⟩ := contentKey_spec toolName
    have same : field.1 = asStr toolName.contentKey := by
      refine (key_eq_iff keyPaired some_ short basic).1 ?_
      rw [← key']
      unfold stringRole at content
      rw [ready.expectKey, ready.seen.tool] at content
      split at content
      · cases content
      · split at content
        next here => exact here.2
        next => split at content <;> cases content
    rw [ready.seen.content, topLevel_eq_none absent same]
    rfl
  have after := seen_afterValue ready absent keyPaired key'
  have whole := (leadsAll_plain outside (plain_of_blanks front)).append (keyed.append
    ((leadsAll_plain ready.outside (plain_of_blanks middle)).append
      ((@leadsAll_plain _ ready.outside [.char ':'] (by simpa using plain_colon)).append
        ((leadsAll_plain ready.outside (plain_of_blanks front')).append
          ((leadsAll_value ready.outside ready.depth spelled paired fresh).append
            (leadsAll_plain after.outside (plain_of_blanks back)))))))
  refine ⟨_, ?_, after⟩
  simpa using whole input (.rfl input)

-- The keys are told apart, and no surrogate stands alone in them or in a string under them.
structure Readable (fields : List (Str × Json F)) : Prop where
  distinct : (fields.map Prod.fst).Nodup
  keys : ∀ field ∈ fields, Paired field.1
  strings : ∀ field ∈ fields, ∀ points, asString field.2 = some points → Paired points

theorem leads_moreFields {before fields : List (Str × Json F)} {parts : List Str}
    (atTop : AtTop toolName before false input) (readable : Readable (before ++ fields))
    (spells : List.Forall₂ (fun field part => SpellsField (field.1, field.2.Spells floats) part) fields parts) :
    ∃ last, Leads input (parts.flatMap (CodePoint.char ',' :: ·)) last ∧
      AtTop toolName (before ++ fields) false last := by
  induction spells generalizing before input with
  | nil => exact ⟨input, .refl input, by simpa using atTop⟩
  | @cons field part fields parts spelled _ ih =>
    have split : before ++ field :: fields = (before ++ [field]) ++ fields := by simp
    have comma : Reads input [.char ','] { input with expectKey := true, key := [] } := by
      refine .single ?_ rfl
      simp [readPoint, atTop.outside.inString, atTop.depth]
    have absent : field.1 ∉ before.map Prod.fst := by
      have distinct := readable.distinct
      rw [List.map_append, List.map_cons, List.nodup_append] at distinct
      exact fun mem => distinct.2.2 _ mem _ List.mem_cons_self rfl
    have mem : field ∈ before ++ field :: fields := by simp
    have expecting : AtTop toolName before true { input with expectKey := true, key := [] } :=
      ⟨⟨atTop.outside.inString, atTop.outside.escape, atTop.outside.highSurrogate⟩, atTop.depth, rfl,
        ⟨atTop.seen.tool, atTop.seen.content, atTop.seen.contentChars, atTop.seen.contentComplete,
          atTop.seen.path,
          atTop.seen.pathComplete⟩⟩
    obtain ⟨middle, ⟨other, reads, scratched⟩, atTop'⟩ :=
      leads_field expecting absent (readable.keys field mem) (readable.strings field mem) spelled
    rw [split] at readable ⊢
    obtain ⟨last, ⟨third, reads', scratched'⟩, atTop''⟩ := ih (atTop'.scratched scratched) readable
    exact ⟨last, ⟨third, by simpa using comma.append (reads.append reads'), scratched'⟩, atTop''⟩

theorem reads_document (toolName : FileTool) {fields : List (Str × Json F)} (readable : Readable fields)
    {text : Str} (spells : SpellsItem ((Json.object fields).Spells floats) text) :
    ∃ last, Reads (initial wholeStore toolName) text last ∧ Seen toolName fields last := by
  obtain ⟨before, body, behind, front, document, back, rfl⟩ := spells
  obtain ⟨inner, spelled, rfl⟩ := (spells_object floats).1 document
  have start : Outside (initial wholeStore toolName) := ⟨rfl, rfl, rfl⟩
  let opened : PartialFileInput Text := { initial wholeStore toolName with depth := 1, expectKey := true }
  have opens : Reads (initial wholeStore toolName) [.char '\x7b'] opened :=
    .single (by simp [readPoint, initial, opened]) rfl
  have empty : Seen toolName ([] : List (Str × Json F)) opened := by
    refine ⟨rfl, rfl, rfl, rfl, ?_, ?_⟩ <;> unfold pathString <;> split <;> rfl
  have atTop : AtTop toolName ([] : List (Str × Json F)) true opened := ⟨⟨rfl, rfl, rfl⟩, rfl, rfl, empty⟩
  have inside : ∃ last, Leads opened inner last ∧ Outside last ∧ Seen toolName fields last := by
    obtain ⟨none_, blanks⟩ | ⟨parts, some_, matched, rfl⟩ := spelled
    · obtain rfl := List.map_eq_nil_iff.1 none_
      exact ⟨opened, leads_plain atTop.outside (plain_of_blanks blanks), atTop.outside, empty⟩
    · rw [List.forall₂_map_left_iff] at matched
      cases matched with
      | nil => exact absurd rfl some_
      | @cons field part fields parts first later =>
        obtain ⟨middle, ⟨other, reads, scratched⟩, atTop'⟩ :=
          leads_field atTop (by simp) (readable.keys field (by simp))
          (readable.strings field (by simp)) first
        obtain ⟨last, ⟨third, reads', scratched'⟩, atTop''⟩ :=
          leads_moreFields (atTop'.scratched scratched) (by simpa using readable) later
        refine ⟨last, ⟨third, ?_, scratched'⟩, atTop''.outside, by simpa using atTop''.seen⟩
        rw [intercalate_cons]
        exact reads.append reads'
  obtain ⟨last, ⟨other, reads, scratched⟩, outside, seen⟩ := inside
  have outside' := outside.scratched scratched
  have seen' := seen.scratched scratched
  have closes : Reads other [.char '\x7d'] { other with depth := other.depth - 1 } :=
    .single (by simp [readPoint, outside'.inString]) rfl
  have outside'' : Outside { other with depth := other.depth - 1 } :=
    ⟨outside'.inString, outside'.escape, outside'.highSurrogate⟩
  refine ⟨{ other with depth := other.depth - 1 }, ?_,
    ⟨seen'.tool, seen'.content, seen'.contentChars, seen'.contentComplete, seen'.path, seen'.pathComplete⟩⟩
  have whole := (reads_plain start (plain_of_blanks front)).append
    ((opens.append (reads.append closes)).append (reads_plain outside'' (plain_of_blanks back)))
  simpa using whole

theorem feedUpTo_document (limit : Nat) (toolName : FileTool) {fields : List (Str × Json F)}
    (readable : Readable fields)
    {text : Str} (spells : SpellsItem ((Json.object fields).Spells floats) text) {fragments : List Str}
    (cut : fragments.flatten = text) :
    let start := initial (keptStore limit) toolName
    let read := fragments.foldl (feedUpTo limit) start
    ∃ value, Seen toolName fields value ∧ read.content.content = lastOf limit value.content ∧
      read.contentChars = value.contentChars ∧ read.contentComplete = value.contentComplete ∧
        read.path = value.path ∧
      read.pathComplete = value.pathComplete ∧
      ∀ before : List Str, before.flatten <+: text → ∃ shown, shown <+: value.content ∧
        (before.foldl (feedUpTo limit) start).content.content = lastOf limit shown := by
  intro start read
  obtain ⟨value, reads, seen⟩ := reads_document toolName readable spells
  have whole : read.mapContent Kept.content = value.mapContent (lastOf limit) := by
    have eq := feedAll_eq limit toolName fragments
    rwa [cut, readText, reads.foldl_eq] at eq
  refine ⟨value, seen, congrArg PartialFileInput.content whole, congrArg PartialFileInput.contentChars whole,
    congrArg PartialFileInput.contentComplete whole, congrArg PartialFileInput.path whole,
    congrArg PartialFileInput.pathComplete whole, fun before front => ?_⟩
  have part := feedAll_eq limit toolName before
  exact ⟨_, reads.content_prefix front, congrArg PartialFileInput.content part⟩

/-- The reader agrees with the document, however its text is cut, and shows a beginning of the
content all along. -/
theorem partial_file_input_agrees (floats : Floats F) (toolName : FileTool) {fields : List (Str × Json F)}
    (readable : Readable fields) {text : Str} (spells : SpellsItem ((Json.object fields).Spells floats) text)
    {fragments : List Str} (cut : fragments.flatten = text) :
    let start := initial (keptStore previewContentLimit) toolName
    let read := fragments.foldl feed start
    (∀ points, topLevel fields toolName.contentKey = some points →
      read.contentChars = (characters points).length ∧
        read.content.content = lastOf previewContentLimit (characters points) ∧ read.contentComplete = true) ∧
    (topLevel fields toolName.contentKey = none → read.content.content = []) ∧
    (toolName = .writeFile →
      (∀ points, topLevel fields "path".toList = some points → (characters points).length ≤ previewPathLimit →
        read.path = characters points ∧ read.pathComplete = true) ∧
      ((∀ points, topLevel fields "path".toList = some points → previewPathLimit < (characters points).length) →
        read.path = [])) ∧
    ∀ before : List Str, before.flatten <+: text →
      ∃ shown, shown <+: (topLevel fields toolName.contentKey).elim [] characters ∧
        (before.foldl feed start).content.content = lastOf previewContentLimit shown := by
  intro start read
  obtain ⟨value, seen, content, chars, complete, path, pathComplete, parts⟩ :=
    feedUpTo_document previewContentLimit toolName readable spells cut
  have feeds : feedUpTo previewContentLimit = feed := rfl
  rw [feeds] at content chars complete path pathComplete parts
  rw [seen.content] at content parts
  refine ⟨fun points found => ?_, fun absent => ?_,
      fun write => ⟨fun points found short => ?_, fun long => ?_⟩, parts⟩
  · rw [found, Option.elim_some] at content
    refine ⟨?_, content, ?_⟩
    · rw [chars, seen.contentChars, seen.content, found, Option.elim_some]
    · rw [complete, seen.contentComplete, found, Option.isSome_some]
  · rw [absent, Option.elim_none] at content
    exact content.trans (lastOf_nil _)
  · have located : pathString toolName fields = some points := by rw [pathString, if_pos write, found]
    have fits : ¬tokenLimit .path < (characters points).length := Nat.not_lt.2 short
    rw [path, pathComplete, seen.path, seen.pathComplete, located, Option.elim_some, Option.elim_some,
        if_neg fits,
      decide_eq_false fits]
    exact ⟨rfl, rfl⟩
  · rw [path, seen.path, pathString, if_pos write]
    cases found : topLevel fields "path".toList with
    | none => rfl
    | some points => rw [Option.elim_some, if_pos (show tokenLimit .path < _ from long points found)]

end TopLevel

def contentField (points : Str) : List (Str × Json Unit) := [(asStr "content".toList, .scalar (.str points))]

theorem spellsItem_bare {spells : Str → Prop} {body : Str} (is : spells body) : SpellsItem spells body :=
  ⟨[], body, [], by simp [Blanks], is, by simp [Blanks], by simp⟩

theorem spellsField_bare {key : Text} {spells : Str → Prop} {body : Str}
    (plain : ∀ point ∈ asStr key, (StringPiece.plain point).Lawful) (is : spells body) :
    SpellsField (asStr key, spells) ((CodePoint.char '"' :: asStr key ++ [.char '"']) ++ .char ':' :: body) :=
  ⟨[], _, [], body, by simp [Blanks], spellsString_plain plain, by simp [Blanks], spellsItem_bare is, by simp⟩

theorem spells_fields {fields : List (Str × Json Unit)} {parts : List Str} (some : parts ≠ [])
    (each : List.Forall₂
      (fun field part => SpellsField (field.1, field.2.Spells zeroFloats) part) fields parts) :
    SpellsItem ((Json.object fields).Spells zeroFloats)
      (.char '\x7b' :: [CodePoint.char ','].intercalate parts ++ [.char '\x7d']) :=
  spellsItem_bare ((spells_object zeroFloats).2
    ⟨_, .inr ⟨parts, some, List.forall₂_map_left_iff.2 each, rfl⟩, rfl⟩)

theorem spells_contentField {points : Str} (plain : ∀ point ∈ points, (StringPiece.plain point).Lawful) :
    SpellsItem ((Json.object (contentField points)).Spells zeroFloats)
      (asStr "\x7b\"content\":\"".toList ++ points ++ asStr "\"\x7d".toList) := by
  have field := @spellsField_bare "content".toList ((Json.scalar (.str points)).Spells zeroFloats) _
    (by simp [asStr, StringPiece.Lawful]) (spellsString_plain plain)
  simpa [asStr, List.intercalate, contentField] using
    @spells_fields (contentField points) _ (List.cons_ne_nil _ _) (.cons field .nil)

-- What a file is written with, a value within a list besides.
def writeFields : List (Str × Json Unit) :=
  [(asStr "path".toList, .scalar (.str (asStr "a.txt".toList))),
    (asStr "tags".toList, .array [.scalar (.bool true)]),
    (asStr "content".toList, .scalar (.str (asStr "a\nb".toList)))]

theorem spells_writeFields : SpellsItem ((Json.object writeFields).Spells zeroFloats)
    (asStr "\x7b\"path\":\"a.txt\",\"tags\":[true],\"content\":\"a\\nb\"\x7d".toList) := by
  have path := @spellsField_bare "path".toList
    ((Json.scalar (.str (asStr "a.txt".toList))).Spells zeroFloats) _ (by simp [asStr, StringPiece.Lawful])
    (spellsString_plain (by simp [asStr, StringPiece.Lawful]))
  have tags := @spellsField_bare "tags".toList ((Json.array [.scalar (.bool true)]).Spells zeroFloats) _
    (by simp [asStr, StringPiece.Lawful]) ((spells_array zeroFloats).2
      ⟨_, .inr ⟨_, by simp, .cons (spellsItem_bare rfl) .nil, rfl⟩, rfl⟩)
  have shows : ∃ c, ('n', c) ∈ backslashes := ⟨'\n', by decide⟩
  have content := @spellsField_bare "content".toList
    ((Json.scalar (.str (asStr "a\nb".toList))).Spells zeroFloats) _ (by simp [asStr, StringPiece.Lawful])
    ⟨[.plain (.char 'a'), .short 'n', .plain (.char 'b')], by simp [StringPiece.Lawful, shows], rfl, rfl⟩
  exact @spells_fields writeFields _ (List.cons_ne_nil _ _) (.cons path (.cons tags (.cons content .nil)))

/-- A short text with an escape, and its path, in three fragments. -/
theorem short_content_is_shown :
    let fragments := [asStr "\x7b\"path\":\"a.t".toList, asStr "xt\",\"tags\":[true],\"content\":\"a\\".toList,
      asStr "nb\"\x7d".toList]
    let read := fragments.foldl feed (initial (keptStore previewContentLimit) .writeFile)
    (read.contentChars = 3 ∧ read.content.content = lastOf previewContentLimit "a\nb".toList ∧
      read.contentComplete = true) ∧ read.path = "a.txt".toList ∧ read.pathComplete = true := by
  have readable : Readable writeFields :=
    ⟨by simp [writeFields, asStr], by simp [writeFields, asStr, Paired], by
      simp [writeFields, asString, asStr, Paired]⟩
  intro fragments read
  have agrees := @partial_file_input_agrees _ zeroFloats .writeFile _ readable _ spells_writeFields fragments rfl
  exact ⟨agrees.1 _ rfl, (agrees.2.2.1 rfl).1 _ rfl (by decide)⟩

/-- Two surrogates that stand in the text itself are two elements of the parsed string and one
character of the content. -/
theorem literal_pair_is_one_character :
    let points : Str := [.surrogate 61, .surrogate 1536]
    let text := asStr "\x7b\"content\":\"".toList ++ points ++ asStr "\"\x7d".toList
    Readable (contentField points) ∧ SpellsItem ((Json.object (contentField points)).Spells zeroFloats) text ∧
      points.length = 2 ∧ (feed (initial (keptStore previewContentLimit) .writeFile) text).contentChars = 1 := by
  have paired : Paired [.surrogate 61, .surrogate 1536] := ⟨by decide, by decide, trivial⟩
  refine ⟨⟨by simp [contentField], by simp [contentField, asStr, Paired], ?_⟩,
      spells_contentField (by simp [StringPiece.Lawful]),
    rfl, by decide⟩
  simpa [contentField, asString] using paired

end OpenSquilla.Previews
