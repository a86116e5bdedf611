import OpenSquilla.Shared.BoundedTail
import OpenSquilla.Shared.TextScan

set_option autoImplicit false

namespace OpenSquilla.Repetition

open BoundedTail TextLines TextScan

structure RepetitionGuardPolicy where
  maxBufferChars : Nat := 65536
  checkStrideChars : Int := 256
  minRepeatedChars : Int := 4096

structure StreamingRepetitionGuard where
  bufferChunks : List Text
  bufferChars : Nat
  normalizedChars : Nat
  nextCheck : Int
  lastWhitespace : Option Char

namespace StreamingRepetitionGuard

def fresh (policy : RepetitionGuardPolicy) : StreamingRepetitionGuard where
  bufferChunks := []
  bufferChars := 0
  normalizedChars := 0
  nextCheck := policy.checkStrideChars
  lastWhitespace := none

def reset (policy : RepetitionGuardPolicy) (_guard : StreamingRepetitionGuard) :
    StreamingRepetitionGuard := fresh policy

end StreamingRepetitionGuard

def whitespaceKind (char : Char) : Char :=
  if char = '\r' ∨ char = '\n' then '\n' else if char = '\t' then '\t' else ' '

/-- The normalized character, if it is not collapsed into the white space before it. -/
def normalize (lastWhitespace : Option Char) (char : Char) : Option Char :=
  if isSpace char then
    if lastWhitespace = some '\n' then none
    else if lastWhitespace = some (whitespaceKind char) then none
    else if whitespaceKind char = ' ' ∧ lastWhitespace ≠ none then none
    else some (whitespaceKind char)
  else some char

-- The white space that the text ends with after a character that was kept.
def whitespaceAfter (char : Char) : Option Char :=
  if isSpace char then some (whitespaceKind char) else none

section Feed

-- what the guard finds is a function of the policy and of the text in the buffer
variable {Detection : Type*} (periodic : RepetitionGuardPolicy → Text → Option Detection)
variable (policy : RepetitionGuardPolicy)

namespace StreamingRepetitionGuard

def append (guard : StreamingRepetitionGuard) (text : Text) : StreamingRepetitionGuard :=
  if text = [] then guard
  else
    let chars := guard.bufferChars + text.length
    let trimmed := trimFront (chars - policy.maxBufferChars) (guard.bufferChunks ++ [text]) chars
    { guard with bufferChunks := trimmed.1, bufferChars := trimmed.2 }

def bufferText (guard : StreamingRepetitionGuard) : StreamingRepetitionGuard × Text :=
  match guard.bufferChunks with
  | [] => (guard, [])
  | [only] => (guard, only)
  | chunks => ({ guard with bufferChunks := [chunks.flatten] }, chunks.flatten)

def detect (guard : StreamingRepetitionGuard) : StreamingRepetitionGuard × Option Detection :=
  if guard.bufferChars < policy.minRepeatedChars then (guard, none)
  else (guard.bufferText.1, periodic policy guard.bufferText.2)

def count (guard : StreamingRepetitionGuard) (char : Char) : StreamingRepetitionGuard :=
  { guard with
    lastWhitespace := whitespaceAfter char
    normalizedChars := guard.normalizedChars + 1 }

def advance (guard : StreamingRepetitionGuard) : StreamingRepetitionGuard :=
  { guard with nextCheck := guard.nextCheck + policy.checkStrideChars }

-- The loop over a delta. It returns the text accepted up to the first detection.
def feedLoop (guard : StreamingRepetitionGuard) (pending : Text) :
    Text → StreamingRepetitionGuard × Text × Option Detection
  | [] => (if pending = [] then guard else guard.append policy pending, [], none)
  | char :: rest =>
    match normalize guard.lastWhitespace char with
    | none =>
      let (guard, accepted, detection) := feedLoop guard pending rest
      (guard, char :: accepted, detection)
    | some normalized =>
      let counted := guard.count char
      if counted.normalizedChars < counted.nextCheck then
        let (guard, accepted, detection) := feedLoop counted (pending ++ [normalized]) rest
        (guard, char :: accepted, detection)
      else
        match (counted.append policy (pending ++ [normalized])).detect periodic policy with
        | (guard, some candidate) => (guard.advance policy, [char], some candidate)
        | (guard, none) =>
          let (guard, accepted, detection) := feedLoop (guard.advance policy) [] rest
          (guard, char :: accepted, detection)

def feed (guard : StreamingRepetitionGuard) (text : Text) :
    StreamingRepetitionGuard × Text × Option Detection :=
  if text = [] then (guard, text, none) else guard.feedLoop periodic policy [] text

end StreamingRepetitionGuard

end Feed

open StreamingRepetitionGuard

variable {Detection : Type*} {periodic : RepetitionGuardPolicy → Text → Option Detection}
variable {policy : RepetitionGuardPolicy}

-- What has been seen of a text segment, whatever pieces it came in.
structure Segment where
  seen : Text
  nextCheck : Int
  lastWhitespace : Option Char

section Scan

variable (periodic policy)

def Segment.count (segment : Segment) (char normalized : Char) : Segment :=
  { segment with seen := segment.seen ++ [normalized], lastWhitespace := whitespaceAfter char }

def Segment.advance (segment : Segment) : Segment :=
  { segment with nextCheck := segment.nextCheck + policy.checkStrideChars }

def detectIn (seen : Text) : Option Detection :=
  if (lastOf policy.maxBufferChars seen).length < policy.minRepeatedChars then none
  else periodic policy (lastOf policy.maxBufferChars seen)

def accept {State : Type*} (char : Char) (result : State × Text × Option Detection) :
    State × Text × Option Detection :=
  (result.1, char :: result.2.1, result.2.2)

def resume {State : Type*} (result : State × Text × Option Detection)
    (next : State → State × Text × Option Detection) : State × Text × Option Detection :=
  match result with
  | (state, accepted, some detection) => (state, accepted, some detection)
  | (state, accepted, none) => ((next state).1, accepted ++ (next state).2.1, (next state).2.2)

-- A text read character by character, up to the first detection.
def scan (segment : Segment) : Text → Segment × Text × Option Detection
  | [] => (segment, [], none)
  | char :: rest =>
    match normalize segment.lastWhitespace char with
    | none => accept char (scan segment rest)
    | some normalized =>
      let counted := segment.count char normalized
      if counted.seen.length < counted.nextCheck then accept char (scan counted rest)
      else
        match detectIn periodic policy counted.seen with
        | some candidate => (counted.advance policy, [char], some candidate)
        | none => accept char (scan (counted.advance policy) rest)

end Scan

-- The guard holds the segment, but for the characters that are still pending.
structure Buffers (policy : RepetitionGuardPolicy) (guard : StreamingRepetitionGuard) (pending : Text)
    (segment : Segment) (appended : Text) : Prop where
  split : segment.seen = appended ++ pending
  text : guard.bufferChunks.flatten = lastOf policy.maxBufferChars appended
  chars : guard.bufferChars = guard.bufferChunks.flatten.length
  counted : guard.normalizedChars = segment.seen.length
  check : guard.nextCheck = segment.nextCheck
  whitespace : guard.lastWhitespace = segment.lastWhitespace

section Buffer

variable {guard : StreamingRepetitionGuard} {pending appended : Text} {segment : Segment}

theorem Buffers.count (buffers : Buffers policy guard pending segment appended) (char normalized : Char) :
    Buffers policy (guard.count char) (pending ++ [normalized]) (segment.count char normalized) appended where
  split := by rw [Segment.count, buffers.split, List.append_assoc]
  text := buffers.text
  chars := buffers.chars
  counted := by
    rw [Segment.count, List.length_append, List.length_singleton, ← buffers.counted]
    rfl
  check := buffers.check
  whitespace := rfl

theorem Buffers.advance (buffers : Buffers policy guard pending segment appended) :
    Buffers policy (guard.advance policy) pending (segment.advance policy) appended :=
  { buffers with
    check := by rw [StreamingRepetitionGuard.advance, Segment.advance, buffers.check] }

theorem Buffers.append (buffers : Buffers policy guard pending segment appended) :
    Buffers policy (guard.append policy pending) [] segment (appended ++ pending) := by
  have whole : segment.seen = (appended ++ pending) ++ [] := by rw [List.append_nil, buffers.split]
  unfold StreamingRepetitionGuard.append
  split
  next none =>
    subst none
    exact { buffers with split := whole, text := by rw [List.append_nil, buffers.text] }
  next some =>
    have total : (guard.bufferChunks ++ [pending]).flatten.length = guard.bufferChars + pending.length := by
      rw [List.flatten_append, List.flatten_singleton, List.length_append, buffers.chars]
    obtain ⟨kept, left⟩ := trimFront_spec (guard.bufferChunks ++ [pending])
      (guard.bufferChars + pending.length - policy.maxBufferChars) (guard.bufferChars + pending.length)
      (by omega)
    have text : (trimFront (guard.bufferChars + pending.length - policy.maxBufferChars)
        (guard.bufferChunks ++ [pending]) (guard.bufferChars + pending.length)).1.flatten =
          lastOf policy.maxBufferChars (appended ++ pending) := by
      rw [kept, ← total, ← lastOf_append_lastOf, ← buffers.text, List.flatten_append,
        List.flatten_singleton, lastOf]
    exact
      { split := whole
        text := text
        chars := by
          dsimp only
          rw [left, kept, List.length_drop, total]
        counted := buffers.counted
        check := buffers.check
        whitespace := buffers.whitespace }

theorem bufferText_flatten (guard : StreamingRepetitionGuard) :
    guard.bufferText.2 = guard.bufferChunks.flatten ∧
      guard.bufferText.1.bufferChunks.flatten = guard.bufferChunks.flatten := by
  unfold StreamingRepetitionGuard.bufferText
  split
  next none => simp [none]
  next only => simp [only]
  next => simp

theorem Buffers.bufferText (buffers : Buffers policy guard [] segment appended) :
    Buffers policy guard.bufferText.1 [] segment appended := by
  unfold StreamingRepetitionGuard.bufferText
  split
  · exact buffers
  · exact buffers
  · exact
      { buffers with
        text := by rw [List.flatten_singleton, buffers.text]
        chars := by rw [List.flatten_singleton, buffers.chars] }

variable (periodic) in
theorem Buffers.detect (buffers : Buffers policy guard [] segment appended) :
    (guard.detect periodic policy).2 = detectIn periodic policy segment.seen ∧
      Buffers policy (guard.detect periodic policy).1 [] segment appended := by
  have seen : segment.seen = appended := by rw [buffers.split, List.append_nil]
  unfold StreamingRepetitionGuard.detect detectIn
  rw [buffers.chars, buffers.text, seen]
  split
  · exact ⟨rfl, buffers⟩
  · refine ⟨?_, buffers.bufferText⟩
    dsimp only
    rw [(bufferText_flatten guard).1, buffers.text]

end Buffer

section Feed

def Holds (policy : RepetitionGuardPolicy) (guard : StreamingRepetitionGuard) (segment : Segment) : Prop :=
  Buffers policy guard [] segment segment.seen

variable {guard : StreamingRepetitionGuard}

theorem Buffers.holds {appended : Text} {segment : Segment}
    (buffers : Buffers policy guard [] segment appended) : Holds policy guard segment := by
  have seen : segment.seen = appended := by rw [buffers.split, List.append_nil]
  rw [Holds, seen]
  exact buffers

theorem resume_accept {State : Type*} (char : Char) (result : State × Text × Option Detection)
    (next : State → State × Text × Option Detection) :
    resume (accept char result) next = accept char (resume result next) := by
  obtain ⟨state, accepted, detection⟩ := result
  cases detection <;> rfl

theorem scan_append (segment : Segment) (first second : Text) : scan periodic policy segment (first ++ second) =
      resume (scan periodic policy segment first) (scan periodic policy · second) := by
  induction first generalizing segment with
  | nil => rfl
  | cons char rest ih =>
    rw [List.cons_append, scan, scan]
    cases normalize segment.lastWhitespace char with
    | none =>
      dsimp only
      rw [ih, resume_accept]
    | some kept =>
      dsimp only
      split
      · rw [ih, resume_accept]
      · cases detectIn periodic policy (segment.count char kept).seen with
        | some detection => rfl
        | none =>
          dsimp only
          rw [ih, resume_accept]

theorem fresh_holds (policy : RepetitionGuardPolicy) : Holds policy (fresh policy)
      { seen := [], nextCheck := policy.checkStrideChars, lastWhitespace := none } where
  split := rfl
  text := List.drop_nil.symm
  chars := rfl
  counted := rfl
  check := rfl
  whitespace := rfl

end Feed

section Run

end Run

end OpenSquilla.Repetition
