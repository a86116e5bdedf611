import OpenSquilla.Histories.RecordedContext

set_option autoImplicit false

namespace OpenSquilla.Histories

open RaisingRuns

inductive Piece
  | plain (message : ReplayMessage)
  | batch (call : ReplayMessage) (results : List ReplayMessage)
  | outcome (message context : ReplayMessage)
  | interrupted (call : ReplayMessage) (taken : List ReplayMessage) (context : ReplayMessage)

namespace Piece

def source : Piece → List ReplayMessage
  | plain message | outcome message _ => [message]
  | batch call results => call :: results
  | interrupted call taken _ => call :: taken

def projected : Piece → List ReplayMessage
  | plain message => [message]
  | batch call results => call :: results
  | outcome _ context | interrupted _ _ context => [context]

end Piece

def resultIdsOf (messages : List ReplayMessage) : Finset String :=
  messages.foldr (fun message ids => message.toolResultIds ∪ ids) ∅

-- The user messages that hold a call's results, each at least one.
def ResultsOf (useIds : Finset String) (results : List ReplayMessage) : Prop :=
  (∀ message ∈ results, message.role = .user ∧ message.toolResultIds ≠ ∅) ∧
    resultIdsOf results = useIds

def AnsweredBy (useIds : Finset String) (after : List ReplayMessage) : Prop :=
  ∃ results rest, after = results ++ rest ∧ ResultsOf useIds results

def Taken (message : ReplayMessage) : Prop :=
  message.role = .user ∧ (message.toolResultIds ≠ ∅ ∨ message.content.isEmptyList = true)

/-- What is quoted with a call that nothing answers: user messages with results of its tools, up
to the first that holds another's result or none at all. -/
structure Interrupted (useIds : Finset String) (taken behind : List ReplayMessage) : Prop where
  unanswered : ¬AnsweredBy useIds (taken ++ behind)
  each : ∀ message ∈ taken, Taken message
  results : ∀ message ∈ taken.dropLast, message.toolResultIds ≠ ∅
  within : resultIdsOf taken.dropLast ⊆ useIds
  ends : (∃ message ∈ taken.getLast?,
      message.toolResultIds = ∅ ∨ ¬resultIdsOf taken ⊆ useIds) ∨
    ∀ message ∈ behind.head?, ¬Taken message

def Piece.Valid (quotation : Quotation) (behind : List ReplayMessage) : Piece → Prop
  | .plain message => callIds message = ∅ ∧ message.toolResultIds = ∅
  | .batch call results => callIds call ≠ ∅ ∧ ResultsOf (callIds call) results
  | .outcome message context => callIds message = ∅ ∧ message.toolResultIds ≠ ∅ ∧
    RecordedAs quotation outcomeIntroduction [message] context
  | .interrupted call taken context => callIds call ≠ ∅ ∧
    Interrupted (callIds call) taken behind ∧
    RecordedAs quotation (batchIntroduction quotation (callIds call \ resultIdsOf taken))
      (call :: taken) context

-- Each piece is valid in front of those that follow it.
def PiecesValid (quotation : Quotation) : List Piece → Prop
  | [] => True
  | piece :: later =>
    piece.Valid quotation (later.flatMap Piece.source) ∧ PiecesValid quotation later

variable {quotation : Quotation}

theorem takeBatch_append (useIds resultIds : Finset String) (messages : List ReplayMessage) :
    (takeBatch useIds resultIds messages).taken ++ (takeBatch useIds resultIds messages).rest =
      messages := by
  induction messages generalizing resultIds with
  | nil => rfl
  | cons message rest ih =>
    unfold takeBatch
    split
    next => rfl
    next =>
      split
      next => split <;> rfl
      next =>
        split
        next => rfl
        next => exact congrArg (message :: ·) (ih _)

theorem takeBatch_taken (useIds resultIds : Finset String) (messages : List ReplayMessage) :
    ∀ message ∈ (takeBatch useIds resultIds messages).taken, Taken message := by
  induction messages generalizing resultIds with
  | nil =>
    intro message mem
    cases mem
  | cons message rest ih =>
    unfold takeBatch
    split
    next =>
      intro other mem
      cases mem
    next user =>
      have user : message.role = .user := not_not.mp user
      split
      next =>
        split
        next empty =>
          intro other mem
          rw [List.mem_singleton.mp mem]
          exact ⟨user, Or.inr empty⟩
        next =>
          intro other mem
          cases mem
      next results =>
        split
        next =>
          intro other mem
          rw [List.mem_singleton.mp mem]
          exact ⟨user, Or.inl results⟩
        next =>
          intro other mem
          obtain rfl | later := List.mem_cons.mp mem
          · exact ⟨user, Or.inl results⟩
          · exact ih _ other later

theorem takeBatch_resultIds (useIds resultIds : Finset String) (messages : List ReplayMessage) :
    (takeBatch useIds resultIds messages).resultIds =
      resultIds ∪ resultIdsOf (takeBatch useIds resultIds messages).taken := by
  induction messages generalizing resultIds with
  | nil => exact (Finset.union_empty resultIds).symm
  | cons message rest ih =>
    unfold takeBatch
    split
    next => exact (Finset.union_empty resultIds).symm
    next =>
      split
      next none =>
        split
        next =>
          dsimp only [resultIdsOf, List.foldr]
          rw [none, Finset.union_empty, Finset.union_empty]
        next => exact (Finset.union_empty resultIds).symm
      next =>
        split
        next =>
          dsimp only [resultIdsOf, List.foldr]
          rw [Finset.union_empty]
        next => exact (ih _).trans (Finset.union_assoc _ _ _)

theorem takeBatch_results (useIds resultIds : Finset String) (messages : List ReplayMessage) :
    ∀ message ∈ (takeBatch useIds resultIds messages).taken.dropLast, message.toolResultIds ≠ ∅ := by
  induction messages generalizing resultIds with
  | nil => exact List.forall_mem_nil _
  | cons message rest ih =>
    unfold takeBatch
    split
    next => exact List.forall_mem_nil _
    next =>
      split
      next => split <;> exact List.forall_mem_nil _
      next results =>
        split
        next => exact List.forall_mem_nil _
        next =>
          dsimp only
          cases later : (takeBatch useIds (resultIds ∪ message.toolResultIds) rest).taken with
          | nil => exact List.forall_mem_nil _
          | cons next others =>
            rw [List.dropLast_cons_cons]
            refine List.forall_mem_cons.mpr ⟨results, ?_⟩
            rw [← later]
            exact ih _

variable {useIds resultIds : Finset String}

theorem takeBatch_within (begun : resultIds ⊆ useIds) (messages : List ReplayMessage) :
    resultIdsOf (takeBatch useIds resultIds messages).taken.dropLast ⊆ useIds := by
  induction messages generalizing resultIds with
  | nil => exact Finset.empty_subset useIds
  | cons message rest ih =>
    unfold takeBatch
    split
    next => exact Finset.empty_subset useIds
    next =>
      split
      next => split <;> exact Finset.empty_subset useIds
      next =>
        split
        next => exact Finset.empty_subset useIds
        next goes =>
          rw [not_or, not_not] at goes
          dsimp only
          have later := ih goes.2
          cases same : (takeBatch useIds (resultIds ∪ message.toolResultIds) rest).taken with
          | nil => exact Finset.empty_subset useIds
          | cons next others =>
            rw [same] at later
            rw [List.dropLast_cons_cons]
            exact Finset.union_subset (Finset.subset_union_right.trans goes.2) later

theorem takeBatch_ends (messages : List ReplayMessage) :
    (∃ message ∈ (takeBatch useIds resultIds messages).taken.getLast?,
        message.toolResultIds = ∅ ∨
          (takeBatch useIds resultIds messages).resultIds = useIds ∨
          ¬(takeBatch useIds resultIds messages).resultIds ⊆ useIds) ∨
      ∀ message ∈ (takeBatch useIds resultIds messages).rest.head?, ¬Taken message := by
  induction messages generalizing resultIds with
  | nil => exact Or.inr (by simp [takeBatch])
  | cons message rest ih =>
    unfold takeBatch
    split
    next other =>
      refine Or.inr fun next head taken => other ?_
      cases head
      exact taken.1
    next =>
      split
      next none =>
        split
        next => exact Or.inl ⟨message, rfl, Or.inl none⟩
        next full =>
          refine Or.inr fun next head taken => ?_
          cases head
          exact taken.2.elim (absurd none) full
      next =>
        split
        next ends => exact Or.inl ⟨message, rfl, Or.inr ends⟩
        next =>
          refine (@ih (resultIds ∪ message.toolResultIds)).imp_left fun found => ?_
          obtain ⟨next, last, why⟩ := found
          refine ⟨next, ?_, why⟩
          dsimp only
          rw [List.getLast?_cons, Option.mem_def.mp last]
          rfl

theorem takeBatch_answered {results : List ReplayMessage}
    (each : ∀ message ∈ results, message.role = .user ∧ message.toolResultIds ≠ ∅)
    (all : resultIds ∪ resultIdsOf results = useIds) (missing : resultIds ≠ useIds)
    (rest : List ReplayMessage) : (takeBatch useIds resultIds (results ++ rest)).resultIds = useIds := by
  induction results generalizing resultIds with
  | nil => exact absurd ((Finset.union_empty resultIds).symm.trans all) missing
  | cons message others ih =>
    obtain ⟨⟨user, some⟩, later⟩ := List.forall_mem_cons.mp each
    have parts : resultIds ∪ message.toolResultIds ∪ resultIdsOf others = useIds :=
      (Finset.union_assoc _ _ _).trans all
    rw [List.cons_append, takeBatch, if_neg (not_not.mpr user), if_neg some]
    split
    next ends => exact ends.resolve_right (not_not.mpr (parts ▸ Finset.subset_union_left))
    next goes => exact ih later parts fun whole => goes (Or.inl whole)

variable {messages : List ReplayMessage}

theorem takeBatch_complete (missing : resultIds ≠ useIds)
    (complete : (takeBatch useIds resultIds messages).resultIds = useIds) :
    ∀ message ∈ (takeBatch useIds resultIds messages).taken,
      message.role = .user ∧ message.toolResultIds ≠ ∅ := by
  induction messages generalizing resultIds with
  | nil => exact absurd complete missing
  | cons message rest ih =>
    unfold takeBatch at complete ⊢
    split at complete
    next => exact absurd complete missing
    next user =>
      have user : message.role = .user := not_not.mp user
      rw [if_neg (not_not.mpr user)]
      split at complete
      next =>
        split at complete
        next => exact absurd complete missing
        next => exact absurd complete missing
      next results =>
        rw [if_neg results]
        split at complete
        next ends =>
          rw [if_pos ends]
          exact List.forall_mem_singleton.mpr ⟨user, results⟩
        next goes =>
          rw [if_neg goes]
          rw [not_or] at goes
          exact List.forall_mem_cons.mpr ⟨⟨user, results⟩, ih goes.1 complete⟩

theorem takeBatch_interrupted {useIds : Finset String}
    (calls : useIds ≠ ∅) (incomplete : (takeBatch useIds ∅ messages).resultIds ≠ useIds) :
    Interrupted useIds (takeBatch useIds ∅ messages).taken (takeBatch useIds ∅ messages).rest where
  unanswered := by
    rw [takeBatch_append]
    intro answered
    obtain ⟨results, rest, rfl, each, all⟩ := answered
    exact incomplete
      (takeBatch_answered each ((Finset.empty_union _).trans all) (Ne.symm calls) rest)
  each := takeBatch_taken useIds ∅ messages
  results := takeBatch_results useIds ∅ messages
  within := takeBatch_within (Finset.empty_subset useIds) messages
  ends := by
    have ids := takeBatch_resultIds useIds ∅ messages
    rw [Finset.empty_union] at ids
    refine (takeBatch_ends messages).imp_left fun found => ?_
    obtain ⟨message, last, why⟩ := found
    refine ⟨message, last, why.imp_right fun why => ?_⟩
    rw [← ids]
    exact why.resolve_left incomplete

variable {message : ReplayMessage}

theorem projectNext_piece {rest appended left : List ReplayMessage} {changed : Bool}
    (ran : projectNext quotation message rest = .ok (appended, changed, left)) :
    ∃ piece : Piece, piece.Valid quotation left ∧ piece.source ++ left = message :: rest ∧
      piece.projected = appended ∧ (changed = false → piece.source = appended) := by
  unfold projectNext at ran
  split at ran
  next noCalls =>
    split at ran
    next results =>
      obtain ⟨context, quoted, ran⟩ := of_bind_ok ran
      cases ran
      refine ⟨.outcome message context,
        ⟨noCalls, results, recordedContextMessage_recorded quoted⟩, rfl, rfl, ?_⟩
      intro unchanged
      cases unchanged
    next none =>
      cases ran
      exact ⟨.plain message, ⟨noCalls, not_not.mp none⟩, rfl, rfl, fun _ => rfl⟩
  next calls =>
    have parts := takeBatch_append (callIds message) ∅ rest
    have ids := takeBatch_resultIds (callIds message) ∅ rest
    rw [Finset.empty_union] at ids
    dsimp only at ran
    split at ran
    next complete =>
      cases ran
      refine ⟨.batch message _, ⟨calls, takeBatch_complete (Ne.symm calls) complete,
        ids.symm.trans complete⟩, ?_, rfl, fun _ => rfl⟩
      exact congrArg (message :: ·) parts
    next incomplete =>
      obtain ⟨context, quoted, ran⟩ := of_bind_ok ran
      cases ran
      rw [ids] at quoted
      refine ⟨.interrupted message (takeBatch (callIds message) ∅ rest).taken context,
        ⟨calls, takeBatch_interrupted calls incomplete, recordedContextMessage_recorded quoted⟩,
        congrArg (message :: ·) parts, rfl, ?_⟩
      intro unchanged
      cases unchanged

theorem projectNext_left {rest appended left : List ReplayMessage} {changed : Bool}
    (ran : projectNext quotation message rest = .ok (appended, changed, left)) : left.length ≤ rest.length := by
  obtain ⟨piece, -, parts, -⟩ := projectNext_piece ran
  have lengths := congrArg List.length parts
  rw [List.length_append, List.length_cons] at lengths
  have some : 0 < piece.source.length := by cases piece <;> exact Nat.succ_pos _
  omega

theorem projectLoop_enough (quotation : Quotation) {turns : Nat}
    (enough : messages.length ≤ turns) : ∃ done, projectLoop quotation turns messages = some done := by
  induction turns generalizing messages with
  | zero =>
    rw [List.length_eq_zero_iff.mp (Nat.le_zero.mp enough)]
    exact ⟨_, rfl⟩
  | succ turns ih =>
    cases messages with
    | nil => exact ⟨_, rfl⟩
    | cons message rest =>
      unfold projectLoop
      cases ran : projectNext quotation message rest with
      | error raised => exact ⟨_, rfl⟩
      | ok next =>
        obtain ⟨appended, changed, left⟩ := next
        have shorter := projectNext_left ran
        rw [List.length_cons] at enough
        obtain ⟨done, later⟩ := ih (show left.length ≤ turns by omega)
        dsimp only
        rw [later]
        exact ⟨_, rfl⟩

theorem projectLoop_pieces {turns : Nat} {messages projected : List ReplayMessage} {changed : Bool}
    (ran : projectLoop quotation turns messages = some (.ok (projected, changed))) :
    ∃ pieces : List Piece, PiecesValid quotation pieces ∧
      pieces.flatMap Piece.source = messages ∧ pieces.flatMap Piece.projected = projected ∧
      (changed = false → projected = messages) := by
  induction turns generalizing messages projected changed with
  | zero =>
    cases messages with
    | nil =>
      cases ran
      exact ⟨[], trivial, rfl, rfl, fun _ => rfl⟩
    | cons => cases ran
  | succ turns ih =>
    cases messages with
    | nil =>
      cases ran
      exact ⟨[], trivial, rfl, rfl, fun _ => rfl⟩
    | cons message rest =>
      unfold projectLoop at ran
      cases first : projectNext quotation message rest with
      | error raised =>
        rw [first] at ran
        cases ran
      | ok next =>
        obtain ⟨appended, changedHere, left⟩ := next
        rw [first] at ran
        obtain ⟨done, later, ran⟩ := Option.map_eq_some_iff.mp ran
        obtain ⟨⟨others, changedLater⟩, rfl, ran⟩ := of_map_ok ran
        cases ran
        obtain ⟨piece, valid, parts, rfl, same⟩ := projectNext_piece first
        obtain ⟨pieces, each, sources, rfl, unchanged⟩ := ih later
        refine ⟨piece :: pieces, ⟨sources.symm ▸ valid, each⟩, ?_, rfl, ?_⟩
        · rw [List.flatMap_cons, sources, parts]
        · intro neither
          obtain ⟨here, there⟩ := Bool.or_eq_false_iff.mp neither
          rw [← parts, ← unchanged there, same here]

/-- Each call of an assistant is followed by user messages that hold the results of all its
tools and no others. -/
def CallsAnswered (messages : List ReplayMessage) : Prop :=
  ∀ before call after, messages = before ++ call :: after → callIds call ≠ ∅ →
    ∃ results rest, after = results ++ rest ∧ (∀ message ∈ results, message.role = .user) ∧
      resultIdsOf results = callIds call

theorem callIds_of_user (user : message.role = .user) : callIds message = ∅ := by
  unfold callIds
  rw [user]
  rfl

theorem callsAnswered_append {first rest : List ReplayMessage}
    (answered : ∀ before call after, first = before ++ call :: after → callIds call ≠ ∅ →
      ∃ results later, after = results ++ later ∧ (∀ message ∈ results, message.role = .user) ∧
        resultIdsOf results = callIds call) (others : CallsAnswered rest) :
    CallsAnswered (first ++ rest) := by
  intro before call after here calls
  obtain ⟨between, shorter, longer⟩ | ⟨between, longer, shorter⟩ :=
    List.append_eq_append_iff.mp here
  · exact others between call after longer calls
  · cases between with
    | nil =>
      rw [List.nil_append] at shorter
      exact others [] call after shorter.symm calls
    | cons other more =>
      rw [List.cons_append] at shorter
      obtain ⟨rfl, rfl⟩ := List.cons.inj shorter
      obtain ⟨results, later, parts, users, complete⟩ := answered before call more longer calls
      refine ⟨results, later ++ rest, ?_, users, complete⟩
      rw [parts, List.append_assoc]

theorem callsAnswered_of_pieces {pieces : List Piece} (each : PiecesValid quotation pieces) :
    CallsAnswered (pieces.flatMap Piece.projected) := by
  induction pieces with
  | nil =>
    intro before call after here
    exact absurd here (by simp)
  | cons piece rest ih =>
    obtain ⟨valid, later⟩ := each
    rw [List.flatMap_cons]
    apply callsAnswered_append _ (ih later)
    intro before call after here calls
    have noCall : ∀ message : ReplayMessage, callIds message = ∅ →
        [message] = before ++ call :: after → False := by
      intro message none alone
      have mem : call ∈ [message] := alone ▸ List.mem_append_right before List.mem_cons_self
      rw [List.mem_singleton.mp mem] at calls
      exact calls none
    cases piece with
    | plain message => exact (noCall message valid.1 here).elim
    | outcome message context =>
      obtain ⟨-, -, media, records, written, -, -, rfl⟩ := valid
      exact (noCall _ (callIds_of_user rfl) here).elim
    | interrupted message taken context =>
      obtain ⟨-, -, media, records, written, -, -, rfl⟩ := valid
      exact (noCall _ (callIds_of_user rfl) here).elim
    | batch first results =>
      obtain ⟨-, users, complete⟩ := valid
      cases before with
      | nil =>
        obtain ⟨rfl, rfl⟩ := List.cons.inj here
        exact ⟨results, [], (List.append_nil results).symm,
          fun message mem => (users message mem).1, complete⟩
      | cons other more =>
        obtain ⟨-, here⟩ := List.cons.inj here
        have mem : call ∈ results := here ▸ List.mem_append_right more List.mem_cons_self
        exact absurd (callIds_of_user (users call mem).1) calls

-- The item's type can be hashed, and it is a valid media block when it says that it is one.
def QuotableItem (quotation : Quotation) (item : JsonValue) : Prop :=
  ∃ type, mediaTypeOf item = .ok type ∧
    ∀ type' ∈ type, (quotation.validateMedia type' item).isSome

structure Quotable (quotation : Quotation) (messages : List ReplayMessage) : Prop where
  items : ∀ message ∈ messages, ∀ toolUseId items isError executionStatus,
    ReplayBlock.toolResult toolUseId (.items items) isError executionStatus ∈ message.content.list →
      ∀ item ∈ items, QuotableItem quotation item
  writable : ∀ part, part <:+: messages → ∀ media records, Quotes quotation part media records →
    (quotation.dumps records).isSome

section Quotable

variable (quotation)

theorem recordItems_total {items : List JsonValue}
    (valid : ∀ item ∈ items, QuotableItem quotation item) (media : List MediaBlock) :
    ∃ recorded, recordItems quotation media items = .ok recorded := by
  induction items generalizing media with
  | nil => exact ⟨_, rfl⟩
  | cons item rest ih =>
    rw [List.forall_mem_cons] at valid
    have first : ∃ recorded, recordItem quotation media item = .ok recorded := by
      obtain ⟨type, hashed, validates⟩ := valid.1
      unfold recordItem
      rw [hashed]
      cases type with
      | none => exact ⟨_, rfl⟩
      | some type =>
        obtain ⟨block, validated⟩ := Option.isSome_iff_exists.mp (validates type rfl)
        dsimp only
        rw [validated]
        exact ⟨_, rfl⟩
    obtain ⟨⟨between, one⟩, recorded⟩ := first
    obtain ⟨⟨after, others⟩, more⟩ := ih valid.2 between
    unfold recordItems
    rw [recorded]
    dsimp only [bind, Except.bind]
    rw [more]
    exact ⟨_, rfl⟩

theorem recordBlocks_total {blocks : List ReplayBlock} (valid : ∀ toolUseId items isError executionStatus,
      ReplayBlock.toolResult toolUseId (.items items) isError executionStatus ∈ blocks →
        ∀ item ∈ items, QuotableItem quotation item)
    (media : List MediaBlock) : ∃ recorded, recordBlocks quotation media blocks = .ok recorded := by
  induction blocks generalizing media with
  | nil => exact ⟨_, rfl⟩
  | cons block rest ih =>
    have later := ih fun toolUseId items isError executionStatus mem =>
      valid toolUseId items isError executionStatus (List.mem_cons_of_mem block mem)
    unfold recordBlocks
    split
    next => exact later media
    next =>
      have first : ∃ recorded, recordBlock quotation media block = .ok recorded := by
        cases block with
        | toolResult toolUseId content isError executionStatus =>
          cases content with
          | text => exact ⟨_, rfl⟩
          | items items =>
            obtain ⟨recorded, ran⟩ := recordItems_total quotation
              (valid toolUseId items isError executionStatus List.mem_cons_self) media
            unfold recordBlock
            dsimp only
            rw [ran]
            exact ⟨_, rfl⟩
        | _ => exact ⟨_, rfl⟩
      obtain ⟨⟨between, one⟩, recorded⟩ := first
      obtain ⟨⟨after, others⟩, more⟩ := later between
      rw [recorded]
      dsimp only [bind, Except.bind]
      rw [more]
      exact ⟨_, rfl⟩

theorem recordMessages_total (valid : ∀ message ∈ messages, ∀ toolUseId items isError executionStatus,
      ReplayBlock.toolResult toolUseId (.items items) isError executionStatus ∈
        message.content.list → ∀ item ∈ items, QuotableItem quotation item)
    (media : List MediaBlock) :
    ∃ recorded, recordMessages quotation media messages = .ok recorded := by
  induction messages generalizing media with
  | nil => exact ⟨_, rfl⟩
  | cons message rest ih =>
    rw [List.forall_mem_cons] at valid
    obtain ⟨here, later⟩ := valid
    have first : ∃ recorded, recordContent quotation media message.content = .ok recorded := by
      unfold recordContent
      split
      next => exact ⟨_, rfl⟩
      next blocks same =>
        rw [same] at here
        change ∀ toolUseId items isError executionStatus, _ ∈ blocks → _ at here
        obtain ⟨recorded, ran⟩ := recordBlocks_total quotation here media
        rw [ran]
        exact ⟨_, rfl⟩
    obtain ⟨⟨between, one⟩, recorded⟩ := first
    obtain ⟨⟨after, others⟩, more⟩ := ih later between
    unfold recordMessages
    rw [recorded]
    dsimp only [bind, Except.bind]
    rw [more]
    exact ⟨_, rfl⟩

theorem recordedContextMessage_total {messages part : List ReplayMessage}
    (quotable : Quotable quotation messages) (inside : part <:+: messages) (introduction : String) :
    ∃ context, recordedContextMessage quotation part introduction = .ok context := by
  obtain ⟨⟨media, records⟩, ran⟩ := recordMessages_total quotation
    (fun message mem => quotable.items message (inside.subset mem)) []
  obtain ⟨each, added⟩ := recordMessages_recorded ran
  obtain ⟨written, dumped⟩ := Option.isSome_iff_exists.mp
    (quotable.writable part inside media records ⟨each, added.media, added.references⟩)
  unfold recordedContextMessage
  rw [ran]
  dsimp only [bind, Except.bind]
  rw [dumped]
  exact ⟨_, rfl⟩

theorem Quotable.of_suffix {messages rest : List ReplayMessage}
    (quotable : Quotable quotation messages) (suffix : rest <:+ messages) : Quotable quotation rest where
  items message mem := quotable.items message (suffix.subset mem)
  writable part inside := quotable.writable part (inside.trans suffix.isInfix)

theorem projectNext_total {rest : List ReplayMessage} (quotable : Quotable quotation (message :: rest)) :
    ∃ next, projectNext quotation message rest = .ok next := by
  unfold projectNext
  split
  next =>
    split
    next =>
      obtain ⟨context, ran⟩ := recordedContextMessage_total quotation quotable
        (List.prefix_append [message] rest).isInfix outcomeIntroduction
      rw [ran]
      exact ⟨_, rfl⟩
    next => exact ⟨_, rfl⟩
  next =>
    dsimp only
    split
    next => exact ⟨_, rfl⟩
    next =>
      have inside : message :: (takeBatch (callIds message) ∅ rest).taken <+: message :: rest :=
        ⟨_, congrArg (message :: ·) (takeBatch_append (callIds message) ∅ rest)⟩
      obtain ⟨context, ran⟩ := recordedContextMessage_total quotation quotable inside.isInfix
        (batchIntroduction quotation (callIds message \ (takeBatch (callIds message) ∅ rest).resultIds))
      rw [ran]
      exact ⟨_, rfl⟩

theorem projectLoop_total {turns : Nat} (quotable : Quotable quotation messages) :
    ∀ raised, projectLoop quotation turns messages ≠ some (.error raised) := by
  induction turns generalizing messages with
  | zero =>
    intro raised ran
    cases messages with
    | nil => cases ran
    | cons => cases ran
  | succ turns ih =>
    intro raised ran
    cases messages with
    | nil => cases ran
    | cons message rest =>
      obtain ⟨⟨appended, changed, left⟩, first⟩ := projectNext_total quotation quotable
      obtain ⟨piece, -, parts, -⟩ := projectNext_piece first
      unfold projectLoop at ran
      rw [first] at ran
      obtain ⟨done, later, ran⟩ := Option.map_eq_some_iff.mp ran
      cases done with
      | ok value => cases ran
      | error problem =>
        exact ih (quotable.of_suffix quotation ⟨piece.source, parts⟩) problem later

end Quotable

/-- The projection always ends; what it returns is the input cut into pieces of which the
interrupted ones are quoted, and each call left in it is answered. -/
theorem project_keeps_evidence (quotation : Quotation) (messages : List ReplayMessage) :
    ∃ done, projectIncompleteToolHistory quotation messages = some done ∧
      (Quotable quotation messages → ∃ projected, done = .ok projected) ∧
      ∀ projected, done = .ok projected →
        CallsAnswered projected ∧
          ∃ pieces : List Piece, PiecesValid quotation pieces ∧
            pieces.flatMap Piece.source = messages ∧ pieces.flatMap Piece.projected = projected := by
  obtain ⟨loop, ran⟩ := projectLoop_enough quotation (Nat.le_refl messages.length)
  refine ⟨_, by unfold projectIncompleteToolHistory; rw [ran]; rfl, ?_, ?_⟩
  · intro quotable
    cases loop with
    | error raised => exact absurd ran (projectLoop_total quotation quotable raised)
    | ok value => exact ⟨_, rfl⟩
  · intro projected returned
    obtain ⟨⟨whole, changed⟩, rfl, returned⟩ := of_map_ok returned
    obtain ⟨pieces, each, sources, built, unchanged⟩ := projectLoop_pieces ran
    have returned : (if changed then whole else messages) = projected := Except.ok.inj returned
    have same : whole = projected := by
      cases changed with
      | true => exact returned
      | false => exact (unchanged rfl).trans returned
    rw [same] at built
    exact ⟨built ▸ callsAnswered_of_pieces each, pieces, each, sources, built⟩

def ReplayMessage.toolBlocks (message : ReplayMessage) : List ReplayBlock :=
  message.content.list.filter ReplayBlock.isTool

-- the empty container of an unfinished call is quoted with it
theorem project_drops_empty_container : ¬∀ (quotation : Quotation) (messages projected : List ReplayMessage),
      projectIncompleteToolHistory quotation messages = some (.ok projected) →
        ∀ message ∈ messages, message.toolBlocks = [] → message ∈ projected := by
  intro kept
  have context := kept ⟨fun _ => some "", fun _ => "", fun _ _ => none⟩
    [⟨.assistant, .blocks [.toolUse "c1" "exec" (.object [])]⟩, ⟨.user, .blocks []⟩] _ rfl
    ⟨.user, .blocks []⟩ (List.mem_cons_of_mem _ List.mem_cons_self) rfl
  cases List.mem_singleton.mp context

end OpenSquilla.Histories
