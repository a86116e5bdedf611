import OpenSquilla.ToolStreams.Lifecycle

set_option autoImplicit false

namespace OpenSquilla.ToolStreams

open TextLines ToolStreamAccumulator RaisingRuns

variable {Key Value Arguments : Type} [DecidableEq Key]

inductive ToolOp (Key Value Arguments : Type)
  | start (key : Key) (toolUseId toolName : Text)
  | appendOrStart (key : Key) (toolCallId : Option Text) (toolName fragment random : Text)
  | append (key : Key) (fragment : Text)
  | setMetadata (key : Key) (name : Text) (value : Value)
  | finishWithArguments (key : Key) (arguments : Arguments)

def ToolOp.key : ToolOp Key Value Arguments → Key
  | .start key _ _ => key
  | .appendOrStart key _ _ _ _ => key
  | .append key _ => key
  | .setMetadata key _ _ => key
  | .finishWithArguments key _ => key

def ToolOp.fragment : ToolOp Key Value Arguments → Text
  | .appendOrStart _ _ _ fragment _ => fragment
  | .append _ fragment => fragment
  | _ => []

def step (dumps : Arguments → Option Text) (acc : ToolStreamAccumulator Key Value) :
    ToolOp Key Value Arguments →
      Raised Key (ToolStreamAccumulator Key Value × List (StreamEvent Arguments))
  | .start key toolUseId toolName => acc.start key toolUseId toolName
  | .appendOrStart key toolCallId toolName fragment random =>
    acc.appendOrStart key toolCallId toolName fragment random
  | .append key fragment => acc.append key fragment
  | .setMetadata key name value => (acc.setMetadata key name value).map (·, [])
  | .finishWithArguments key arguments => acc.finishWithArguments dumps key arguments

section Step

variable {limits : ToolStreamLimits} {acc acc' : ToolStreamAccumulator Key Value} {key : Key}
variable {events : Key → List (StreamEvent Arguments)} {fed : Key → Text}
variable {emitted : List (StreamEvent Arguments)}

omit [DecidableEq Key] in
theorem addAt_nil {α : Type} [DecidableEq Key] (key : Key) (history : Key → List α) :
    addAt key [] history = history := by
  funext other
  simp [addAt]

theorem addAt_append {α : Type} (key : Key) (first second : List α) (history : Key → List α) :
    addAt key second (addAt key first history) = addAt key (first ++ second) history := by
  funext other
  by_cases same : other = key <;> simp [addAt, same]

theorem isOpen_of_rejectClosed {operation : Operation} {done : Unit}
    (ran : acc.rejectClosedMutation operation key = .ok done) : key ∉ acc.closed := by
  unfold rejectClosedMutation at ran
  split at ran
  · cases ran
  next isOpen => exact isOpen

omit [DecidableEq Key] in
theorem knownCall_ok [DecidableEq Key] {operation : Operation} {call : PendingToolCall Value}
    (ran : acc.knownCall operation key = .ok call) : acc.calls.get? key = some call := by
  unfold knownCall at ran
  split at ran
  · cases ran
  next found =>
    cases ran
    exact found

theorem start_inv {toolUseId toolName : Text} (inv : Inv limits acc events fed)
    (ran : acc.start key toolUseId toolName = .ok (acc', emitted)) :
    Inv limits acc' (addAt key emitted events) fed := by
  obtain ⟨_, rejected, ran⟩ := of_bind_ok ran
  obtain ⟨_, -, ran⟩ := of_bind_ok ran
  obtain ⟨⟨opened, call⟩, opening, ran⟩ := of_bind_ok ran
  have inHand : At limits opened key call events fed := by
    unfold identify at opening
    split at opening
    next missing => exact openCall_at inv missing opening
    next known found =>
      obtain ⟨⟨filled, named⟩, filling, merging⟩ := of_bind_ok opening
      exact mergeToolName_at (fillToolUseId_at ⟨inv, found, isOpen_of_rejectClosed rejected⟩ filling) merging
  cases ran
  exact (emitStartIfReady_at inHand rfl).inv

theorem appendOrStart_inv {toolCallId : Option Text} {toolName fragment random : Text}
    (inv : Inv limits acc events fed)
    (ran : acc.appendOrStart key toolCallId toolName fragment random = .ok (acc', emitted)) :
    Inv limits acc' (addAt key emitted events) (addAt key fragment fed) := by
  obtain ⟨_, rejected, ran⟩ := of_bind_ok ran
  obtain ⟨_, -, ran⟩ := of_bind_ok ran
  obtain ⟨⟨opened, call⟩, opening, ran⟩ := of_bind_ok ran
  have inHand : At limits opened key call events fed := by
    unfold identifyChunk at opening
    dsimp only at opening
    split at opening
    next missing => exact openCall_at inv missing opening
    next known found =>
      obtain ⟨⟨wired, same⟩, wiring, merging⟩ := of_bind_ok opening
      exact mergeToolName_at (adoptWireId_at ⟨inv, found, isOpen_of_rejectClosed rejected⟩ wiring) merging
  obtain ⟨begun, startedCall, first, starting⟩ : ∃ begun startedCall, ∃ first : List (StreamEvent Arguments),
      opened.emitStartIfReady key call = (begun, startedCall, first) := ⟨_, _, _, rfl⟩
  have started := emitStartIfReady_at inHand starting
  dsimp only at ran
  rw [starting] at ran
  dsimp only at ran
  split at ran
  next nothing =>
    cases ran
    rw [nothing, addAt_nil]
    exact started.inv
  next =>
    obtain ⟨⟨fedAcc, later⟩, feeding, ran⟩ := of_bind_ok ran
    cases ran
    rw [← addAt_append]
    exact feedFragment_inv started feeding

theorem append_inv {fragment : Text} (inv : Inv limits acc events fed)
    (ran : acc.append key fragment = .ok (acc', emitted)) :
    Inv limits acc' (addAt key emitted events) (addAt key fragment fed) := by
  obtain ⟨_, rejected, ran⟩ := of_bind_ok ran
  obtain ⟨call, known, ran⟩ := of_bind_ok ran
  exact feedFragment_inv ⟨inv, knownCall_ok known, isOpen_of_rejectClosed rejected⟩ ran

theorem setMetadata_inv {name : Text} {value : Value} (inv : Inv limits acc events fed)
    (ran : acc.setMetadata key name value = .ok acc') : Inv limits acc' events fed := by
  obtain ⟨_, rejected, ran⟩ := of_bind_ok ran
  obtain ⟨call, known, ran⟩ := of_bind_ok ran
  cases ran
  have inHand : At limits acc key call events fed :=
    ⟨inv, knownCall_ok known, isOpen_of_rejectClosed rejected⟩
  have kept : At limits (acc.put key { call with metadata := call.metadata.set name value }) key
      { call with metadata := call.metadata.set name value } events fed :=
    inHand.rewritten rfl rfl rfl (fun _ => ⟨rfl, rfl⟩) (fun _ _ known => known)
      (inv.identity key call inHand.found) rfl
  exact kept.inv

theorem finishWithArguments_inv {dumps : Arguments → Option Text} {arguments : Arguments}
    (inv : Inv limits acc events fed)
    (ran : acc.finishWithArguments dumps key arguments = .ok (acc', emitted)) :
    Inv limits acc' (addAt key emitted events) fed := by
  obtain ⟨call, known, ran⟩ := of_bind_ok ran
  have found := knownCall_ok known
  have own := inv.call key call found
  split at ran
  next closed =>
    cases ran
    rwa [addAt_nil]
  next isOpen =>
    split at ran
    · cases ran
    next started =>
      rw [Bool.not_eq_true', Bool.not_eq_false] at started
      split at ran
      · cases ran
      next canonicalArguments canonical =>
        dsimp only at ran
        split at ran
        · cases ran
        · split at ran
          · cases ran
          next withinTotal =>
            obtain ⟨counted, event, ran⟩ := of_bind_ok ran
            cases ran
            obtain ⟨rfl, within⟩ := reserveEvent_ok event
            refine inv.store
              { call with argumentChars := max call.argumentChars canonicalArguments.length } ?_
              (fun other apart => ⟨if_neg apart, rfl⟩)
              ⟨own.parts, ?_, fun _ => own.identified started, fun _ => ?_⟩
            · have card : (insert key acc.closed).card = acc.closed.card + 1 :=
                Finset.card_insert_of_notMem isOpen
              exact
                { calls := rfl
                  limits := rfl
                  closed := fun other apart => by simp [put, apart]
                  known := fun _ _ known => known
                  named := inv.identity key call found
                  pendingEvents := by
                    rw [found, Option.elim_some]
                    rfl
                  pendingChars := by
                    rw [found, Option.elim_some]
                    rfl
                  arguments := by
                    rw [found, Option.elim_some]
                    dsimp only [put]
                    omega
                  argumentLimit := Nat.le_of_not_lt withinTotal
                  counted := by
                    rw [found, Option.elim_some]
                    dsimp only [put, heldEvents]
                    omega
                  eventLimit := within }
            · intro waits
              rw [started] at waits
              cases waits
            · have before := streamed_open isOpen (own.streamed started)
              refine ⟨[.toolUseEnd call.toolUseId call.toolName arguments], ?_,
                .inr ⟨Finset.mem_insert_self key acc.closed, arguments, rfl⟩⟩
              rw [addAt, if_pos rfl, before]

theorem step_inv {dumps : Arguments → Option Text} {op : ToolOp Key Value Arguments}
    (inv : Inv limits acc events fed) (ran : step dumps acc op = .ok (acc', emitted)) :
    Inv limits acc' (addAt op.key emitted events) (addAt op.key op.fragment fed) := by
  cases op with
  | start key toolUseId toolName =>
    have kept : Inv limits acc' (addAt key emitted events) (addAt key [] fed) := by
      rw [addAt_nil key fed]
      exact start_inv inv ran
    exact kept
  | appendOrStart key toolCallId toolName fragment random => exact appendOrStart_inv inv ran
  | append key fragment => exact append_inv inv ran
  | setMetadata key name value =>
    rw [step] at ran
    cases set : acc.setMetadata key name value with
    | error raised =>
      rw [set] at ran
      cases ran
    | ok changed =>
      rw [set] at ran
      cases ran
      have kept : Inv limits acc' (addAt key [] events) (addAt key [] fed) := by
        rw [addAt_nil key fed, addAt_nil key events]
        exact setMetadata_inv inv set
      exact kept
  | finishWithArguments key arguments =>
    have kept : Inv limits acc' (addAt key emitted events) (addAt key [] fed) := by
      rw [addAt_nil key fed]
      exact finishWithArguments_inv inv ran
    exact kept

end Step

section Run

abbrev Trace (Key Value Arguments : Type) :=
  List (ToolOp Key Value Arguments × List (StreamEvent Arguments))

def eventsOf (trace : Trace Key Value Arguments) (key : Key) : List (StreamEvent Arguments) :=
  trace.flatMap (fun entry => if key = entry.1.key then entry.2 else [])

def fedTo (ops : List (ToolOp Key Value Arguments)) (key : Key) : Text :=
  ops.flatMap (fun op => if key = op.key then op.fragment else [])

def StreamEvent.toolUseId : StreamEvent Arguments → Text
  | .toolUseStart toolUseId _ => toolUseId
  | .toolUseDelta toolUseId _ => toolUseId
  | .toolUseEnd toolUseId _ _ => toolUseId

/-- One Start, Deltas and at most one End, all of one id, whose fragments are the fed text. -/
def Assembles (events : List (StreamEvent Arguments)) (fed : Text) : Prop :=
  events = [] ∨ ∃ (toolUseId toolName : Text) (fragments : List Text) (ending : List (StreamEvent Arguments)),
    events = .toolUseStart toolUseId toolName :: fragments.map (.toolUseDelta toolUseId) ++ ending ∧
      (ending = [] ∨ ∃ arguments, ending = [.toolUseEnd toolUseId toolName arguments]) ∧
      fragments.flatten = fed

variable {limits : ToolStreamLimits} {acc : ToolStreamAccumulator Key Value}
variable {events : Key → List (StreamEvent Arguments)} {fed : Key → Text}

theorem fresh_inv (limits : ToolStreamLimits) : Inv limits (fresh limits : ToolStreamAccumulator Key Value)
      (fun _ => ([] : List (StreamEvent Arguments))) (fun _ => []) where
  unknown _ _ := ⟨Finset.notMem_empty _, rfl, rfl⟩
  call _ _ found := by cases found
  identity _ _ found := by cases found
  pendingEvents := rfl
  pendingChars := rfl
  arguments := rfl
  argumentLimit := Nat.zero_le _
  limited := rfl
  counted := rfl
  eventLimit := Nat.zero_le _

theorem eventsOf_append (trace : Trace Key Value Arguments) (op : ToolOp Key Value Arguments)
    (emitted : List (StreamEvent Arguments)) :
    eventsOf (trace ++ [(op, emitted)]) = addAt op.key emitted (eventsOf trace) := by
  funext other
  by_cases same : other = op.key <;> simp [eventsOf, addAt, same]

theorem fedTo_append (ops : List (ToolOp Key Value Arguments)) (op : ToolOp Key Value Arguments) :
    fedTo (ops ++ [op]) = addAt op.key op.fragment (fedTo ops) := by
  funext other
  by_cases same : other = op.key <;> simp [fedTo, addAt, same]

theorem run_inv {dumps : Arguments → Option Text} {ops : List (ToolOp Key Value Arguments)}
    {trace : Trace Key Value Arguments} (ran : runAll (step dumps) (fresh limits) ops = .ok (acc, trace)) :
    Inv limits acc (eventsOf trace) (fedTo ops) := by
  have preserved : ∀ acc (trace : Trace Key Value Arguments) op acc' emitted,
      Inv limits acc (eventsOf trace) (fedTo (trace.map Prod.fst)) → step dumps acc op = .ok (acc', emitted) →
      Inv limits acc' (eventsOf (trace ++ [(op, emitted)]))
        (fedTo ((trace ++ [(op, emitted)]).map Prod.fst)) := by
    intro acc trace op acc' emitted inv stepped
    rw [eventsOf_append, List.map_append, List.map_singleton, fedTo_append]
    exact step_inv inv stepped
  have initially : Inv limits (fresh limits : ToolStreamAccumulator Key Value)
      (eventsOf ([] : Trace Key Value Arguments)) (fedTo (([] : Trace Key Value Arguments).map Prod.fst)) :=
    fresh_inv limits
  have kept := runAll_invariant _ preserved initially ran
  rwa [List.nil_append, runAll_inputs ran] at kept

theorem Inv.assembles (inv : Inv limits acc events fed) (key : Key) : Assembles (events key) (fed key) := by
  cases found : acc.calls.get? key with
  | none => exact .inl (inv.unknown key found).2.1
  | some call =>
    have own := inv.call key call found
    cases started : call.startEmitted with
    | false => exact .inl (own.held started).2
    | true =>
      obtain ⟨ending, same, which⟩ := own.streamed started
      refine .inr ⟨call.toolUseId, call.toolName, call.jsonParts, ending, same, ?_, own.parts⟩
      rcases which with ⟨-, rfl⟩ | ⟨-, arguments, rfl⟩
      · exact .inl rfl
      · exact .inr ⟨arguments, rfl⟩

theorem Inv.registered (inv : Inv limits acc events fed) {key : Key} {event : StreamEvent Arguments}
    (mem : event ∈ events key) : acc.identityKeys.get? event.toolUseId = some key := by
  cases found : acc.calls.get? key with
  | none =>
    rw [(inv.unknown key found).2.1] at mem
    cases mem
  | some call =>
    have own := inv.call key call found
    cases started : call.startEmitted with
    | false =>
      rw [(own.held started).2] at mem
      cases mem
    | true =>
      have registered := inv.identity key call found (own.identified started).1
      obtain ⟨ending, same, which⟩ := own.streamed started
      have oneId : event.toolUseId = call.toolUseId := by
        rw [same, List.cons_append, List.mem_cons, List.mem_append, List.mem_map] at mem
        rcases mem with rfl | ⟨fragment, -, rfl⟩ | last
        · rfl
        · rfl
        · rcases which with ⟨-, rfl⟩ | ⟨-, arguments, rfl⟩
          · cases last
          · rw [List.mem_singleton.mp last]
            rfl
      rw [oneId, registered]

/-- Whatever operations an accumulator takes, each key's events are one call that carries all that was
fed for it, no id is shared, and the counters are those of the calls. -/
theorem run_assembles {dumps : Arguments → Option Text} {ops : List (ToolOp Key Value Arguments)}
    {trace : Trace Key Value Arguments} (ran : runAll (step dumps) (fresh limits) ops = .ok (acc, trace)) :
    (∀ key, Assembles (eventsOf trace key) (fedTo ops key)) ∧
    (∀ key other, ∀ event ∈ eventsOf trace key, ∀ event' ∈ eventsOf trace other,
      event.toolUseId = event'.toolUseId → key = other) ∧
    acc.pendingUnemittedEvents = acc.calls.sumValues waitingEvents ∧
    acc.pendingUnemittedChars = acc.calls.sumValues waitingChars ∧
    acc.totalArgumentChars = acc.calls.sumValues PendingToolCall.argumentChars ∧
    acc.totalArgumentChars ≤ limits.maxTotalArgumentChars ∧
    acc.eventCount = acc.calls.size + acc.calls.sumValues (fun call => call.jsonParts.length) + acc.closed.card ∧
    acc.eventCount ≤ limits.maxEvents := by
  have inv := run_inv ran
  have used : acc.calls.sumValues heldEvents =
      acc.calls.size + acc.calls.sumValues (fun call => call.jsonParts.length) := by
    rw [Dict.size_eq_sumValues, Dict.sumValues, Dict.sumValues, Dict.sumValues, ← List.sum_map_add]
    rfl
  refine ⟨inv.assembles, fun key other event mem event' member' same => ?_, inv.pendingEvents,
    inv.pendingChars, inv.arguments, inv.limited ▸ inv.argumentLimit, ?_, inv.limited ▸ inv.eventLimit⟩
  · have owner := inv.registered mem
    rw [same, inv.registered member'] at owner
    exact (Option.some.inj owner).symm
  · rw [inv.counted, used]

-- Two calls whose identities arrive late, one of them closed.
def lateIdentities : List (ToolOp Nat Text Text) :=
  [.appendOrStart 7 none [] "\x7b\"x\"".toList "0f3a".toList,
   .start 8 " ".toList [],
   .append 7 ":1".toList,
   .appendOrStart 7 (some "wire".toList) "search".toList "\x7d".toList [],
   .start 8 "call-b".toList "read".toList,
   .setMetadata 8 "signature".toList "s".toList,
   .finishWithArguments 7 "\x7b\x7d".toList]

theorem run_assembles_lateIdentities :
    ∃ acc trace, runAll (step some) (fresh {}) lateIdentities = .ok (acc, trace) ∧
      Assembles (eventsOf trace 7) (fedTo lateIdentities 7) ∧
      acc.pendingUnemittedEvents = acc.calls.sumValues waitingEvents := by
  have returns : (runAll (step some) (fresh {}) lateIdentities).toOption.isSome = true := by
    decide
  cases ran : runAll (step some) (fresh {}) lateIdentities with
  | error raised =>
    rw [ran] at returns
    cases returns
  | ok result =>
    obtain ⟨assembled, -, pending, -⟩ := run_assembles ran
    exact ⟨result.1, result.2, rfl, assembled 7, pending⟩

end Run

end OpenSquilla.ToolStreams
