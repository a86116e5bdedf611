import OpenSquilla.Metering.CostOverlay
import OpenSquilla.Metering.SettlementHistory

set_option autoImplicit false

-- The stored events carry the sums of their items. An overlay leaves the sums that come out when
-- the settled amounts replace the stored ones and the events that have any are added up again.

namespace OpenSquilla.Metering

open TextLines DecimalContext KeyedGroups

structure UsageItem where
  costNanos : Nat
  billedCostNanos : Nat
  estimatedCostNanos : Nat
  costSource : CostSource
  settlement : Option UsageSettlementRevision
  whole : costNanos = billedCostNanos + estimatedCostNanos
  stored : (costNanos : ℤ) ≤ maxSqliteInteger

/-- A finalized event of a live provider, with its items and their latest settlements. -/
structure UsageEvent where
  eventId : Text
  items : List UsageItem
  costNanos : Nat
  billedCostNanos : Nat
  estimatedCostNanos : Nat
  costSource : CostSource
  missingCostEntries : Nat
  cost : costNanos = (items.map UsageItem.costNanos).sum
  billed : billedCostNanos = (items.map UsageItem.billedCostNanos).sum
  estimated : estimatedCostNanos = (items.map UsageItem.estimatedCostNanos).sum
  stored : (costNanos : ℤ) ≤ maxSqliteInteger

structure LiveUsage where
  events : List UsageEvent
  unique : (events.map UsageEvent.eventId).Nodup
  -- SQLite numbers the rows of a table by integers of 64 bits
  numbered : events.length ≤ 2 ^ 63 ∧ (events.map (fun event => event.items.length)).sum ≤ 2 ^ 63

def UsageSettlementRevision.overflows (revision : UsageSettlementRevision) : Bool :=
  maxSqliteInteger < ((revision.usdAmount.elim 0 ExactDecimal.nanos : Nat) : Int)

namespace UsageItem

def settledBilled (item : UsageItem) : ℚ :=
  match item.settlement with
  | some revision =>
      if revision.authority = .providerConfirmed then revision.usdAmount.elim 0 ExactDecimal.value else 0
  | none => item.billedCostNanos / 10 ^ 9

def settledEstimated (item : UsageItem) : ℚ :=
  match item.settlement with
  | some revision =>
      if revision.authority = .providerConfirmed then 0 else revision.usdAmount.elim 0 ExactDecimal.value
  | none => item.estimatedCostNanos / 10 ^ 9

def settledSource (item : UsageItem) : CostSource :=
  item.settlement.elim item.costSource UsageSettlementRevision.costSource

def storedUnknown (item : UsageItem) : Nat := if item.costSource.isUnknown then 1 else 0

def settledUnknown (item : UsageItem) : Nat :=
  item.settlement.elim item.storedUnknown UsageSettlementRevision.missingCostEntries

end UsageItem

namespace UsageEvent

def settled (event : UsageEvent) : Bool := event.items.any (·.settlement.isSome)

def settledBilled (event : UsageEvent) : ℚ :=
  if event.settled then (event.items.map UsageItem.settledBilled).sum else event.billedCostNanos / 10 ^ 9

def settledEstimated (event : UsageEvent) : ℚ :=
  if event.settled then (event.items.map UsageItem.settledEstimated).sum else event.estimatedCostNanos / 10 ^ 9

-- The entries that are missing besides the unknown items stay missing.
def settledMissing (event : UsageEvent) : Nat :=
  if event.settled then
    event.missingCostEntries - (event.items.map UsageItem.storedUnknown).sum +
      (event.items.map UsageItem.settledUnknown).sum
  else event.missingCostEntries

def hasBilledItem (event : UsageEvent) : Bool :=
  if event.settled then event.items.any (·.settledSource.isBilled) else event.costSource.isBilled

def hasEstimate (event : UsageEvent) : Bool :=
  if event.settled then decide (0 < (event.items.map UsageItem.settledEstimated).sum)
  else decide (0 < event.estimatedCostNanos)

def row (event : UsageEvent) (item : UsageItem) : SettlementRow where
  eventId := event.eventId
  billedCostNanos := item.billedCostNanos
  estimatedCostNanos := item.estimatedCostNanos
  costSource := item.costSource
  eventCostSource := event.costSource
  eventEstimatedCostNanos := event.estimatedCostNanos
  eventMissingCostEntries := event.missingCostEntries
  revision := item.settlement

def rows (event : UsageEvent) : List SettlementRow := event.items.map event.row

end UsageEvent

namespace LiveUsage

def rows (usage : LiveUsage) : List SettlementRow := usage.events.flatMap UsageEvent.rows

def totals (usage : LiveUsage) : CostTotals where
  billedCostNanos := (usage.events.map UsageEvent.billedCostNanos).sum
  estimatedCostNanos := (usage.events.map UsageEvent.estimatedCostNanos).sum
  costNanos := (usage.events.map UsageEvent.costNanos).sum
  missingCostEntries := (usage.events.map UsageEvent.missingCostEntries).sum
  providerBilledEntries := usage.events.countP (·.costSource.isBilled)
  estimatedCostEntries := usage.events.countP (fun event => 0 < event.estimatedCostNanos)

def settledBilled (usage : LiveUsage) : ℚ := (usage.events.map UsageEvent.settledBilled).sum

def settledEstimated (usage : LiveUsage) : ℚ := (usage.events.map UsageEvent.settledEstimated).sum

def overflows (usage : LiveUsage) : Bool :=
  usage.events.any (fun event => event.items.any (fun item =>
    item.settlement.any UsageSettlementRevision.overflows))

def recomputed (usage : LiveUsage) : Except AmountRaised OverlaidTotals :=
  if usage.overflows then .error settlementRaised
  else do
    let billedCostNanos ← roundedOnce usage.settledBilled
    let estimatedCostNanos ← roundedOnce usage.settledEstimated
    pure {
      billedCostNanos, estimatedCostNanos
      costNanos := billedCostNanos + estimatedCostNanos
      missingCostEntries := (usage.events.map UsageEvent.settledMissing).sum
      providerBilledEntries := usage.events.countP UsageEvent.hasBilledItem
      estimatedCostEntries := usage.events.countP UsageEvent.hasEstimate
      billedCostUsdExact := usage.settledBilled
      estimatedCostUsdExact := usage.settledEstimated
      costUsdExact := usage.settledBilled + usage.settledEstimated }

end LiveUsage

section Exact

-- A multiple of the last digit that a settled amount may have.
def Near (bound : Nat) (x : ℚ) : Prop := ∃ k : ℤ, x = k * 10 ^ (-30 : ℤ) ∧ |k| ≤ bound

variable {m n : Nat} {x y : ℚ}

theorem Near.mono (near : Near m x) (wider : m ≤ n) : Near n x := by
  obtain ⟨k, value, bounded⟩ := near
  exact ⟨k, value, bounded.trans (by exact_mod_cast wider)⟩

theorem Near.add (one : Near m x) (other : Near n y) : Near (m + n) (x + y) := by
  obtain ⟨k, rfl, bounded⟩ := one
  obtain ⟨l, rfl, limited⟩ := other
  refine ⟨k + l, by push_cast; ring, (abs_add_le k l).trans ?_⟩
  push_cast
  exact add_le_add bounded limited

theorem Near.sub (one : Near m x) (other : Near m y) (hx : 0 ≤ x) (hy : 0 ≤ y) : Near m (x - y) := by
  obtain ⟨k, rfl, bounded⟩ := one
  obtain ⟨l, rfl, limited⟩ := other
  have unit : (0 : ℚ) < 10 ^ (-30 : ℤ) := by positivity
  have left : 0 ≤ k := by exact_mod_cast nonneg_of_mul_nonneg_left hx unit
  have right : 0 ≤ l := by exact_mod_cast nonneg_of_mul_nonneg_left hy unit
  refine ⟨k - l, by push_cast; ring, ?_⟩
  rw [abs_le] at *
  constructor <;> omega

theorem near_zero (m : Nat) : Near m 0 := ⟨0, by simp, by simp⟩

theorem operate_of_near (near : Near m x) (small : m < 10 ^ 64) : operate x = .ok x := by
  obtain ⟨k, value, bounded⟩ := near
  have digits : |(k : ℚ)| < 10 ^ 64 := by
    have : |k| < 10 ^ 64 := bounded.trans_lt (by exact_mod_cast small)
    exact_mod_cast this
  have same : overlayContext.rounded x = x := Context.rounded_of_fits ⟨k, -30, value, digits, by decide⟩
  have held : |overlayContext.rounded x| < 10 ^ overlayContext.prec := by
    rw [same, value, abs_mul, abs_of_pos (by positivity : (0 : ℚ) < 10 ^ (-30 : ℤ))]
    calc |(k : ℚ)| * 10 ^ (-30 : ℤ) ≤ |(k : ℚ)| := mul_le_of_le_one_right (abs_nonneg _) (by norm_num)
      _ < 10 ^ 64 := digits
  rw [operate, Context.finish_of_lt held, same]
  rfl

theorem near_div (small : n * 10 ^ 21 ≤ m) : Near m ((n : ℚ) / 10 ^ 9) := by
  refine ⟨n * 10 ^ 21, ?_, ?_⟩
  · push_cast
    norm_num
    ring
  · rw [abs_of_nonneg (by positivity)]
    exact_mod_cast small

theorem near_nanos (stored : (n : ℤ) ≤ maxSqliteInteger) : Near (10 ^ 40) ((n : ℚ) / 10 ^ 9) :=
  near_div (by unfold maxSqliteInteger at stored; omega)

theorem nanosOf_of_near (near : Near m x) (small : m < 10 ^ 64) (nonneg : 0 ≤ x) :
    nanosOf overlayContext x = roundedOnce x := by
  obtain ⟨k, value, bounded⟩ := near
  have digits : |(k : ℚ)| < 10 ^ 64 := by
    have : |k| < 10 ^ 64 := bounded.trans_lt (by exact_mod_cast small)
    exact_mod_cast this
  have scaled : x * 10 ^ 9 = k * 10 ^ (-21 : ℤ) := by
    rw [value]
    norm_num
    ring
  have same : overlayContext.rounded (x * 10 ^ 9) = x * 10 ^ 9 :=
    Context.rounded_of_fits ⟨k, -21, scaled, digits, by decide⟩
  have upper : x * 10 ^ 9 < 10 ^ 43 := by
    rw [scaled]
    calc (k : ℚ) * 10 ^ (-21 : ℤ) ≤ |(k : ℚ)| * 10 ^ (-21 : ℤ) :=
          mul_le_mul_of_nonneg_right (le_abs_self _) (by positivity)
      _ < 10 ^ 64 * 10 ^ (-21 : ℤ) := mul_lt_mul_of_pos_right digits (by positivity)
      _ = 10 ^ 43 := by norm_num
  have lower : 0 ≤ x * 10 ^ 9 := by positivity
  unfold nanosOf roundedOnce nearestNanos
  generalize x * 10 ^ 9 = nanos at same upper lower ⊢
  have finished : overlayContext.finish nanos = .ok nanos := by
    rw [Context.finish_of_lt, same]
    rw [same, abs_of_nonneg lower, show overlayContext.prec = 64 from rfl]
    linarith
  have quantized : overlayContext.toInteger nanos = .ok (halfUp nanos) := by
    apply Context.toInteger_of_lt
    have whole : 0 ≤ halfUp nanos := le_halfUp_iff.2 (by push_cast; linarith)
    rw [abs_of_nonneg whole, halfUp_lt_iff, show overlayContext.prec = 64 from rfl]
    push_cast
    linarith
  simp only [if_neg (not_lt.2 nonneg), finished, Except.mapError, bind, Except.bind, quantized]
  rcases le_or_gt (halfUp nanos) maxSqliteInteger with held | beyond
  · rw [if_neg (not_lt.2 held), if_pos held]
    rfl
  · rw [if_pos beyond, if_neg (not_le.2 beyond)]
    rfl

theorem near_amount {amount : ExactDecimal} (held : (amount.nanos : ℤ) ≤ maxSqliteInteger) :
    Near (10 ^ 40) amount.value := by
  have power : 10 ^ amount.scale * 10 ^ (30 - amount.scale) = 10 ^ 30 := by
    rw [← pow_add, Nat.add_sub_cancel' amount.range.1]
  refine ⟨amount.coefficient * 10 ^ (30 - amount.scale), ?_, ?_⟩
  · have scaled : (10 : ℚ) ^ amount.scale * 10 ^ (30 - amount.scale) = 10 ^ 30 := by exact_mod_cast power
    have positive : (0 : ℚ) < 10 ^ amount.scale := by positivity
    rw [ExactDecimal.value, div_eq_iff positive.ne']
    calc (amount.coefficient : ℚ)
        = amount.coefficient * (10 ^ amount.scale * 10 ^ (30 - amount.scale)) * 10 ^ (-30 : ℤ) := by
          rw [scaled, mul_assoc]
          norm_num
      _ = _ := by
          push_cast
          ring
  · have few : amount.nanos < 2 ^ 63 := by
      unfold maxSqliteInteger at held
      omega
    rw [ExactDecimal.nanos, Nat.div_lt_iff_lt_mul (by positivity)] at few
    have below : amount.coefficient * 10 ^ 9 ≤ 2 ^ 63 * 10 ^ amount.scale := by omega
    have multiplied := Nat.mul_le_mul_right (10 ^ (30 - amount.scale)) below
    rw [Nat.mul_assoc (2 ^ 63), power] at multiplied
    rw [abs_of_nonneg (by positivity)]
    have bounded : amount.coefficient * 10 ^ (30 - amount.scale) ≤ 10 ^ 40 := by
      generalize 10 ^ (30 - amount.scale) = places at multiplied ⊢
      rw [Nat.mul_right_comm] at multiplied
      omega
    exact_mod_cast bounded

end Exact

section Fold

variable {ε σ α : Type} {f : σ → α → Except ε σ} {g : σ → α → σ} {bad : α → Bool} {raised : ε}
  {I : Nat → σ → Prop} {cost : α → Nat} {limit : Nat}

/-- A fold whose steps do, as long as an invariant lasts, what a pure function does, and raise on a
bad element only. -/
theorem foldlM_eq_foldl {list : List α} (each : ∀ n state mem, mem ∈ list → I n state → n + cost mem ≤ limit →
      f state mem = if bad mem then .error raised else .ok (g state mem))
    (kept : ∀ n state mem, mem ∈ list → I n state → n + cost mem ≤ limit → bad mem = false →
      I (n + cost mem) (g state mem))
    {n : Nat} {state : σ} (start : I n state) (within : n + (list.map cost).sum ≤ limit) :
    list.foldlM f state = (if list.any bad then .error raised else .ok (list.foldl g state)) ∧
      (list.any bad = false → I (n + (list.map cost).sum) (list.foldl g state)) := by
  induction list generalizing n state with
  | nil => exact ⟨rfl, fun _ => start⟩
  | cons mem rest ih =>
    rw [List.map_cons, List.sum_cons] at within ⊢
    rw [List.foldlM_cons, each n state mem List.mem_cons_self start (by omega)]
    cases wrong : bad mem with
    | true =>
      simp [wrong]
      rfl
    | false =>
      have next := kept n state mem List.mem_cons_self start (by omega) wrong
      obtain ⟨ran, holds⟩ := ih (fun n state other inside => each n state other (List.mem_cons_of_mem _ inside))
        (fun n state other inside => kept n state other (List.mem_cons_of_mem _ inside)) next (by omega)
      rw [List.any_cons, wrong, Bool.false_or, List.foldl_cons, ← Nat.add_assoc]
      exact ⟨ran, holds⟩

end Fold

namespace SettlementRow

def overflows (row : SettlementRow) : Bool := row.revision.any UsageSettlementRevision.overflows

-- The amounts of a row are those of its settlement, or else the stored ones.
def valued (row : SettlementRow) : Valuation :=
  match row.revision with
  | some revision => {
      billed := if revision.authority = .providerConfirmed then
        revision.usdAmount.elim 0 ExactDecimal.value else 0
      estimated := if revision.authority = .providerConfirmed then 0 else
        revision.usdAmount.elim 0 ExactDecimal.value
      source := revision.costSource
      unknown := revision.missingCostEntries }
  | none => {
      billed := row.billedCostNanos / 10 ^ 9
      estimated := row.estimatedCostNanos / 10 ^ 9
      source := row.costSource
      unknown := if row.costSource.isUnknown then 1 else 0 }

def Stored (row : SettlementRow) : Prop :=
  (row.billedCostNanos : ℤ) ≤ maxSqliteInteger ∧ (row.estimatedCostNanos : ℤ) ≤ maxSqliteInteger

variable {row : SettlementRow}

theorem valued_amounts (stored : row.Stored) (held : row.overflows = false) :
    (0 ≤ row.valued.billed ∧ Near (10 ^ 40) row.valued.billed) ∧
      (0 ≤ row.valued.estimated ∧ Near (10 ^ 40) row.valued.estimated) := by
  unfold valued
  cases settled : row.revision with
  | none => exact ⟨⟨by positivity, near_nanos stored.1⟩, ⟨by positivity, near_nanos stored.2⟩⟩
  | some revision =>
    have amount : 0 ≤ revision.usdAmount.elim 0 ExactDecimal.value ∧
        Near (10 ^ 40) (revision.usdAmount.elim 0 ExactDecimal.value) := by
      simp only [overflows, settled, Option.any_some, UsageSettlementRevision.overflows,
        decide_eq_false_iff_not, not_lt] at held
      cases priced : revision.usdAmount with
      | none => exact ⟨le_rfl, near_zero _⟩
      | some usd =>
        rw [priced] at held
        exact ⟨by unfold ExactDecimal.value; simp only [Option.elim_some]; positivity, near_amount held⟩
    dsimp only
    split
    next => exact ⟨amount, le_rfl, near_zero _⟩
    next => exact ⟨⟨le_rfl, near_zero _⟩, amount⟩

end SettlementRow

-- The units of a sum of the stored totals and so many changes.
def room (changes : Nat) : Nat := 10 ^ 60 + changes * 10 ^ 40

def changeLimit : Nat := 2 ^ 64

theorem room_lt {changes : Nat} (few : changes ≤ changeLimit) : room changes < 10 ^ 64 := by
  unfold room changeLimit at *
  omega

theorem Near.change {n : Nat} {x y : ℚ} (near : Near (room n) x) (change : Near (10 ^ 40) y) :
    Near (room (n + 1)) (x + y) :=
  (near.add change).mono (by unfold room; omega)

structure EventOverlay.Exact (changes : Nat) (event : EventOverlay) : Prop where
  billed : Near (room changes) event.exactBilled
  estimated : Near (room changes) event.exactEstimated
  sum : Near (room changes) event.eventEstimated

def EventOverlay.advance (event : EventOverlay) (row : SettlementRow) : EventOverlay where
  exactBilled := event.exactBilled + (row.valued.billed - row.billedCostNanos / 10 ^ 9)
  exactEstimated := event.exactEstimated + (row.valued.estimated - row.estimatedCostNanos / 10 ^ 9)
  eventEstimated := event.eventEstimated + row.valued.estimated
  oldUnknown := event.oldUnknown + if row.costSource.isUnknown then 1 else 0
  newUnknown := event.newUnknown + row.valued.unknown
  sources := event.sources ++ [row.valued.source]

section Item

variable {changes : Nat} {event : EventOverlay} {row : SettlementRow}

theorem billedChange_near (stored : row.Stored) (held : row.overflows = false) :
    Near (10 ^ 40) (row.valued.billed - row.billedCostNanos / 10 ^ 9) :=
  have amounts := (SettlementRow.valued_amounts stored held).1
  amounts.2.sub (near_nanos stored.1) amounts.1 (by positivity)

theorem estimatedChange_near (stored : row.Stored) (held : row.overflows = false) :
    Near (10 ^ 40) (row.valued.estimated - row.estimatedCostNanos / 10 ^ 9) :=
  have amounts := (SettlementRow.valued_amounts stored held).2
  amounts.2.sub (near_nanos stored.2) amounts.1 (by positivity)

theorem EventOverlay.Exact.advance (exact : event.Exact changes) (stored : row.Stored)
    (held : row.overflows = false) : (event.advance row).Exact (changes + 1) where
  billed := exact.billed.change (billedChange_near stored held)
  estimated := exact.estimated.change (estimatedChange_near stored held)
  sum := exact.sum.change (SettlementRow.valued_amounts stored held).2.2

theorem valuation_eq (row : SettlementRow) :
    row.valuation (row.billedCostNanos / 10 ^ 9) (row.estimatedCostNanos / 10 ^ 9) =
      if row.overflows then .error settlementRaised else .ok row.valued := by
  unfold SettlementRow.valuation SettlementRow.overflows SettlementRow.valued
  cases row.revision with
  | none => rfl
  | some revision =>
    have same : revision.overflows = true ↔ 2 ^ 63 - 1 < revision.usdAmount.elim 0 ExactDecimal.nanos := by
      rw [UsageSettlementRevision.overflows, decide_eq_true_eq, maxSqliteInteger]
      omega
    simp only [Option.any_some, UsageSettlementRevision.valuation, UsageSettlementRevision.costFields]
    by_cases large : 2 ^ 63 - 1 < revision.usdAmount.elim 0 ExactDecimal.nanos
    · simp only [if_pos large, same.2 large, if_true]
    · simp only [if_neg large, if_neg (mt same.1 large)]

theorem overlayItem_eq (exact : event.Exact changes) (stored : row.Stored) (few : changes + 1 ≤ changeLimit) :
    overlayItem event row = if row.overflows then .error settlementRaised else .ok (event.advance row) := by
  have oldBilled := operate_of_near (near_nanos stored.1) (by norm_num)
  have oldEstimated := operate_of_near (near_nanos stored.2) (by norm_num)
  have valued := valuation_eq row
  cases wrong : row.overflows with
  | true =>
    rw [wrong, if_pos rfl] at valued
    simp only [overlayItem, oldBilled, oldEstimated, bind, Except.bind, valued]
    rfl
  | false =>
    rw [wrong, if_neg Bool.false_ne_true] at valued
    have room := room_lt few
    have advanced := exact.advance stored wrong
    have billedChange := operate_of_near (billedChange_near stored wrong) (by norm_num)
    have estimatedChange := operate_of_near (estimatedChange_near stored wrong) (by norm_num)
    have billed := operate_of_near advanced.billed room
    have estimated := operate_of_near advanced.estimated room
    have sum := operate_of_near advanced.sum room
    simp only [EventOverlay.advance] at billed estimated sum
    simp only [overlayItem, oldBilled, oldEstimated, bind, Except.bind, valued, billedChange, estimatedChange,
      billed, estimated, sum]
    rfl

end Item

def billedChange (items : List SettlementRow) : ℚ :=
  (items.map (fun row => row.valued.billed - (row.billedCostNanos : ℚ) / 10 ^ 9)).sum

def estimatedChange (items : List SettlementRow) : ℚ :=
  (items.map (fun row => row.valued.estimated - (row.estimatedCostNanos : ℚ) / 10 ^ 9)).sum

def storedUnknown (items : List SettlementRow) : Nat :=
  (items.map (fun row => if row.costSource.isUnknown then 1 else 0)).sum

def valuedUnknown (items : List SettlementRow) : Nat := (items.map (fun row => row.valued.unknown)).sum

/-- What an event with a settled item changes in a count, of which it has `before` and then `after`. -/
def countChange (before after : SettlementRow → List SettlementRow → Int) : List SettlementRow → Int
  | [] => 0
  | original :: rest =>
    if (original :: rest).all (·.revision.isNone) then 0
    else after original (original :: rest) - before original (original :: rest)

def missingChange : List SettlementRow → Int :=
  countChange (fun original _ => original.eventMissingCostEntries)
    (fun original items => (original.eventMissingCostEntries - storedUnknown items + valuedUnknown items : Nat))

def billedEntriesChange : List SettlementRow → Int :=
  countChange (fun original _ => original.eventCostSource.isBilled.toNat)
    (fun _ items => (items.any (·.valued.source.isBilled)).toNat)

def estimatedEntriesChange : List SettlementRow → Int :=
  countChange (fun original _ => (decide (0 < original.eventEstimatedCostNanos)).toNat)
    (fun _ items => (decide (0 < (items.map (·.valued.estimated)).sum)).toNat)

def Overlay.advance (result : Overlay) (items : List SettlementRow) : Overlay where
  exactBilled := result.exactBilled + billedChange items
  exactEstimated := result.exactEstimated + estimatedChange items
  missingCostEntries := result.missingCostEntries + missingChange items
  providerBilledEntries := result.providerBilledEntries + billedEntriesChange items
  estimatedCostEntries := result.estimatedCostEntries + estimatedEntriesChange items

structure Overlay.Exact (changes : Nat) (result : Overlay) : Prop where
  billed : Near (room changes) result.exactBilled
  estimated : Near (room changes) result.exactEstimated

section Event

variable {changes : Nat} {event : EventOverlay} {result : Overlay} {items : List SettlementRow}

theorem foldl_advance (event : EventOverlay) (items : List SettlementRow) :
    items.foldl EventOverlay.advance event = {
      exactBilled := event.exactBilled + billedChange items
      exactEstimated := event.exactEstimated + estimatedChange items
      eventEstimated := event.eventEstimated + (items.map (·.valued.estimated)).sum
      oldUnknown := event.oldUnknown + storedUnknown items
      newUnknown := event.newUnknown + valuedUnknown items
      sources := event.sources ++ items.map (·.valued.source) } := by
  induction items generalizing event with
  | nil => simp [billedChange, estimatedChange, storedUnknown, valuedUnknown]
  | cons row rest ih =>
    simp [ih, EventOverlay.advance, billedChange, estimatedChange, storedUnknown, valuedUnknown, add_assoc]

theorem valued_of_unsettled {row : SettlementRow} (unsettled : row.revision.isNone = true) :
    row.valued.billed = row.billedCostNanos / 10 ^ 9 ∧
      row.valued.estimated = row.estimatedCostNanos / 10 ^ 9 := by
  rw [SettlementRow.valued, Option.isNone_iff_eq_none.1 unsettled]
  exact ⟨rfl, rfl⟩

theorem advance_of_unsettled (unsettled : items.all (·.revision.isNone) = true) :
    result.advance items = result := by
  have still : ∀ row ∈ items, row.revision.isNone = true := List.all_eq_true.1 unsettled
  have billed : billedChange items = 0 := by
    unfold billedChange
    apply List.sum_eq_zero
    intro change mem
    obtain ⟨row, inside, rfl⟩ := List.mem_map.1 mem
    rw [(valued_of_unsettled (still row inside)).1, sub_self]
  have estimated : estimatedChange items = 0 := by
    unfold estimatedChange
    apply List.sum_eq_zero
    intro change mem
    obtain ⟨row, inside, rfl⟩ := List.mem_map.1 mem
    rw [(valued_of_unsettled (still row inside)).2, sub_self]
  have counts : ∀ before after, countChange before after items = 0 := by
    intro before after
    cases items with
    | nil => rfl
    | cons original rest => rw [countChange, if_pos unsettled]
  rw [Overlay.advance, billed, estimated, missingChange, billedEntriesChange, estimatedEntriesChange, counts,
    counts, counts]
  simp

theorem foldlM_overlayItem (exact : event.Exact changes) (stored : ∀ row ∈ items, row.Stored)
    (few : changes + items.length ≤ changeLimit) : items.foldlM overlayItem event =
        (if items.any SettlementRow.overflows then .error settlementRaised
          else .ok (items.foldl EventOverlay.advance event)) ∧
      (items.any SettlementRow.overflows = false →
        (items.foldl EventOverlay.advance event).Exact (changes + items.length)) := by
  have counted : (items.map (fun _ => 1)).sum = items.length := by simp
  rw [← counted] at few ⊢
  refine foldlM_eq_foldl ?_ ?_ exact few
  · intro n state row inside exact few
    exact overlayItem_eq exact (stored row inside) few
  · intro n state row inside exact few held
    exact exact.advance (stored row inside) held

theorem overlayEvent_eq (exact : result.Exact changes) (stored : ∀ row ∈ items, row.Stored)
    (few : changes + items.length ≤ changeLimit) : overlayEvent result items =
      if items.any SettlementRow.overflows then .error settlementRaised else .ok (result.advance items) := by
  by_cases unsettled : items.all (·.revision.isNone) = true
  · have held : items.any SettlementRow.overflows = false := by
      rw [List.any_eq_false]
      intro row inside
      have none := Option.isNone_iff_eq_none.1 (List.all_eq_true.1 unsettled row inside)
      simp [SettlementRow.overflows, none]
    rw [held, if_neg Bool.false_ne_true, advance_of_unsettled unsettled]
    cases items with
    | nil => rfl
    | cons original rest => exact if_pos unsettled
  · cases items with
    | nil => exact absurd rfl unsettled
    | cons original rest =>
      have start : EventOverlay.Exact changes
          { exactBilled := result.exactBilled, exactEstimated := result.exactEstimated } :=
        ⟨exact.billed, exact.estimated, near_zero _⟩
      have ran := (foldlM_overlayItem start stored few).1
      rw [overlayEvent, if_neg unsettled, ran]
      cases (original :: rest).any SettlementRow.overflows with
      | true => rfl
      | false =>
        rw [foldl_advance]
        simp only [if_neg Bool.false_ne_true, Overlay.advance, missingChange, billedEntriesChange,
          estimatedEntriesChange, countChange, if_neg unsettled]
        simp
        rfl

theorem Overlay.Exact.advance (exact : result.Exact changes) (stored : ∀ row ∈ items, row.Stored)
    (few : changes + items.length ≤ changeLimit) (held : items.any SettlementRow.overflows = false) :
    (result.advance items).Exact (changes + items.length) := by
  have start : EventOverlay.Exact changes
      { exactBilled := result.exactBilled, exactEstimated := result.exactEstimated } :=
    ⟨exact.billed, exact.estimated, near_zero _⟩
  have folded := (foldlM_overlayItem start stored few).2 held
  rw [foldl_advance] at folded
  exact ⟨folded.billed, folded.estimated⟩

theorem foldl_overlay (result : Overlay) (groups : List (List SettlementRow)) :
    groups.foldl Overlay.advance result = {
      exactBilled := result.exactBilled + (groups.map billedChange).sum
      exactEstimated := result.exactEstimated + (groups.map estimatedChange).sum
      missingCostEntries := result.missingCostEntries + (groups.map missingChange).sum
      providerBilledEntries := result.providerBilledEntries + (groups.map billedEntriesChange).sum
      estimatedCostEntries := result.estimatedCostEntries + (groups.map estimatedEntriesChange).sum } := by
  induction groups generalizing result with
  | nil => simp
  | cons items rest ih => simp [ih, Overlay.advance, add_assoc]

theorem foldlM_overlayEvent {groups : List (List SettlementRow)} (exact : result.Exact changes)
    (stored : ∀ items ∈ groups, ∀ row ∈ items, row.Stored)
    (few : changes + (groups.map List.length).sum ≤ changeLimit) : groups.foldlM overlayEvent result =
        (if groups.any (·.any SettlementRow.overflows) then .error settlementRaised
          else .ok (groups.foldl Overlay.advance result)) ∧
      (groups.any (·.any SettlementRow.overflows) = false →
        (groups.foldl Overlay.advance result).Exact (changes + (groups.map List.length).sum)) := by
  refine foldlM_eq_foldl ?_ ?_ exact few
  · intro n state items inside exact few
    exact overlayEvent_eq exact (stored items inside) few
  · intro n state items inside exact few held
    exact exact.advance (stored items inside) few held

end Event

section Rows

variable {usage : LiveUsage} {event : UsageEvent} {item : UsageItem} {rows group : List SettlementRow}

theorem valued_row (event : UsageEvent) (item : UsageItem) : (event.row item).valued = {
      billed := item.settledBilled
      estimated := item.settledEstimated
      source := item.settledSource
      unknown := item.settledUnknown } := by
  simp only [SettlementRow.valued, UsageEvent.row, UsageItem.settledBilled, UsageItem.settledEstimated,
    UsageItem.settledSource, UsageItem.settledUnknown, UsageItem.storedUnknown]
  cases item.settlement <;> rfl

theorem stored_row (event : UsageEvent) (item : UsageItem) : (event.row item).Stored := by
  have whole := item.whole
  have stored := item.stored
  constructor
  · have : (item.billedCostNanos : ℤ) ≤ item.costNanos := by omega
    exact this.trans stored
  · have : (item.estimatedCostNanos : ℤ) ≤ item.costNanos := by omega
    exact this.trans stored

theorem membersOf_rows (inside : event ∈ usage.events) :
    membersOf SettlementRow.eventId event.eventId usage.rows = event.rows := by
  have own : ∀ other : UsageEvent, membersOf SettlementRow.eventId event.eventId other.rows =
      if other.eventId = event.eventId then other.rows else [] := by
    intro other
    have same : ∀ row ∈ other.rows, row.eventId = other.eventId := by
      intro row mem
      obtain ⟨item, -, rfl⟩ := List.mem_map.1 mem
      rfl
    split
    next here => exact List.filter_eq_self.2 (fun row mem => by simp [same row mem, here])
    next elsewhere => exact List.filter_eq_nil_iff.2 (fun row mem => by simp [same row mem, elsewhere])
  have unique := usage.unique
  unfold LiveUsage.rows
  generalize usage.events = events at inside unique
  induction events with
  | nil => cases inside
  | cons first rest ih =>
    rw [List.map_cons, List.nodup_cons] at unique
    have split : membersOf SettlementRow.eventId event.eventId ((first :: rest).flatMap UsageEvent.rows) =
        membersOf SettlementRow.eventId event.eventId first.rows ++
          membersOf SettlementRow.eventId event.eventId (rest.flatMap UsageEvent.rows) := by
      simp [membersOf]
    rw [split, own]
    rcases List.mem_cons.1 inside with rfl | later
    · have none : membersOf SettlementRow.eventId event.eventId (rest.flatMap UsageEvent.rows) = [] := by
        rw [membersOf, List.filter_eq_nil_iff]
        intro row mem
        obtain ⟨other, among, listed⟩ := List.mem_flatMap.1 mem
        obtain ⟨item, -, rfl⟩ := List.mem_map.1 listed
        rw [decide_eq_true_eq]
        intro same
        exact unique.1 (same ▸ List.mem_map_of_mem among)
      rw [if_pos rfl, none, List.append_nil]
    · have other : first.eventId ≠ event.eventId := fun same => unique.1 (same ▸ List.mem_map_of_mem later)
      rw [if_neg other, List.nil_append, ih later unique.2]

theorem membersOf_perm (listed : rows.Perm usage.rows) (inside : event ∈ usage.events) :
    (membersOf SettlementRow.eventId event.eventId rows).Perm event.rows := by
  rw [← membersOf_rows inside]
  exact listed.filter _

theorem covered (listed : rows.Perm usage.rows) :
    ∀ row ∈ rows, row.eventId ∈ usage.events.map UsageEvent.eventId := by
  intro row mem
  obtain ⟨event, inside, own⟩ := List.mem_flatMap.1 (listed.mem_iff.1 mem)
  obtain ⟨item, -, rfl⟩ := List.mem_map.1 own
  exact List.mem_map_of_mem inside

theorem sum_groups {M : Type} [AddCommMonoid M] (listed : rows.Perm usage.rows) {f : List SettlementRow → M}
    {figure : UsageEvent → M} (nothing : f [] = 0)
    (each : ∀ event group, group.Perm event.rows → f group = figure event) :
    ((groupBy SettlementRow.eventId rows).values.map f).sum = (usage.events.map figure).sum := by
  have summed := sumValues_groupBy usage.unique (covered listed) f nothing
  rw [Dict.sumValues, List.map_map] at summed
  rw [summed]
  congr 1
  apply List.map_congr_left
  intro event inside
  exact each event _ (membersOf_perm listed inside)

theorem sum_map_div {α : Type} (list : List α) (f : α → Nat) :
    (list.map (fun mem => (f mem : ℚ) / 10 ^ 9)).sum = (((list.map f).sum : Nat) : ℚ) / 10 ^ 9 := by
  induction list with
  | nil => simp
  | cons mem rest ih => simp only [List.map_cons, List.sum_cons, ih, Nat.cast_add, add_div]

theorem sum_map_sub {α M : Type} [AddCommGroup M] (list : List α) (f g : α → M) :
    (list.map (fun mem => f mem - g mem)).sum = (list.map f).sum - (list.map g).sum := by
  induction list with
  | nil => simp
  | cons mem rest ih => simp only [List.map_cons, List.sum_cons, ih, sub_add_sub_comm]

theorem sum_map_cast {α : Type} (list : List α) (f : α → Nat) :
    (list.map (fun mem => (f mem : ℤ))).sum = ((list.map f).sum : Nat) := by
  induction list with
  | nil => rfl
  | cons mem rest ih => simp only [List.map_cons, List.sum_cons, ih, Nat.cast_add]

theorem sum_map_toNat {α : Type} (list : List α) (p : α → Bool) :
    (list.map (fun mem => (p mem).toNat)).sum = list.countP p := by
  induction list with
  | nil => rfl
  | cons mem rest ih =>
    rw [List.map_cons, List.sum_cons, ih, List.countP_cons]
    cases p mem <;> simp [add_comm]

theorem settlement_none (unsettled : event.settled = false) (inside : item ∈ event.items) :
    item.settlement = none := by
  have none := List.any_eq_false.1 unsettled item inside
  simpa using none

theorem billedChange_perm (perm : group.Perm event.rows) :
    billedChange group = event.settledBilled - event.billedCostNanos / 10 ^ 9 := by
  have own : billedChange group =
      (event.items.map UsageItem.settledBilled).sum - event.billedCostNanos / 10 ^ 9 := by
    rw [billedChange, (perm.map _).sum_eq, UsageEvent.rows, List.map_map, event.billed, ← sum_map_div,
        ← sum_map_sub]
    simp only [Function.comp_def, valued_row]
    rfl
  cases settled : event.settled with
  | true => rw [own, UsageEvent.settledBilled, settled, if_pos rfl]
  | false =>
    have kept : event.items.map UsageItem.settledBilled =
        event.items.map (fun item => (item.billedCostNanos : ℚ) / 10 ^ 9) := by
      apply List.map_congr_left
      intro item inside
      rw [UsageItem.settledBilled, settlement_none settled inside]
    rw [own, UsageEvent.settledBilled, settled, if_neg Bool.false_ne_true, kept, sum_map_div, ← event.billed]

theorem estimatedChange_perm (perm : group.Perm event.rows) :
    estimatedChange group = event.settledEstimated - event.estimatedCostNanos / 10 ^ 9 := by
  have own : estimatedChange group =
      (event.items.map UsageItem.settledEstimated).sum - event.estimatedCostNanos / 10 ^ 9 := by
    rw [estimatedChange, (perm.map _).sum_eq, UsageEvent.rows, List.map_map, event.estimated, ← sum_map_div,
      ← sum_map_sub]
    simp only [Function.comp_def, valued_row]
    rfl
  cases settled : event.settled with
  | true => rw [own, UsageEvent.settledEstimated, settled, if_pos rfl]
  | false =>
    have kept : event.items.map UsageItem.settledEstimated =
        event.items.map (fun item => (item.estimatedCostNanos : ℚ) / 10 ^ 9) := by
      apply List.map_congr_left
      intro item inside
      rw [UsageItem.settledEstimated, settlement_none settled inside]
    rw [own, UsageEvent.settledEstimated, settled, if_neg Bool.false_ne_true, kept, sum_map_div,
        ← event.estimated]

theorem countChange_perm {before after : SettlementRow → List SettlementRow → Int} (perm : group.Perm event.rows)
    (old new : Int) (was : ∀ item, before (event.row item) group = old)
    (is : ∀ item, after (event.row item) group = new) :
    countChange before after group = if event.settled then new - old else 0 := by
  have settled : group.all (·.revision.isNone) = !event.settled := by
    rw [perm.all_eq, UsageEvent.rows, List.all_map, UsageEvent.settled, List.not_any_eq_all_not]
    congr 1
    funext item
    simp [UsageEvent.row]
  cases group with
  | nil =>
    cases none : event.settled with
    | true =>
      rw [none] at settled
      cases settled
    | false => rfl
  | cons original rest =>
    obtain ⟨item, -, rfl⟩ := List.mem_map.1 (perm.mem_iff.1 List.mem_cons_self)
    rw [countChange, settled, was, is]
    cases event.settled <;> rfl

theorem missingChange_perm (perm : group.Perm event.rows) :
    missingChange group = event.settledMissing - event.missingCostEntries := by
  have stored : storedUnknown group = (event.items.map UsageItem.storedUnknown).sum := by
    rw [storedUnknown, (perm.map _).sum_eq, UsageEvent.rows, List.map_map]
    rfl
  have valued : valuedUnknown group = (event.items.map UsageItem.settledUnknown).sum := by
    rw [valuedUnknown, (perm.map _).sum_eq, UsageEvent.rows, List.map_map]
    simp only [Function.comp_def, valued_row]
  rw [missingChange, countChange_perm perm event.missingCostEntries
    (event.missingCostEntries - storedUnknown group + valuedUnknown group : Nat) (fun _ => rfl) (fun _ => rfl),
    stored, valued, UsageEvent.settledMissing]
  cases event.settled <;> simp

theorem billedEntriesChange_perm (perm : group.Perm event.rows) :
    billedEntriesChange group = event.hasBilledItem.toNat - event.costSource.isBilled.toNat := by
  have valued : group.any (·.valued.source.isBilled) = event.items.any (·.settledSource.isBilled) := by
    rw [perm.any_eq, UsageEvent.rows, List.any_map]
    simp only [Function.comp_def, valued_row]
  rw [billedEntriesChange, countChange_perm perm event.costSource.isBilled.toNat
    (group.any (·.valued.source.isBilled)).toNat (fun _ => rfl) (fun _ => rfl), valued, UsageEvent.hasBilledItem]
  cases event.settled <;> simp

theorem estimatedEntriesChange_perm (perm : group.Perm event.rows) :
    estimatedEntriesChange group = event.hasEstimate.toNat - (decide (0 < event.estimatedCostNanos)).toNat := by
  have valued : (group.map (·.valued.estimated)).sum = (event.items.map UsageItem.settledEstimated).sum := by
    rw [(perm.map _).sum_eq, UsageEvent.rows, List.map_map]
    simp only [Function.comp_def, valued_row]
  rw [estimatedEntriesChange, countChange_perm perm (decide (0 < event.estimatedCostNanos)).toNat
    (decide (0 < (group.map (·.valued.estimated)).sum)).toNat (fun _ => rfl) (fun _ => rfl), valued,
    UsageEvent.hasEstimate]
  cases event.settled <;> simp

theorem any_overflows (listed : rows.Perm usage.rows) :
    (groupBy SettlementRow.eventId rows).values.any (·.any SettlementRow.overflows) = usage.overflows := by
  have grouped : (groupBy SettlementRow.eventId rows).values.any (·.any SettlementRow.overflows) =
      rows.any SettlementRow.overflows := by
    have members : (∃ group ∈ (groupBy SettlementRow.eventId rows).values, ∃ row ∈ group, row.overflows = true) ↔
        ∃ row ∈ rows, row.overflows = true := exists_group_iff
    rw [Bool.eq_iff_iff]
    simpa only [List.any_eq_true] using members
  rw [grouped, listed.any_eq, LiveUsage.rows, List.any_flatMap, LiveUsage.overflows]
  congr 1
  funext event
  rw [UsageEvent.rows, List.any_map]
  rfl

end Rows

section Totals

variable {usage : LiveUsage} {rows : List SettlementRow}

theorem UsageEvent.whole (event : UsageEvent) :
    event.costNanos = event.billedCostNanos + event.estimatedCostNanos := by
  rw [event.cost, event.billed, event.estimated, ← List.sum_map_add]
  congr 1
  exact List.map_congr_left (fun item _ => item.whole)

variable (usage) in
theorem sum_le (f : UsageEvent → Nat) (bounded : ∀ event, f event ≤ event.costNanos) :
    (usage.events.map f).sum ≤ 2 ^ 126 := by
  have each : ∀ figure ∈ usage.events.map f, figure ≤ 2 ^ 63 := by
    intro figure mem
    obtain ⟨event, -, rfl⟩ := List.mem_map.1 mem
    have stored := event.stored
    have small := bounded event
    unfold maxSqliteInteger at stored
    omega
  calc (usage.events.map f).sum ≤ (usage.events.map f).length * 2 ^ 63 := List.sum_le_card_nsmul _ _ each
    _ ≤ 2 ^ 63 * 2 ^ 63 := Nat.mul_le_mul_right _ (by rw [List.length_map]; exact usage.numbered.1)
    _ = 2 ^ 126 := by norm_num

theorem settled_nonneg {amounts : UsageEvent → ℚ} (each : ∀ event, 0 ≤ amounts event) :
    0 ≤ (usage.events.map amounts).sum := by
  apply List.sum_nonneg
  intro amount mem
  obtain ⟨event, -, rfl⟩ := List.mem_map.1 mem
  exact each event

theorem ExactDecimal.value_nonneg (decimal : ExactDecimal) : 0 ≤ decimal.value := by
  unfold ExactDecimal.value
  positivity

theorem usd_nonneg (usd : Option ExactDecimal) : 0 ≤ usd.elim 0 ExactDecimal.value := by
  cases usd with
  | none => exact le_rfl
  | some usd => exact usd.value_nonneg

theorem UsageEvent.settledBilled_nonneg (event : UsageEvent) : 0 ≤ event.settledBilled := by
  unfold UsageEvent.settledBilled
  split
  next =>
    apply List.sum_nonneg
    intro amount mem
    obtain ⟨item, -, rfl⟩ := List.mem_map.1 mem
    unfold UsageItem.settledBilled
    split
    next revision _ =>
      split
      next => exact usd_nonneg revision.usdAmount
      next => exact le_rfl
    next => positivity
  next => positivity

theorem UsageEvent.settledEstimated_nonneg (event : UsageEvent) : 0 ≤ event.settledEstimated := by
  unfold UsageEvent.settledEstimated
  split
  next =>
    apply List.sum_nonneg
    intro amount mem
    obtain ⟨item, -, rfl⟩ := List.mem_map.1 mem
    unfold UsageItem.settledEstimated
    split
    next revision _ =>
      split
      next => exact le_rfl
      next => exact usd_nonneg revision.usdAmount
    next => positivity
  next => positivity

theorem stored_groups (listed : rows.Perm usage.rows) :
    ∀ items ∈ (groupBy SettlementRow.eventId rows).values, ∀ row ∈ items, row.Stored := by
  intro items among row inside
  obtain ⟨entry, kept, rfl⟩ := List.mem_map.1 among
  rw [(of_mem_groupBy kept).1] at inside
  obtain ⟨event, -, own⟩ := List.mem_flatMap.1 (listed.mem_iff.1 (List.mem_of_mem_filter inside))
  obtain ⟨item, -, rfl⟩ := List.mem_map.1 own
  exact stored_row event item

theorem length_groups (listed : rows.Perm usage.rows) :
    ((groupBy SettlementRow.eventId rows).values.map List.length).sum ≤ 2 ^ 63 := by
  have each : ∀ (event : UsageEvent) (group : List SettlementRow), group.Perm event.rows →
      group.length = event.items.length := by
    intro event group perm
    rw [perm.length_eq, UsageEvent.rows, List.length_map]
  rw [sum_groups listed rfl each]
  exact usage.numbered.2

-- What the loop leaves of the totals, when no settlement is out of range.
def LiveUsage.overlay (usage : LiveUsage) : Overlay where
  exactBilled := usage.settledBilled
  exactEstimated := usage.settledEstimated
  missingCostEntries := (usage.events.map UsageEvent.settledMissing).sum
  providerBilledEntries := usage.events.countP UsageEvent.hasBilledItem
  estimatedCostEntries := usage.events.countP UsageEvent.hasEstimate

def LiveUsage.start (usage : LiveUsage) : Overlay where
  exactBilled := usage.totals.billedCostNanos / 10 ^ 9
  exactEstimated := usage.totals.estimatedCostNanos / 10 ^ 9
  missingCostEntries := usage.totals.missingCostEntries
  providerBilledEntries := usage.totals.providerBilledEntries
  estimatedCostEntries := usage.totals.estimatedCostEntries

theorem start_exact (usage : LiveUsage) : usage.start.Exact 0 := by
  have billed := sum_le usage UsageEvent.billedCostNanos (fun event => by rw [event.whole]; omega)
  have estimated := sum_le usage UsageEvent.estimatedCostNanos (fun event => by rw [event.whole]; omega)
  unfold LiveUsage.start LiveUsage.totals
  constructor
  · rw [Int.cast_natCast]
    exact near_div (by unfold room; omega)
  · rw [Int.cast_natCast]
    exact near_div (by unfold room; omega)

theorem foldl_start (listed : rows.Perm usage.rows) :
    (groupBy SettlementRow.eventId rows).values.foldl Overlay.advance usage.start = usage.overlay := by
  rw [foldl_overlay, sum_groups listed rfl (fun _ _ => billedChange_perm),
    sum_groups listed rfl (fun _ _ => estimatedChange_perm),
      sum_groups listed rfl (fun _ _ => missingChange_perm),
    sum_groups listed rfl (fun _ _ => billedEntriesChange_perm),
    sum_groups listed rfl (fun _ _ => estimatedEntriesChange_perm)]
  simp only [sum_map_sub, sum_map_div, sum_map_cast, sum_map_toNat, LiveUsage.start, LiveUsage.totals,
    LiveUsage.overlay, LiveUsage.settledBilled, LiveUsage.settledEstimated, Int.cast_natCast]
  congr 1 <;> ring

theorem overlayCostTotals_eq (listed : rows.Perm usage.rows) :
    overlayCostTotals usage.totals rows = usage.recomputed := by
  have start := start_exact usage
  have few : 0 + ((groupBy SettlementRow.eventId rows).values.map List.length).sum ≤ changeLimit := by
    have lengths := length_groups listed
    unfold changeLimit
    omega
  have room : room (0 + ((groupBy SettlementRow.eventId rows).values.map List.length).sum) < 10 ^ 63 := by
    have lengths := length_groups listed
    unfold Metering.room
    omega
  have billed := operate_of_near start.billed (room_lt (Nat.zero_le _))
  have estimated := operate_of_near start.estimated (room_lt (Nat.zero_le _))
  obtain ⟨ran, exact⟩ := foldlM_overlayEvent start (stored_groups listed) few
  rw [any_overflows listed] at ran exact
  rw [foldl_start listed] at ran exact
  simp only [LiveUsage.start] at billed estimated ran
  simp only [overlayCostTotals, billed, estimated, bind, Except.bind, ran, LiveUsage.recomputed]
  cases overflows : usage.overflows with
  | true => rfl
  | false =>
    have sums := exact overflows
    have billedNanos := nanosOf_of_near sums.billed (room.trans (by norm_num))
      (settled_nonneg UsageEvent.settledBilled_nonneg)
    have estimatedNanos := nanosOf_of_near sums.estimated (room.trans (by norm_num))
      (settled_nonneg UsageEvent.settledEstimated_nonneg)
    have total := operate_of_near (sums.billed.add sums.estimated) (by omega)
    simp only [LiveUsage.overlay] at billedNanos estimatedNanos total
    simp only [if_neg Bool.false_ne_true, LiveUsage.overlay, billedNanos, estimatedNanos, total]

theorem nearestNanos_div (n : Nat) : nearestNanos ((n : ℚ) / 10 ^ 9) = n := by
  rw [nearestNanos, div_mul_cancel₀ _ (by norm_num)]
  exact_mod_cast halfUp_intCast n

theorem roundedOnce_div {n : Nat} (held : (n : ℤ) ≤ maxSqliteInteger) :
    roundedOnce ((n : ℚ) / 10 ^ 9) = .ok n := by
  rw [roundedOnce, nearestNanos_div, if_pos held]

theorem recomputed_of_unsettled (unsettled : ∀ event ∈ usage.events, event.settled = false)
    (billed : usage.totals.billedCostNanos ≤ maxSqliteInteger)
    (estimated : usage.totals.estimatedCostNanos ≤ maxSqliteInteger) : usage.recomputed = .ok {
      toCostTotals := usage.totals
      billedCostUsdExact := usage.totals.billedCostNanos / 10 ^ 9
      estimatedCostUsdExact := usage.totals.estimatedCostNanos / 10 ^ 9
      costUsdExact := usage.totals.billedCostNanos / 10 ^ 9 + usage.totals.estimatedCostNanos / 10 ^ 9 } := by
  have overflows : usage.overflows = false := by
    rw [LiveUsage.overflows, List.any_eq_false]
    intro event inside
    rw [Bool.not_eq_true, List.any_eq_false]
    intro item mem
    rw [settlement_none (unsettled event inside) mem]
    exact Bool.false_ne_true
  have kept : ∀ {M : Type} (settled stored : UsageEvent → M),
      (∀ event, event.settled = false → settled event = stored event) →
      usage.events.map settled = usage.events.map stored :=
    fun _ _ same => List.map_congr_left (fun event inside => same event (unsettled event inside))
  have counted : ∀ settled stored : UsageEvent → Bool,
      (∀ event, event.settled = false → settled event = stored event) →
      usage.events.countP settled = usage.events.countP stored :=
    fun _ _ same => List.countP_congr (fun event inside => by rw [same event (unsettled event inside)])
  have billedSum : usage.settledBilled = ((usage.events.map UsageEvent.billedCostNanos).sum : Nat) / 10 ^ 9 := by
    rw [LiveUsage.settledBilled, ← sum_map_div]
    exact congrArg List.sum
        (kept _ _ (fun event still => by rw [UsageEvent.settledBilled, still, if_neg Bool.false_ne_true]))
  have estimatedSum :
      usage.settledEstimated = ((usage.events.map UsageEvent.estimatedCostNanos).sum : Nat) / 10 ^ 9 := by
    rw [LiveUsage.settledEstimated, ← sum_map_div]
    exact congrArg List.sum
      (kept _ _ (fun event still => by rw [UsageEvent.settledEstimated, still, if_neg Bool.false_ne_true]))
  have cost : (usage.events.map UsageEvent.costNanos).sum =
      (usage.events.map UsageEvent.billedCostNanos).sum +
        (usage.events.map UsageEvent.estimatedCostNanos).sum := by
    rw [← List.sum_map_add]
    exact congrArg List.sum (List.map_congr_left (fun event _ => event.whole))
  have missing := kept UsageEvent.settledMissing UsageEvent.missingCostEntries
    (fun event still => by rw [UsageEvent.settledMissing, still, if_neg Bool.false_ne_true])
  have bills := counted UsageEvent.hasBilledItem (·.costSource.isBilled)
    (fun event still => by rw [UsageEvent.hasBilledItem, still, if_neg Bool.false_ne_true])
  have estimates := counted UsageEvent.hasEstimate (fun event => 0 < event.estimatedCostNanos)
    (fun event still => by rw [UsageEvent.hasEstimate, still, if_neg Bool.false_ne_true])
  rw [LiveUsage.recomputed, overflows, if_neg Bool.false_ne_true, billedSum, estimatedSum,
      roundedOnce_div billed,
    roundedOnce_div estimated, missing, bills, estimates]
  simp only [LiveUsage.totals, cost, Int.cast_natCast, Nat.cast_add, bind, Except.bind, pure, Except.pure]

end Totals

/-- The overlaid totals are the recomputed ones, whatever the order of the rows, and stay what they were where
nothing is settled. -/
theorem overlayCostTotals_eq_recomputed (usage : LiveUsage) (rows : List SettlementRow)
    (listed : rows.Perm usage.rows) : overlayCostTotals usage.totals rows = usage.recomputed ∧
      ((∀ event ∈ usage.events, event.settled = false) → usage.totals.billedCostNanos ≤ maxSqliteInteger →
        usage.totals.estimatedCostNanos ≤ maxSqliteInteger →
        overlayCostTotals usage.totals rows = .ok {
          toCostTotals := usage.totals
          billedCostUsdExact := usage.totals.billedCostNanos / 10 ^ 9
          estimatedCostUsdExact := usage.totals.estimatedCostNanos / 10 ^ 9
          costUsdExact :=
            usage.totals.billedCostNanos / 10 ^ 9 + usage.totals.estimatedCostNanos / 10 ^ 9 }) := by
  refine ⟨overlayCostTotals_eq listed, ?_⟩
  intro unsettled billed estimated
  rw [overlayCostTotals_eq listed]
  exact recomputed_of_unsettled unsettled billed estimated

def halfNano : ExactDecimal where
  coefficient := 5
  scale := 10
  zero negative := absurd negative Bool.false_ne_true
  range := by decide

def halfNanoSettlement (authority : AmountAuthority) (priced : authority ≠ .unknown) :
    UsageSettlementRevision where
  __ := estimate "settled".toList (by decide) none (Option.some_ne_none _).symm
  authority := authority
  status := .final
  nativeAmount := some halfNano
  usdAmount := some halfNano
  confirmed _ := ⟨rfl, Option.some_ne_none _⟩
  unpriced unknown := absurd unknown priced

def settledItem (authority : AmountAuthority) (priced : authority ≠ .unknown) : UsageItem where
  costNanos := 0
  billedCostNanos := 0
  estimatedCostNanos := 0
  costSource := .opensquillaEstimate
  settlement := some (halfNanoSettlement authority priced)
  whole := rfl
  stored := by decide

/-- An event with a bill and an estimate of half a nano, and two entries missing besides its items. -/
def halfNanoEvent : UsageEvent where
  eventId := "event".toList
  items := [settledItem .providerConfirmed (by decide), settledItem .localEstimate (by decide)]
  costNanos := 0
  billedCostNanos := 0
  estimatedCostNanos := 0
  costSource := .opensquillaEstimate
  missingCostEntries := 2
  cost := rfl
  billed := rfl
  estimated := rfl
  stored := by decide

def halfNanoUsage : LiveUsage where
  events := [halfNanoEvent]
  unique := List.nodup_singleton _
  numbered := by decide

theorem overlayCostTotals_eq_recomputed_reversed :
    overlayCostTotals halfNanoUsage.totals halfNanoUsage.rows.reverse = halfNanoUsage.recomputed :=
  (overlayCostTotals_eq_recomputed halfNanoUsage _ (List.reverse_perm _)).1

-- the total is one nano, of which each half is rounded up; no item is without a price
theorem overlayCostTotals_halfNano : overlayCostTotals halfNanoUsage.totals halfNanoUsage.rows = .ok {
      billedCostNanos := 1
      estimatedCostNanos := 1
      costNanos := 2
      missingCostEntries := 2
      providerBilledEntries := 1
      estimatedCostEntries := 1
      billedCostUsdExact := 1 / (2 * 10 ^ 9)
      estimatedCostUsdExact := 1 / (2 * 10 ^ 9)
      costUsdExact := 1 / 10 ^ 9 } ∧
    nearestNanos (1 / 10 ^ 9) = 1 ∧ ∀ item ∈ halfNanoEvent.items, item.settledUnknown = 0 := by
  decide +kernel

end OpenSquilla.Metering
