import OpenSquilla.Metering.DollarAmounts
import OpenSquilla.Metering.Record
import OpenSquilla.Shared.KeyedGroups

set_option autoImplicit false

-- `_overlay_cost_totals` takes the rows of the items event by event and adds to the totals what
-- the latest settlements change, in decimals of 64 digits.

namespace OpenSquilla.Metering

open TextLines DecimalContext KeyedGroups

inductive CostSource
  | none
  | unavailable
  | providerBilled
  | opensquillaEstimate
  | mixed
  | other (name : Text)
  deriving DecidableEq

def CostSource.isUnknown (source : CostSource) : Bool := source = .none || source = .unavailable

def CostSource.isBilled (source : CostSource) : Bool := source = .providerBilled || source = .mixed

def UsageSettlementRevision.known (revision : UsageSettlementRevision) : Bool :=
  revision.usdAmount ≠ none && revision.authority ≠ .unknown

def UsageSettlementRevision.costSource (revision : UsageSettlementRevision) : CostSource :=
  if revision.known && revision.authority = .providerConfirmed && revision.status = .final then .providerBilled
  else if revision.known then .opensquillaEstimate
  else .unavailable

def UsageSettlementRevision.missingCostEntries (revision : UsageSettlementRevision) : Nat :=
  if revision.known then 0 else 1

-- An item of a finalized live event, with what the query joins to it.
structure SettlementRow where
  eventId : Text
  billedCostNanos : Nat
  estimatedCostNanos : Nat
  costSource : CostSource
  eventCostSource : CostSource
  eventEstimatedCostNanos : Nat
  eventMissingCostEntries : Nat
  revision : Option UsageSettlementRevision

structure CostTotals where
  billedCostNanos : Int
  estimatedCostNanos : Int
  costNanos : Int
  missingCostEntries : Int
  providerBilledEntries : Int
  estimatedCostEntries : Int
  deriving DecidableEq

structure OverlaidTotals extends CostTotals where
  billedCostUsdExact : ℚ
  estimatedCostUsdExact : ℚ
  costUsdExact : ℚ
  deriving DecidableEq

def overlayContext : Context where
  prec := 64
  wide := defaultContext.wide

def operate (exactResult : ℚ) : Except AmountRaised ℚ := (overlayContext.finish exactResult).mapError .signal

structure Overlay where
  exactBilled : ℚ
  exactEstimated : ℚ
  missingCostEntries : Int
  providerBilledEntries : Int
  estimatedCostEntries : Int

structure EventOverlay where
  exactBilled : ℚ
  exactEstimated : ℚ
  eventEstimated : ℚ := 0
  oldUnknown : Nat := 0
  newUnknown : Nat := 0
  sources : List CostSource := []

structure Valuation where
  billed : ℚ
  estimated : ℚ
  source : CostSource
  unknown : Nat

def settlementRaised : AmountRaised := .overflowError "settlement exceeds SQLite USD range"

def UsageSettlementRevision.valuation (revision : UsageSettlementRevision) : Except AmountRaised Valuation :=
  let amount := revision.usdAmount.elim 0 ExactDecimal.value
  let billed := revision.authority = .providerConfirmed
  match revision.costFields with
  | .error _ => .error settlementRaised
  | .ok _ => .ok {
      billed := if billed then amount else 0
      estimated := if billed then 0 else amount
      source := revision.costSource
      unknown := revision.missingCostEntries }

def SettlementRow.valuation (item : SettlementRow) (oldBilled oldEstimated : ℚ) :
    Except AmountRaised Valuation :=
  match item.revision with
  | some revision => revision.valuation
  | none => .ok {
      billed := oldBilled
      estimated := oldEstimated
      source := item.costSource
      unknown := if item.costSource.isUnknown then 1 else 0 }

def overlayItem (event : EventOverlay) (item : SettlementRow) : Except AmountRaised EventOverlay := do
  let oldBilled ← operate (item.billedCostNanos / 10 ^ 9)
  let oldEstimated ← operate (item.estimatedCostNanos / 10 ^ 9)
  let new ← item.valuation oldBilled oldEstimated
  let billedChange ← operate (new.billed - oldBilled)
  let exactBilled ← operate (event.exactBilled + billedChange)
  let estimatedChange ← operate (new.estimated - oldEstimated)
  let exactEstimated ← operate (event.exactEstimated + estimatedChange)
  let eventEstimated ← operate (event.eventEstimated + new.estimated)
  pure {
    exactBilled, exactEstimated, eventEstimated
    oldUnknown := event.oldUnknown + if item.costSource.isUnknown then 1 else 0
    newUnknown := event.newUnknown + new.unknown
    sources := event.sources ++ [new.source] }

def overlayEvent (result : Overlay) (items : List SettlementRow) : Except AmountRaised Overlay :=
  match items with
  | [] => .ok result
  | original :: _ =>
    if items.all (·.revision.isNone) then .ok result
    else do
      let event ← items.foldlM overlayItem
        { exactBilled := result.exactBilled, exactEstimated := result.exactEstimated }
      -- the subtraction stops at zero
      let missing := original.eventMissingCostEntries - event.oldUnknown + event.newUnknown
      pure {
        exactBilled := event.exactBilled
        exactEstimated := event.exactEstimated
        missingCostEntries := result.missingCostEntries + (missing - original.eventMissingCostEntries)
        providerBilledEntries := result.providerBilledEntries +
          ((event.sources.any CostSource.isBilled).toNat - original.eventCostSource.isBilled.toNat)
        estimatedCostEntries := result.estimatedCostEntries +
          ((decide (0 < event.eventEstimated)).toNat - (decide (0 < original.eventEstimatedCostNanos)).toNat) }

def overlayCostTotals (totals : CostTotals) (rows : List SettlementRow) :
    Except AmountRaised OverlaidTotals := do
  let exactBilled ← operate (totals.billedCostNanos / 10 ^ 9)
  let exactEstimated ← operate (totals.estimatedCostNanos / 10 ^ 9)
  let result ← (groupBy SettlementRow.eventId rows).values.foldlM overlayEvent {
    exactBilled, exactEstimated
    missingCostEntries := totals.missingCostEntries
    providerBilledEntries := totals.providerBilledEntries
    estimatedCostEntries := totals.estimatedCostEntries }
  let billedCostNanos ← nanosOf overlayContext result.exactBilled
  let estimatedCostNanos ← nanosOf overlayContext result.exactEstimated
  let costUsdExact ← operate (result.exactBilled + result.exactEstimated)
  pure {
    billedCostNanos, estimatedCostNanos
    costNanos := billedCostNanos + estimatedCostNanos
    missingCostEntries := result.missingCostEntries
    providerBilledEntries := result.providerBilledEntries
    estimatedCostEntries := result.estimatedCostEntries
    billedCostUsdExact := result.exactBilled
    estimatedCostUsdExact := result.exactEstimated
    costUsdExact }

end OpenSquilla.Metering
