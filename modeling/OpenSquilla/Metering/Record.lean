import Mathlib.Data.List.Sort
import Mathlib.Data.Rat.Defs
import OpenSquilla.Shared.Dict
import OpenSquilla.Shared.TextScan

set_option autoImplicit false

namespace OpenSquilla.Metering

open TextLines

-- A text that `exact_decimal` gives, read as `coefficient / 10 ^ scale`.
structure ExactDecimal where
  coefficient : Nat
  scale : Nat
  -- the text `-0` and its like
  negative : Bool := false
  zero : negative = true → coefficient = 0
  range : scale ≤ 30 ∧ coefficient < 10 ^ (scale + 25)
  deriving DecidableEq

def ExactDecimal.value (decimal : ExactDecimal) : ℚ := decimal.coefficient / 10 ^ decimal.scale

-- Each name has one value, and `canonical_json` lists the names in their order.
structure Dimensions where
  entries : List (Text × Text) := []
  sorted : entries.Pairwise (fun one other => one.1 < other.1) := by exact List.Pairwise.nil
  deriving DecidableEq

structure UsageMeter where
  metric : Text
  unit : Text
  quantity : Option ExactDecimal
  dimensions : Dimensions := {}
  source : Text := "provider".toList
  required : metric ≠ [] ∧ unit ≠ [] ∧ source ≠ []
  deriving DecidableEq

def UsageMeter.known (meter : UsageMeter) : Bool := meter.quantity.isSome

-- What `_merge_meters` takes for the identity of a measurement.
structure MeterKey where
  metric : Text
  unit : Text
  dimensions : Dimensions
  source : Text
  deriving DecidableEq

def UsageMeter.key (meter : UsageMeter) : MeterKey where
  metric := meter.metric
  unit := meter.unit
  dimensions := meter.dimensions
  source := meter.source

def UsageMeter.amount (meter : UsageMeter) : Option ℚ := meter.quantity.map ExactDecimal.value

structure UsagePriceRule where
  metric : Text
  unit : Text
  amount : ExactDecimal
  per : ExactDecimal
  dimensions : Dimensions := {}
  subtractMetrics : List Text := []
  required : metric ≠ [] ∧ unit ≠ []
  positive : 0 < per.coefficient
  deriving DecidableEq

structure UsagePriceSnapshot where
  source : Text
  sourceRevision : Text
  rules : List UsagePriceRule
  currency : Text := "USD".toList
  provider : Text := []
  model : Text := []
  sourceUrl : Text := []
  effectiveAtMs : Option Int := none
  formulaVersion : Text := "meter-rules-v1".toList
  required : source ≠ [] ∧ sourceRevision ≠ []
  deriving DecidableEq

inductive AmountAuthority
  | providerConfirmed
  | providerEstimate
  | localEstimate
  | unknown
  deriving DecidableEq

inductive SettlementStatus
  | final
  | pending
  | unknown
  deriving DecidableEq

def isCurrencyCode (currency : Text) : Bool :=
  currency.length = 3 && currency.all (fun c => 'A' ≤ c && c ≤ 'Z')

structure UsageSettlementRevision where
  revisionId : Text
  authority : AmountAuthority
  status : SettlementStatus
  currency : Text := "USD".toList
  nativeAmount : Option ExactDecimal := none
  usdAmount : Option ExactDecimal := none
  previousRevisionId : Option Text := none
  reasonCode : Text := []
  priceSnapshotId : Option Text := none
  fxNativePerUsd : Option ExactDecimal := none
  fxSource : Option Text := none
  fxSourceRevision : Option Text := none
  providerPendingNativeAmount : Option ExactDecimal := none
  providerPendingCurrency : Option Text := none
  -- what `__post_init__` checks
  identity : revisionId ≠ []
  currencyCode : isCurrencyCode currency = true
  pendingPair : providerPendingNativeAmount.isSome = providerPendingCurrency.isSome
  pendingCode : providerPendingCurrency.all isCurrencyCode = true
  rate : fxNativePerUsd.all (fun rate => 0 < rate.coefficient && fxSource.any (· ≠ []) &&
    fxSourceRevision.any (· ≠ []) &&
    (currency ≠ "USD".toList || rate.coefficient = 10 ^ rate.scale)) = true
  noRate : fxNativePerUsd = none → fxSource = none ∧ fxSourceRevision = none
  confirmed : authority = .providerConfirmed → status = .final ∧ nativeAmount ≠ none
  unpriced : authority = .unknown → usdAmount = none
  forward : previousRevisionId ≠ some revisionId
  deriving DecidableEq

inductive Raised
  | usageLedgerConflictError (message : String)
  | overflowError (message : String)
  | integrityError
  deriving DecidableEq

structure ItemAmounts where
  costNanos : Nat
  billedCostNanos : Nat
  estimatedCostNanos : Nat
  deriving DecidableEq

def ExactDecimal.nanos (amount : ExactDecimal) : Nat :=
  (2 * (amount.coefficient * 10 ^ 9) + 10 ^ amount.scale) / (2 * 10 ^ amount.scale)

def UsageSettlementRevision.costFields (revision : UsageSettlementRevision) : Except Raised ItemAmounts :=
  let nanos := revision.usdAmount.elim 0 ExactDecimal.nanos
  if 2 ^ 63 - 1 < nanos then .error (.overflowError "settlement exceeds SQLite USD range")
  else
    let confirmed := revision.authority = .providerConfirmed ∧ revision.status = .final
    let known := revision.usdAmount ≠ none ∧ revision.authority ≠ .unknown
    .ok {
      costNanos := nanos
      billedCostNanos := if confirmed then nanos else 0
      estimatedCostNanos := if known ∧ ¬confirmed then nanos else 0 }

structure UsageItemMetering where
  meters : List UsageMeter := []
  priceSnapshot : Option UsagePriceSnapshot := none
  settlement : Option UsageSettlementRevision := none
  tokenUsageKnown : Bool := true

end OpenSquilla.Metering
