import Mathlib.Data.List.Infix
import OpenSquilla.Shared.UrlHost

set_option autoImplicit false

namespace OpenSquilla.Sandbox

open TextLines TextScan UrlHost IpAddress

inductive DomainStatus
  | allowed
  | blocked
  deriving DecidableEq

structure DomainDecision where
  status : DomainStatus
  normalized : Text
  reason : String

inductive ExtractionError
  | invalidDomain
  | invalidPort

def ExtractionError.reason : ExtractionError → String
  | invalidDomain => "invalid_domain"
  | invalidPort => "invalid_port"

def allowedWildcardSuffixes : List Text := ["pythonhosted.org".toList]

def isDnsLabelChar (c : Char) : Bool := c.isLower || c.isDigit || c = '-'

def isValidPort (value : Text) : Bool :=
  value ≠ [] && value.length ≤ 5 && value.all Char.isDigit && decimal value ≤ 65535

def isDnsLabel (label : Text) : Bool :=
  label ≠ [] && label.length ≤ 63 && label.head? ≠ some '-' && label.getLast? ≠ some '-' &&
    label.all isDnsLabelChar

def isValidDnsName (value : Text) : Bool :=
  value ≠ [] && value.length ≤ 253 && (value.splitOn '.').all isDnsLabel

-- `_IPV4_NUMERIC_ALIAS_LABEL_RE`, of which `\d` is any decimal digit.
def isNumericLabel (label : Text) : Bool :=
  (label ≠ [] && label.all isDigit) ||
    (['0', 'x'].isPrefixOf label && label.drop 2 ≠ [] &&
      (label.drop 2).all (fun c => c.isDigit || 'a' ≤ c && c ≤ 'f'))

def isIpv4NumericAlias (value : Text) : Bool :=
  let labels := value.splitOn '.'
  1 ≤ labels.length && labels.length ≤ 4 && labels.all isNumericLabel

def isBracket (c : Char) : Bool := c = '[' || c = ']'

def isIpLiteral (value : Text) : Bool :=
  let candidate := (value.dropWhile isBracket).rdropWhile isBracket
  isAddress candidate || isIpv4NumericAlias candidate

def normalizeExactValidationHost (value : Text) : Text :=
  if value.getLast? = some '.' && !(['*', '.'].isPrefixOf value) then value.dropLast else value

variable (lib : UrlLibrary)

def extractUrlHost (text : Text) : Text × Option ExtractionError :=
  match netloc lib text with
  | none => ([], some .invalidDomain)
  | some netloc =>
    if portReads netloc = false then (hostname lib netloc, some .invalidPort)
    else if netloc.any isBracket then (hostname lib netloc, some .invalidDomain)
    else (hostname lib netloc, none)

def extractBracketed (host : Text) : Text × Option ExtractionError :=
  if host.contains ']' then
    let bracketed := host.takeWhile (· ≠ ']') ++ [']']
    match (host.dropWhile (· ≠ ']')).tail with
    | [] => (bracketed, none)
    | ':' :: port => if isValidPort port then (bracketed, none) else (bracketed, some .invalidPort)
    | _ => (host, some .invalidDomain)
  else (host, some .invalidDomain)

def extractPlainHost (text : Text) : Text × Option ExtractionError :=
  let host := text.takeWhile (· ≠ '/')
  if host.head? = some '[' then extractBracketed host
  else if host.count ':' = 1 then
    let port := (host.dropWhile (· ≠ ':')).tail
    if isValidPort port then (host.takeWhile (· ≠ ':'), none) else (host.takeWhile (· ≠ ':'), some .invalidPort)
  else (host, none)

def extractValidationHost (raw : Text) : Text × Option ExtractionError :=
  let text := lib.lower (strip raw)
  if text = [] then ([], none)
  else if [':', '/', '/'] <:+: text then extractUrlHost lib text
  else extractPlainHost text

def validateDomainPattern (raw : Text) : DomainDecision :=
  let (normalized, extractionError) := extractValidationHost lib raw
  if normalized = [] then ⟨.blocked, normalized, "empty_domain"⟩
  else match extractionError with
  | some raised => ⟨.blocked, normalized, raised.reason⟩
  | none =>
    if isIpLiteral normalized then ⟨.blocked, normalized, "ip_literal"⟩
    else if ['*', '.'].isPrefixOf normalized then
      let suffix := normalized.drop 2
      if suffix.count '.' < 1 then ⟨.blocked, normalized, "broad_wildcard"⟩
      else if isValidDnsName suffix = false then ⟨.blocked, normalized, "invalid_domain"⟩
      else if suffix ∉ allowedWildcardSuffixes then ⟨.blocked, normalized, "broad_wildcard"⟩
      else ⟨.allowed, normalized, "wildcard_domain"⟩
    else if normalized.contains '*' then ⟨.blocked, normalized, "invalid_wildcard"⟩
    else
      let normalized := normalizeExactValidationHost normalized
      if normalized = [] then ⟨.blocked, normalized, "empty_domain"⟩
      else if isIpLiteral normalized then ⟨.blocked, normalized, "ip_literal"⟩
      else if normalized.contains '.' = false then ⟨.blocked, normalized, "not_fqdn"⟩
      else if isValidDnsName normalized = false then ⟨.blocked, normalized, "invalid_domain"⟩
      else ⟨.allowed, normalized, "exact_domain"⟩

def domainMatches (pattern host : Text) : Bool :=
  let decision := validateDomainPattern lib pattern
  if decision.status ≠ .allowed then false
  else
    let (normalizedHost, extractionError) := extractValidationHost lib host
    if extractionError ≠ none then false
    else
      let normalizedHost := normalizeExactValidationHost normalizedHost
      if isIpLiteral normalizedHost || !isValidDnsName normalizedHost then false
      else if ['*', '.'].isPrefixOf decision.normalized then
        ('.' :: decision.normalized.drop 2).isSuffixOf normalizedHost
      else normalizedHost = decision.normalized

def validatePolicyDomainPattern (raw : Text) : DomainDecision :=
  let (normalized, extractionError) := extractValidationHost lib raw
  if normalized = [] then ⟨.blocked, normalized, "empty_domain"⟩
  else match extractionError with
  | some raised => ⟨.blocked, normalized, raised.reason⟩
  | none =>
    if ['*', '.'].isPrefixOf normalized then
      let suffix := (normalized.drop 2).rdropWhile (· = '.')
      if suffix.count '.' < 1 then ⟨.blocked, normalized, "broad_wildcard"⟩
      else if isValidDnsName suffix = false then ⟨.blocked, normalized, "invalid_domain"⟩
      else ⟨.allowed, ['*', '.'] ++ suffix, "wildcard_domain"⟩
    else if normalized.contains '*' then ⟨.blocked, normalized, "invalid_wildcard"⟩
    else
      let normalized := normalizeExactValidationHost normalized
      if isIpLiteral normalized then ⟨.blocked, normalized, "ip_literal"⟩
      else if normalized.contains '.' = false || isValidDnsName normalized = false then
        ⟨.blocked, normalized, "invalid_domain"⟩
      else ⟨.allowed, normalized, "exact_domain"⟩

def policyDomainMatches (pattern host : Text) : Bool :=
  let decision := validatePolicyDomainPattern lib pattern
  if decision.status ≠ .allowed then false
  else
    let hostDecision := validateDomainPattern lib host
    if hostDecision.status ≠ .allowed || hostDecision.normalized.contains '*' then false
    else if ['*', '.'].isPrefixOf decision.normalized then
      ('.' :: decision.normalized.drop 2).isSuffixOf hostDecision.normalized
    else hostDecision.normalized = decision.normalized

end OpenSquilla.Sandbox
