import OpenSquilla.Sandbox.Domains

set_option autoImplicit false

namespace OpenSquilla.Sandbox

open TextLines TextScan UrlHost IpAddress

def Spells (text name : Text) : Prop := text = name ∨ text = name ++ ['.']

structure IsHostName (name : Text) : Prop where
  valid : isValidDnsName name = true
  noAlias : isIpv4NumericAlias name = false

-- The law of the rules, on the host parts of a pattern and of a host.
inductive Names (admits : Text → Prop) (pattern host : Text) : Prop
  | exact {name : Text} (named : IsHostName name) (labels : '.' ∈ name) (spells : Spells pattern name)
    (spelled : Spells host name)
  | wildcard {name suffix dots front : Text} (spells : pattern = ['*', '.'] ++ suffix ++ dots)
    (each : ∀ c ∈ dots, c = '.') (valid : isValidDnsName suffix = true) (labels : '.' ∈ suffix)
    (admitted : admits suffix) (named : IsHostName name) (spelled : Spells host name)
    (inside : name = front ++ '.' :: suffix) (proper : front ≠ [])

section Dns

variable {name text : Text}

theorem mem_intercalate {c mark : Char} {parts : List Text} (mem : c ∈ [mark].intercalate parts) :
    c = mark ∨ ∃ part ∈ parts, c ∈ part := by
  induction parts with
  | nil => cases mem
  | cons first rest ih =>
    cases rest with
    | nil =>
      right
      exact ⟨first, List.mem_singleton_self _, by simpa [List.intercalate] using mem⟩
    | cons next rest =>
      have split :
          [mark].intercalate (first :: next :: rest) = first ++ mark :: [mark].intercalate (next :: rest) := by
        simp [List.intercalate, List.intersperse]
      rw [split, List.mem_append, List.mem_cons] at mem
      obtain here | rfl | later := mem
      · exact .inr ⟨first, List.mem_cons_self, here⟩
      · exact .inl rfl
      · obtain same | ⟨part, inside, here⟩ := ih later
        · exact .inl same
        · exact .inr ⟨part, List.mem_cons_of_mem _ inside, here⟩

theorem labels_of_valid (valid : isValidDnsName name = true) :
    ∀ label ∈ name.splitOn '.', isDnsLabel label = true := by
  simp only [isValidDnsName, Bool.and_eq_true, List.all_eq_true] at valid
  exact valid.2

theorem chars_of_valid (valid : isValidDnsName name = true) : ∀ c ∈ name, c = '.' ∨ isDnsLabelChar c = true := by
  intro c mem
  have whole : ['.'].intercalate (name.splitOn '.') = name := List.intercalate_splitOn '.'
  rw [← whole] at mem
  obtain rfl | ⟨label, inside, here⟩ := mem_intercalate mem
  · exact .inl rfl
  · have label := labels_of_valid valid label inside
    simp only [isDnsLabel, Bool.and_eq_true, List.all_eq_true] at label
    exact .inr (label.2 c here)

theorem not_mem_of_valid (valid : isValidDnsName name = true) {c : Char}
    (other : c ≠ '.' ∧ isDnsLabelChar c = false) : c ∉ name := by
  intro mem
  obtain rfl | label := chars_of_valid valid c mem
  · exact other.1 rfl
  · rw [other.2] at label
    cases label

theorem not_valid_concat (text : Text) : isValidDnsName (text ++ ['.']) = false := by
  rw [Bool.eq_false_iff]
  intro valid
  have labels := labels_of_valid valid
  rw [List.splitOn_append_cons_self] at labels
  have last := labels [] (List.mem_append_right _ (List.mem_singleton_self _))
  cases last

theorem getLast?_of_valid (valid : isValidDnsName name = true) : name.getLast? ≠ some '.' := by
  intro last
  obtain ⟨front, rfl⟩ := List.getLast?_eq_some_iff.1 last
  rw [not_valid_concat] at valid
  cases valid

theorem front_of_valid {front : Text} (valid : isValidDnsName (front ++ '.' :: text) = true) : front ≠ [] := by
  rintro rfl
  have labels := labels_of_valid valid
  rw [List.splitOn_append_cons_self] at labels
  have first := labels [] (List.mem_append_left _ (List.mem_singleton_self _))
  cases first

theorem not_mem_of_spells (valid : isValidDnsName name = true) (spells : Spells text name) {c : Char}
    (other : c ≠ '.' ∧ isDnsLabelChar c = false) : c ∉ text := by
  have outside := not_mem_of_valid valid other
  obtain rfl | rfl := spells
  · exact outside
  · simpa [other.1] using outside

theorem not_wildcard_of_spells (valid : isValidDnsName name = true) (spells : Spells text name) :
    ['*', '.'].isPrefixOf text = false := by
  rw [Bool.eq_false_iff]
  intro wild
  obtain ⟨rest, rfl⟩ := List.isPrefixOf_iff_prefix.1 wild
  exact not_mem_of_spells valid spells (by decide) List.mem_cons_self

theorem normalizeExact_iff (valid : isValidDnsName name = true) :
    normalizeExactValidationHost text = name ↔ Spells text name := by
  unfold normalizeExactValidationHost Spells
  constructor
  · split_ifs with dotted
    · intro same
      simp only [Bool.and_eq_true, decide_eq_true_eq] at dotted
      obtain ⟨front, rfl⟩ := List.getLast?_eq_some_iff.1 dotted.1
      rw [List.dropLast_concat] at same
      exact .inr (by rw [same])
    · exact .inl
  · rintro (rfl | rfl)
    · rw [if_neg]
      simp [getLast?_of_valid valid]
    · have bare := not_wildcard_of_spells valid (.inr rfl)
      rw [if_pos (by simp [bare]), List.dropLast_concat]

theorem strip_brackets_of_spells (valid : isValidDnsName name = true) (spells : Spells text name) :
    (text.dropWhile isBracket).rdropWhile isBracket = text := by
  have outside : ∀ c ∈ text, isBracket c = false := by
    intro c mem
    rw [isBracket, Bool.or_eq_false_iff, decide_eq_false_iff_not, decide_eq_false_iff_not]
    constructor <;>
      · rintro rfl
        exact not_mem_of_spells valid spells (by decide) mem
  have front : text.dropWhile isBracket = text := by
    cases text with
    | nil => rfl
    | cons c rest => rw [List.dropWhile_cons_of_neg (by simp [outside c List.mem_cons_self])]
  rw [front, List.rdropWhile_eq_self_iff]
  intro some
  simp [outside _ (List.getLast_mem some)]

theorem isIpLiteral_of_spells (valid : isValidDnsName name = true) (spells : Spells text name) :
    isIpLiteral text = isIpv4NumericAlias text := by
  have six : isIPv6 text = false := by
    rw [Bool.eq_false_iff]
    exact fun six => not_mem_of_spells valid spells (by decide) (colon_of_isIPv6 six)
  have four : isIPv4 text = true → isIpv4NumericAlias text = true := by
    intro four
    obtain ⟨count, each⟩ := octets_of_isIPv4 four
    simp only [isIpv4NumericAlias, count, Bool.and_eq_true, List.all_eq_true]
    refine ⟨by decide, fun octet mem => ?_⟩
    obtain ⟨some, digits⟩ := each octet mem
    have numbers : octet.all isDigit = true := by
      rw [List.all_eq_true]
      intro c inside
      rw [isDigit, digitValue?_of_isDigit (digits c inside), Option.isSome_some]
    rw [isNumericLabel, numbers, decide_eq_true some]
    rfl
  simp only [isIpLiteral, strip_brackets_of_spells valid spells, isAddress, six, Bool.or_false]
  cases isFour : isIPv4 text with
  | true => rw [four isFour, Bool.true_or]
  | false => rw [Bool.false_or]

theorem not_alias_concat (text : Text) : isIpv4NumericAlias (text ++ ['.']) = false := by
  rw [Bool.eq_false_iff]
  intro alias_
  simp only [isIpv4NumericAlias, Bool.and_eq_true, List.all_eq_true, List.splitOn_append_cons_self] at alias_
  have last := alias_.2 [] (List.mem_append_right _ (List.mem_singleton_self _))
  cases last

theorem IsHostName.not_literal (named : IsHostName name) (spells : Spells text name) :
    isIpLiteral text = false := by
  rw [isIpLiteral_of_spells named.valid spells]
  obtain rfl | rfl := spells
  · exact named.noAlias
  · exact not_alias_concat name

end Dns

section Decisions

variable {lib : UrlLibrary} {raw text name suffix dots : Text}

structure IsExact (text name : Text) : Prop where
  named : IsHostName name
  labels : '.' ∈ name
  spells : Spells text name

theorem IsExact.not_nil (exact : IsExact text name) : text ≠ [] := by
  rintro rfl
  have labels := exact.labels
  obtain same | same := exact.spells
  · rw [← same] at labels
    cases labels
  · cases name <;> cases same

theorem validateDomainPattern_exact (extracted : extractValidationHost lib raw = (text, none))
    (exact : IsExact text name) : validateDomainPattern lib raw = ⟨.allowed, name, "exact_domain"⟩ := by
  have valid := exact.named.valid
  have star : text.contains '*' = false := by
    simpa using not_mem_of_spells valid exact.spells (by decide)
  have dotted : name.contains '.' = true := by simpa using exact.labels
  have some : name ≠ [] := List.ne_nil_of_mem exact.labels
  simp only [validateDomainPattern, extracted, if_neg exact.not_nil, exact.named.not_literal exact.spells,
    exact.named.not_literal (.inl rfl), not_wildcard_of_spells valid exact.spells, star,
    (normalizeExact_iff valid).2 exact.spells, if_neg some, dotted, valid, Bool.false_eq_true,
      Bool.true_eq_false,
    if_false]

theorem validatePolicyDomainPattern_exact (extracted : extractValidationHost lib raw = (text, none))
    (exact : IsExact text name) : validatePolicyDomainPattern lib raw = ⟨.allowed, name, "exact_domain"⟩ := by
  have valid := exact.named.valid
  have star : text.contains '*' = false := by
    simpa using not_mem_of_spells valid exact.spells (by decide)
  have dotted : name.contains '.' = true := by simpa using exact.labels
  simp only [validatePolicyDomainPattern, extracted, if_neg exact.not_nil, exact.named.not_literal (.inl rfl),
    not_wildcard_of_spells valid exact.spells, star, (normalizeExact_iff valid).2 exact.spells, dotted, valid,
    Bool.false_eq_true, Bool.true_eq_false, decide_false, Bool.or_self, if_false]

structure IsWildcard (text suffix dots : Text) : Prop where
  spells : text = ['*', '.'] ++ suffix ++ dots
  each : ∀ c ∈ dots, c = '.'
  valid : isValidDnsName suffix = true
  labels : '.' ∈ suffix

theorem IsWildcard.rdropWhile (wild : IsWildcard text suffix dots) :
    (text.drop 2).rdropWhile (· = '.') = suffix := by
  have reversed : ∀ c ∈ dots.reverse, decide (c = '.') = true := by
    intro c mem
    exact decide_eq_true (wild.each c (List.mem_reverse.1 mem))
  have kept : suffix.rdropWhile (· = '.') = suffix := by
    rw [List.rdropWhile_eq_self_iff]
    intro some
    have last := getLast?_of_valid wild.valid
    rw [List.getLast?_eq_some_getLast some] at last
    simpa using last
  rw [wild.spells, List.append_assoc, List.rdropWhile]
  simp only [List.cons_append, List.nil_append, List.drop_succ_cons, List.drop_zero, List.reverse_append]
  rw [List.dropWhile_append_of_pos reversed]
  exact kept

theorem validatePolicyDomainPattern_wildcard (extracted : extractValidationHost lib raw = (text, none))
    (wild : IsWildcard text suffix dots) :
    validatePolicyDomainPattern lib raw = ⟨.allowed, ['*', '.'] ++ suffix, "wildcard_domain"⟩ := by
  have some : text ≠ [] := by
    rw [wild.spells]
    exact List.cons_ne_nil _ _
  have front : ['*', '.'].isPrefixOf text = true := by
    rw [wild.spells, List.append_assoc]
    rfl
  have count : ¬suffix.count '.' < 1 := by
    have positive := List.count_pos_iff.2 wild.labels
    omega
  simp only [validatePolicyDomainPattern, extracted, if_neg some, front, if_true, wild.rdropWhile, if_neg count,
    wild.valid, Bool.true_eq_false, if_false]

theorem isExact_of_checks (literal : isIpLiteral (normalizeExactValidationHost text) = false)
    (dotted : (normalizeExactValidationHost text).contains '.' = true)
    (valid : isValidDnsName (normalizeExactValidationHost text) = true) :
    IsExact text (normalizeExactValidationHost text) where
  named := ⟨valid, (isIpLiteral_of_spells valid (.inl rfl)).symm.trans literal⟩
  labels := List.contains_iff_mem.1 dotted
  spells := (normalizeExact_iff valid).1 rfl

theorem validatePolicyDomainPattern_cases (allowed : (validatePolicyDomainPattern lib raw).status = .allowed) :
    ∃ text, extractValidationHost lib raw = (text, none) ∧
      ((∃ name, IsExact text name) ∨ ∃ suffix dots, IsWildcard text suffix dots) := by
  unfold validatePolicyDomainPattern at allowed
  generalize extracted : extractValidationHost lib raw = result at allowed
  obtain ⟨text, raised⟩ := result
  cases raised with
  | some raised =>
    dsimp only at allowed
    split_ifs at allowed
  | none =>
    refine ⟨text, rfl, ?_⟩
    dsimp only at allowed
    split_ifs at allowed with empty front few invalid star literal malformed
    · right
      obtain ⟨rest, rfl⟩ := List.isPrefixOf_iff_prefix.1 front
      refine ⟨rest.rdropWhile (· = '.'), rest.rtakeWhile (· = '.'), ?_, ?_, ?_, ?_⟩
      · rw [List.append_assoc, List.rdropWhile_append_rtakeWhile]
      · intro c mem
        simpa using List.mem_rtakeWhile_imp mem
      · simpa using invalid
      · exact List.count_pos_iff.1 (Nat.not_lt.1 few)
    · left
      rw [Bool.not_eq_true] at literal
      rw [Bool.or_eq_true, decide_eq_true_eq, decide_eq_true_eq, not_or, Bool.not_eq_false, Bool.not_eq_false]
        at malformed
      exact ⟨_, isExact_of_checks literal malformed.1 malformed.2⟩

theorem validateDomainPattern_wildcard (extracted : extractValidationHost lib raw = (text, none))
    (wild : IsWildcard text suffix []) (listed : suffix ∈ allowedWildcardSuffixes) :
    validateDomainPattern lib raw = ⟨.allowed, text, "wildcard_domain"⟩ := by
  have spells : text = ['*', '.'] ++ suffix := by rw [wild.spells, List.append_nil]
  have some : text ≠ [] := by
    rw [spells]
    exact List.cons_ne_nil _ _
  have front : ['*', '.'].isPrefixOf text = true := by
    rw [spells]
    rfl
  have drop : text.drop 2 = suffix := by
    rw [spells]
    rfl
  have count : ¬suffix.count '.' < 1 := by
    have positive := List.count_pos_iff.2 wild.labels
    omega
  have literal : isIpLiteral text = false := by
    simp only [allowedWildcardSuffixes, List.mem_singleton] at listed
    rw [spells, listed]
    decide +kernel
  simp only [validateDomainPattern, extracted, if_neg some, literal, front, if_true, drop, if_neg count,
      wild.valid,
    listed, not_true_eq_false, Bool.true_eq_false, Bool.false_eq_true, if_false]

theorem validateDomainPattern_cases (allowed : (validateDomainPattern lib raw).status = .allowed) :
    ∃ text, extractValidationHost lib raw = (text, none) ∧
      ((∃ name, IsExact text name) ∨ ∃ suffix, IsWildcard text suffix [] ∧
        suffix ∈ allowedWildcardSuffixes) := by
  unfold validateDomainPattern at allowed
  generalize extracted : extractValidationHost lib raw = result at allowed
  obtain ⟨text, raised⟩ := result
  cases raised with
  | some raised =>
    dsimp only at allowed
    split_ifs at allowed
  | none =>
    refine ⟨text, rfl, ?_⟩
    dsimp only at allowed
    split_ifs at allowed with empty whole front few invalid unlisted star vanished literal single malformed
    · right
      obtain ⟨rest, rfl⟩ := List.isPrefixOf_iff_prefix.1 front
      refine ⟨rest, ⟨by rw [List.append_nil], List.forall_mem_nil _, ?_, ?_⟩, ?_⟩
      · simpa using invalid
      · exact List.count_pos_iff.1 (Nat.not_lt.1 few)
      · simpa using unlisted
    · left
      rw [Bool.not_eq_true] at literal
      rw [Bool.not_eq_false] at single malformed
      exact ⟨_, isExact_of_checks literal single malformed⟩

end Decisions

section Matching

variable {lib : UrlLibrary} {pattern host : Text}

theorem hostDecision_iff {name : Text} : (validateDomainPattern lib host).status = .allowed ∧
      (validateDomainPattern lib host).normalized.contains '*' = false ∧
      (validateDomainPattern lib host).normalized = name ↔
    ∃ text, extractValidationHost lib host = (text, none) ∧ IsExact text name := by
  constructor
  · rintro ⟨allowed, star, rfl⟩
    obtain ⟨text, extracted, ⟨name, exact⟩ | ⟨suffix, wild, listed⟩⟩ := validateDomainPattern_cases allowed
    · refine ⟨text, extracted, ?_⟩
      rw [validateDomainPattern_exact extracted exact]
      exact exact
    · rw [validateDomainPattern_wildcard extracted wild listed, wild.spells] at star
      cases star
  · rintro ⟨text, extracted, exact⟩
    rw [validateDomainPattern_exact extracted exact]
    exact ⟨rfl, by simpa using not_mem_of_valid exact.named.valid (by decide), rfl⟩

theorem isSuffixOf_dot {name suffix : Text} :
    ('.' :: suffix).isSuffixOf name = true ↔ ∃ front, name = front ++ '.' :: suffix := by
  rw [List.isSuffixOf_iff_suffix]
  exact ⟨fun ⟨front, same⟩ => ⟨front, same.symm⟩, fun ⟨front, same⟩ => ⟨front, same.symm⟩⟩

theorem names_of_exact {admits : Text → Prop} {rule text name : Text} (pattern : IsExact rule name)
    (host : IsExact text name) : Names admits rule text :=
  .exact pattern.named pattern.labels pattern.spells host.spells

theorem names_of_wildcard {admits : Text → Prop} {rule text name suffix dots : Text}
    (pattern : IsWildcard rule suffix dots) (admitted : admits suffix) (named : IsHostName name)
    (spells : Spells text name) (inside : ('.' :: suffix).isSuffixOf name = true) : Names admits rule text := by
  obtain ⟨front, rfl⟩ := isSuffixOf_dot.1 inside
  exact .wildcard pattern.spells pattern.each pattern.valid pattern.labels admitted named spells rfl
    (front_of_valid named.valid)

theorem isExact_of_wildcard {text name suffix front : Text} (named : IsHostName name) (spells : Spells text name)
    (inside : name = front ++ '.' :: suffix) : IsExact text name where
  named := named
  labels := by
    rw [inside]
    exact List.mem_append_right _ List.mem_cons_self
  spells := spells

theorem policyDomainMatches_iff : policyDomainMatches lib pattern host = true ↔
      ∃ rule text, extractValidationHost lib pattern = (rule, none) ∧
        extractValidationHost lib host = (text, none) ∧ Names (fun _ => True) rule text := by
  constructor
  · intro found
    unfold policyDomainMatches at found
    dsimp only at found
    rw [Bool.if_false_left, Bool.if_false_left] at found
    simp only [Bool.and_eq_true, Bool.not_eq_true', Bool.or_eq_false_iff, decide_eq_false_iff_not,
      not_not, Bool.decide_eq_true] at found
    obtain ⟨allowed, ⟨hostAllowed, star⟩, found⟩ := found
    obtain ⟨text, read, host⟩ := hostDecision_iff.1 ⟨hostAllowed, star, rfl⟩
    obtain ⟨rule, extracted, ⟨name, exact⟩ | ⟨suffix, dots, wild⟩⟩ := validatePolicyDomainPattern_cases allowed
    · refine ⟨rule, text, extracted, read, names_of_exact exact ?_⟩
      rw [validatePolicyDomainPattern_exact extracted exact] at found
      dsimp only at found
      rw [not_wildcard_of_spells exact.named.valid (.inl rfl), if_neg Bool.false_ne_true,
          decide_eq_true_eq] at found
      rwa [found] at host
    · refine ⟨rule, text, extracted, read, names_of_wildcard wild trivial host.named host.spells ?_⟩
      rw [validatePolicyDomainPattern_wildcard extracted wild] at found
      exact found
  · rintro ⟨rule, text, extracted, read, names⟩
    cases names with
    | exact named labels spells spelled =>
      rw [policyDomainMatches, validatePolicyDomainPattern_exact extracted ⟨named, labels, spells⟩,
        validateDomainPattern_exact read ⟨named, labels, spelled⟩]
      simp [not_wildcard_of_spells named.valid (.inl rfl), not_mem_of_valid named.valid (c := '*') (by decide)]
    | wildcard spells each valid labels admitted named spelled inside proper =>
      rw [policyDomainMatches, validatePolicyDomainPattern_wildcard extracted ⟨spells, each, valid, labels⟩,
        validateDomainPattern_exact read (isExact_of_wildcard named spelled inside)]
      simp [inside, not_mem_of_valid (inside ▸ named.valid) (c := '*') (by decide)]

def DottedWildcard (rule : Text) : Prop := ['*', '.'] <+: rule ∧ rule.getLast? = some '.'

theorem not_dotted_of_exact {rule name : Text} (exact : IsExact rule name) : ¬DottedWildcard rule := by
  rintro ⟨wild, -⟩
  have plain := not_wildcard_of_spells exact.named.valid exact.spells
  rw [List.isPrefixOf_iff_prefix.2 wild] at plain
  cases plain

theorem IsWildcard.dotted_iff {rule suffix dots : Text} (wild : IsWildcard rule suffix dots) :
    DottedWildcard rule ↔ dots ≠ [] := by
  have front : ['*', '.'] <+: rule := by
    rw [wild.spells, List.append_assoc]
    exact List.prefix_append _ _
  rw [DottedWildcard, and_iff_right front, wild.spells]
  constructor
  · rintro last rfl
    obtain some := List.ne_nil_of_mem wild.labels
    rw [List.append_nil, List.getLast?_append_of_ne_nil _ some] at last
    exact getLast?_of_valid wild.valid last
  · intro some
    rw [List.getLast?_append_of_ne_nil _ some, List.getLast?_eq_some_getLast some,
        wild.each _ (List.getLast_mem some)]

theorem domainMatches_iff : domainMatches lib pattern host = true ↔
      ∃ rule text, extractValidationHost lib pattern = (rule, none) ∧
        extractValidationHost lib host = (text, none) ∧ Names (· ∈ allowedWildcardSuffixes) rule text ∧
        ¬DottedWildcard rule := by
  constructor
  · intro found
    unfold domainMatches at found
    dsimp only at found
    generalize read : extractValidationHost lib host = result at found
    obtain ⟨text, raised⟩ := result
    dsimp only at found
    split_ifs at found with refused raises unnamed front
    all_goals
      rw [not_not] at refused raises
      subst raises
      simp only [Bool.or_eq_true, Bool.not_eq_true', not_or, Bool.not_eq_true, Bool.not_eq_false] at unnamed
      have valid := unnamed.2
      have named : IsHostName (normalizeExactValidationHost text) :=
        ⟨valid, (isIpLiteral_of_spells valid (.inl rfl)).symm.trans unnamed.1⟩
      have spells := (normalizeExact_iff valid).1 rfl
      obtain ⟨rule, extracted, ⟨name, exact⟩ | ⟨suffix, wild, listed⟩⟩ := validateDomainPattern_cases refused
    · rw [validateDomainPattern_exact extracted exact,
          not_wildcard_of_spells exact.named.valid (.inl rfl)] at front
      cases front
    · refine ⟨rule, text, extracted, rfl, names_of_wildcard wild listed named spells ?_, ?_⟩
      · rw [validateDomainPattern_wildcard extracted wild listed, wild.spells] at found
        simpa using found
      · rw [wild.dotted_iff, not_not]
    · rw [validateDomainPattern_exact extracted exact, decide_eq_true_eq] at found
      dsimp only at found
      refine ⟨rule, text, extracted, rfl, names_of_exact exact ?_, not_dotted_of_exact exact⟩
      rw [found] at spells
      exact ⟨exact.named, exact.labels, spells⟩
    · rw [validateDomainPattern_wildcard extracted wild listed, wild.spells] at front
      exact absurd rfl front
  · rintro ⟨rule, text, extracted, read, names, plain⟩
    cases names with
    | @exact name named labels spells spelled =>
      have literal : isIpLiteral name = false := named.not_literal (.inl rfl)
      rw [domainMatches, validateDomainPattern_exact extracted ⟨named, labels, spells⟩, read]
      simp [(normalizeExact_iff named.valid).2 spelled, literal, named.valid,
        not_wildcard_of_spells named.valid (.inl rfl)]
    | @wildcard name suffix dots front spells each valid labels listed named spelled inside proper =>
      have wild : IsWildcard rule suffix dots := ⟨spells, each, valid, labels⟩
      have bare : dots = [] := not_not.1 (mt wild.dotted_iff.2 plain)
      subst bare
      have literal : isIpLiteral name = false := named.not_literal (.inl rfl)
      have starts : ['*', '.'].isPrefixOf rule = true := by simp [spells]
      have rest : rule.drop 2 = suffix := by simp [spells]
      have ends : ('.' :: suffix).isSuffixOf name = true := isSuffixOf_dot.2 ⟨front, inside⟩
      rw [domainMatches, validateDomainPattern_wildcard extracted wild listed, read]
      simp only [(normalizeExact_iff named.valid).2 spelled, literal, named.valid, starts, rest, ends]
      rfl

end Matching

section Rewriting

variable {lib : UrlLibrary} {pattern host host' text rule : Text} {admits : Text → Prop}

theorem Names.exists_exact (names : Names admits rule text) : ∃ name, IsExact text name := by
  cases names with
  | exact named labels spells spelled => exact ⟨_, named, labels, spelled⟩
  | wildcard spells each valid labels listed named spelled inside proper =>
    exact ⟨_, isExact_of_wildcard named spelled inside⟩

-- The host part of a text is the name, with or without a dot.
def IsNamed (lib : UrlLibrary) (raw name : Text) : Prop :=
  ∃ text, extractValidationHost lib raw = (text, none) ∧ IsExact text name

theorem exists_isNamed (matched : policyDomainMatches lib pattern host = true ∨
    domainMatches lib pattern host = true) : ∃ name, IsNamed lib host name := by
  obtain matched | matched := matched
  · obtain ⟨rule, text, -, read, names⟩ := policyDomainMatches_iff.1 matched
    obtain ⟨name, exact⟩ := names.exists_exact
    exact ⟨name, text, read, exact⟩
  · obtain ⟨rule, text, -, read, names, -⟩ := domainMatches_iff.1 matched
    obtain ⟨name, exact⟩ := names.exists_exact
    exact ⟨name, text, read, exact⟩

theorem names_of_isNamed (same : ∀ name, IsNamed lib host name → IsNamed lib host' name)
    (read : extractValidationHost lib host = (text, none)) (names : Names admits rule text) :
    ∃ text', extractValidationHost lib host' = (text', none) ∧ Names admits rule text' := by
  cases names with
  | @exact name named labels spells spelled =>
    obtain ⟨text', read', exact⟩ := same name ⟨text, read, named, labels, spelled⟩
    exact ⟨text', read', .exact named labels spells exact.spells⟩
  | @wildcard name suffix dots front spells each valid labels admitted named spelled inside proper =>
    obtain ⟨text', read', exact⟩ := same name ⟨text, read, isExact_of_wildcard named spelled inside⟩
    exact ⟨text', read', .wildcard spells each valid labels admitted named exact.spells inside proper⟩

theorem matches_of_isNamed (same : ∀ name, IsNamed lib host name → IsNamed lib host' name) :
    (policyDomainMatches lib pattern host = true → policyDomainMatches lib pattern host' = true) ∧
      (domainMatches lib pattern host = true → domainMatches lib pattern host' = true) := by
  constructor
  · intro matched
    obtain ⟨rule, text, extracted, read, names⟩ := policyDomainMatches_iff.1 matched
    obtain ⟨text', read', names'⟩ := names_of_isNamed same read names
    exact policyDomainMatches_iff.2 ⟨rule, text', extracted, read', names'⟩
  · intro matched
    obtain ⟨rule, text, extracted, read, names, plain⟩ := domainMatches_iff.1 matched
    obtain ⟨text', read', names'⟩ := names_of_isNamed same read names
    exact domainMatches_iff.2 ⟨rule, text', extracted, read', names', plain⟩

theorem matches_congr (same : ∀ name, IsNamed lib host name ↔ IsNamed lib host' name) :
    policyDomainMatches lib pattern host = policyDomainMatches lib pattern host' ∧
      domainMatches lib pattern host = domainMatches lib pattern host' := by
  have forth := @matches_of_isNamed lib pattern host host' fun name => (same name).1
  have back := @matches_of_isNamed lib pattern host' host fun name => (same name).2
  exact ⟨Bool.eq_iff_iff.2 ⟨forth.1, back.1⟩, Bool.eq_iff_iff.2 ⟨forth.2, back.2⟩⟩

/-- A host by itself: no scheme, port, path or dot at the end, and no blanks or control characters. -/
structure IsBare (lib : UrlLibrary) (text : Text) : Prop where
  front : ∀ c, text.head? = some c → isSpace c = false
  back : ∀ c, text.getLast? = some c → isSpace c = false
  lowered : lib.lower text ≠ []
  plain : ∀ c ∈ lib.lower text, 32 < c.toNat ∧ c ≠ '/' ∧ c ≠ ':'
  undotted : (lib.lower text).getLast? ≠ some '.'

-- A host in another case, with a dot, a port or a path behind it.
structure Rewriting (lib : UrlLibrary) (host : Text) where
  name : Text
  dot : Bool
  port : Option Text
  path : Option Text
  bare : IsBare lib name
  sameCase : lib.lower name = lib.lower host
  valid : ∀ digits, port = some digits → isValidPort digits = true

theorem marker_of_append {front rest : Text} (slash : '/' ∉ front) (colon : front.getLast? ≠ some ':')
    (marked : [':', '/', '/'] <:+: front ++ rest) : [':', '/', '/'] <:+: rest := by
  obtain ⟨before, after, same⟩ := marked
  rw [List.append_assoc] at same
  obtain ⟨middle, rfl, split⟩ | ⟨middle, rfl, split⟩ := List.append_eq_append_iff.1 same
  · cases middle with
    | nil => exact ⟨[], after, split⟩
    | cons first middle =>
      -- the marker would begin in front of the rest
      exfalso
      obtain ⟨rfl, tail⟩ := List.cons.inj split
      cases middle with
      | nil => exact colon (List.getLast?_append_of_ne_nil _ (List.cons_ne_nil _ _))
      | cons second middle =>
        obtain ⟨rfl, -⟩ := List.cons.inj tail
        exact slash (by simp)
  · exact ⟨middle, after, by rw [split, List.append_assoc]⟩

theorem marker_rdropWhile {text : Text} :
    [':', '/', '/'] <:+: text.rdropWhile isSpace ↔ [':', '/', '/'] <:+: text := by
  have whole : text.rdropWhile isSpace ++ text.rtakeWhile isSpace = text := List.rdropWhile_append_rtakeWhile
  constructor
  · intro marked
    rw [← whole]
    exact marked.trans (List.prefix_append _ _).isInfix
  · rintro ⟨before, after, same⟩
    have blanks : '/' ∉ text.rtakeWhile isSpace := by
      intro mem
      have blank := List.mem_rtakeWhile_imp mem
      cases blank
    rw [← whole, List.append_assoc] at same
    obtain ⟨middle, kept, split⟩ | ⟨middle, -, split⟩ := List.append_eq_append_iff.1 same
    · have long : [':', '/', '/'] <+: middle := by
        obtain ⟨rest, split, -⟩ | ⟨rest, split, cut⟩ := List.append_eq_append_iff.1 split
        · exact ⟨rest, split.symm⟩
        · cases rest with
          | nil => exact ⟨[], by simpa using split⟩
          | cons c rest =>
            -- what is cut off the marker ends in a slash
            have last : '/' ∈ c :: rest := by
              have ends := congrArg List.getLast? split
              rw [List.getLast?_append_of_ne_nil _ (List.cons_ne_nil _ _)] at ends
              exact List.mem_of_getLast? ends.symm
            exact absurd (cut ▸ List.mem_append_left _ last) blanks
      obtain ⟨rest, rfl⟩ := long
      exact ⟨before, rest, by rw [kept, List.append_assoc]⟩
    · refine absurd ?_ blanks
      rw [split]
      simp

theorem rdropWhile_slash (front path : Text) :
    (front ++ '/' :: path).rdropWhile isSpace = front ++ '/' :: path.rdropWhile isSpace := by
  have slash : isSpace '/' = false := by decide
  rw [List.rdropWhile, List.rdropWhile, List.reverse_append, List.reverse_cons, List.append_assoc,
      List.dropWhile_append]
  split
  next blank =>
    rw [List.isEmpty_iff.1 blank, List.singleton_append, List.dropWhile_cons_of_neg (by simp [slash]),
        List.reverse_cons,
      List.reverse_reverse]
    rfl
  next => simp

theorem isSpace_of_isDigit {c : Char} (digit : c.isDigit = true) : isSpace c = false := by
  have apart : ∀ n ∈ spaces, n < 48 ∨ 57 < n := by decide
  rw [Char.isDigit, Bool.and_eq_true, decide_eq_true_eq, decide_eq_true_eq] at digit
  have low : 48 ≤ c.toNat := digit.1
  have high : c.toNat ≤ 57 := digit.2
  rw [Bool.eq_false_iff]
  intro space
  have outside := apart _ (List.contains_iff_mem.1 space)
  omega

theorem takeWhile_slash {front rest : Text} (slash : '/' ∉ front)
    (path : rest = [] ∨ ∃ path, rest = '/' :: path) : (front ++ rest).takeWhile (· ≠ '/') = front := by
  rw [List.takeWhile_append_of_pos]
  · obtain rfl | ⟨path, rfl⟩ := path
    · exact List.append_nil _
    · rw [List.takeWhile_cons_of_neg (by simp), List.append_nil]
  · intro c mem
    refine decide_eq_true ?_
    rintro rfl
    exact slash mem

-- A text with a path has no scheme, as there is no colon in front of its first slash.
theorem not_located_of_path {front rest : Text} (slash : '/' ∉ front) (colon : front.getLast? ≠ some ':')
    (some : front ≠ []) (visible : ∀ c ∈ front, 32 < c.toNat) (path : rest = [] ∨ ∃ path, rest = '/' :: path)
    (located : Text) :
    ¬(HasScheme (front ++ rest) located ∨ cleaned (front ++ rest) = '/' :: '/' :: located) := by
  have pathed : (rest.filter fun c => !(['\t', '\r', '\n'].contains c)) = [] ∨
      ∃ path, (rest.filter fun c => !(['\t', '\r', '\n'].contains c)) = '/' :: path := by
    obtain rfl | ⟨path, rfl⟩ := path
    · exact .inl rfl
    · exact .inr ⟨_, List.filter_cons_of_pos (by decide)⟩
  have taken := takeWhile_slash slash pathed
  unfold HasScheme
  rw [cleaned_of_visible some visible]
  rintro (⟨scheme, named, whole⟩ | whole)
  · have nameless : '/' ∉ scheme ++ [':'] := by
      intro mem
      obtain mem | mem := List.mem_append.1 mem
      · have plain := named.chars _ mem
        revert plain
        decide
      · cases List.mem_singleton.1 mem
    have same : scheme ++ [':'] = front := by
      rw [← taken, whole, ← takeWhile_slash nameless (.inr ⟨'/' :: located, rfl⟩)]
      simp
    rw [← same] at colon
    exact colon List.getLast?_concat
  · rw [whole, List.takeWhile_cons_of_neg (by simp)] at taken
    exact some taken.symm

theorem networkLocation_of_path {front rest : Text} (slash : '/' ∉ front) (colon : front.getLast? ≠ some ':')
    (some : front ≠ []) (visible : ∀ c ∈ front, 32 < c.toNat) (path : rest = [] ∨ ∃ path, rest = '/' :: path) :
    networkLocation (front ++ rest) = [] := by
  by_contra located
  obtain ⟨located, found⟩ := located_of_networkLocation located
  exact not_located_of_path slash colon some visible path located found

theorem Rewriting.lowered (rewriting : Rewriting lib host) : lib.lower host ≠ [] := by
  rw [← rewriting.sameCase]
  exact rewriting.bare.lowered

theorem Rewriting.plain (rewriting : Rewriting lib host) :
    ∀ c ∈ lib.lower host, 32 < c.toNat ∧ c ≠ '/' ∧ c ≠ ':' := by
  rw [← rewriting.sameCase]
  exact rewriting.bare.plain

namespace Rewriting

variable (rewriting : Rewriting lib host)

def dotText : Text := if rewriting.dot then ['.'] else []

def portText : Text := rewriting.port.elim [] (':' :: ·)

def pathText : Text := rewriting.path.elim [] ('/' :: ·)

def spelling : Text := rewriting.name ++ (rewriting.dotText ++ rewriting.portText) ++ rewriting.pathText

def Marked : Prop := ∃ path, rewriting.path = some path ∧ [':', '/', '/'] <:+: path

def readPath : Text :=
  rewriting.path.elim [] fun path => '/' :: lib.lower (path.rdropWhile isSpace)

theorem dotText_chars {c : Char} (mem : c ∈ rewriting.dotText) : c = '.' := by
  unfold dotText at mem
  split at mem
  · exact List.mem_singleton.1 mem
  · cases mem

theorem digits_of_port {digits : Text} (port : rewriting.port = some digits) :
    digits ≠ [] ∧ ∀ c ∈ digits, c.isDigit = true := by
  have valid := rewriting.valid digits port
  simp only [isValidPort, Bool.and_eq_true, List.all_eq_true, decide_eq_true_eq] at valid
  exact ⟨valid.1.1.1, valid.1.2⟩

theorem suffix_chars : ∀ c ∈ rewriting.dotText ++ rewriting.portText, c = '.' ∨ c = ':' ∨ c.isDigit = true := by
  intro c mem
  obtain mem | mem := List.mem_append.1 mem
  · exact .inl (rewriting.dotText_chars mem)
  · unfold portText at mem
    cases port : rewriting.port with
    | none =>
      rw [port] at mem
      cases mem
    | some digits =>
      rw [port, Option.elim_some, List.mem_cons] at mem
      obtain colon | digit := mem
      · exact .inr (.inl colon)
      · exact .inr (.inr ((rewriting.digits_of_port port).2 c digit))

theorem suffix_last {c : Char} (last : (rewriting.dotText ++ rewriting.portText).getLast? = some c) :
    c = '.' ∨ c.isDigit = true := by
  unfold portText at last
  cases port : rewriting.port with
  | none =>
    rw [port, Option.elim_none, List.append_nil] at last
    exact .inl (rewriting.dotText_chars (List.mem_of_getLast? last))
  | some digits =>
    obtain ⟨some, each⟩ := rewriting.digits_of_port port
    rw [port, Option.elim_some, List.getLast?_append_of_ne_nil _ (List.cons_ne_nil _ _),
      ← List.singleton_append, List.getLast?_append_of_ne_nil _ some] at last
    exact .inr (each c (List.mem_of_getLast? last))

theorem readable : (lib.lower host ++ (rewriting.dotText ++ rewriting.portText)).getLast? ≠ some ':' ∧
    '/' ∉ lib.lower host ++ (rewriting.dotText ++ rewriting.portText) := by
  have plain := rewriting.plain
  constructor
  · intro last
    cases suffix : rewriting.dotText ++ rewriting.portText with
    | nil =>
      rw [suffix, List.append_nil] at last
      exact (plain _ (List.mem_of_getLast? last)).2.2 rfl
    | cons c rest =>
      rw [List.getLast?_append_of_ne_nil _ (suffix ▸ List.cons_ne_nil _ _)] at last
      obtain dot | digit := rewriting.suffix_last last
      · cases dot
      · cases digit
  · intro mem
    obtain mem | mem := List.mem_append.1 mem
    · exact (plain _ mem).2.1 rfl
    · obtain dot | colon | digit := rewriting.suffix_chars _ mem
      · cases dot
      · cases colon
      · cases digit

theorem visible : ∀ c ∈ lib.lower host ++ (rewriting.dotText ++ rewriting.portText), 32 < c.toNat := by
  intro c mem
  obtain mem | mem := List.mem_append.1 mem
  · exact (rewriting.plain c mem).1
  · obtain rfl | rfl | digit := rewriting.suffix_chars _ mem
    · decide
    · decide
    · rw [Char.isDigit, Bool.and_eq_true, decide_eq_true_eq, decide_eq_true_eq] at digit
      have low : 48 ≤ c.toNat := digit.1
      omega

theorem strip_spelling : strip rewriting.spelling =
    rewriting.name ++ (rewriting.dotText ++ rewriting.portText) ++
      rewriting.path.elim [] fun path => '/' :: path.rdropWhile isSpace := by
  have some : rewriting.name ≠ [] := by
    intro empty
    exact rewriting.bare.lowered (by rw [empty, lib.lower_nil])
  obtain ⟨first, name, named⟩ := List.exists_cons_of_ne_nil some
  have front : isSpace first = false := rewriting.bare.front first (by rw [named]; rfl)
  have back : ∀ c, (rewriting.name ++ (rewriting.dotText ++ rewriting.portText)).getLast? = Option.some c →
      isSpace c = false := by
    intro c last
    cases suffix : rewriting.dotText ++ rewriting.portText with
    | nil =>
      rw [suffix, List.append_nil] at last
      exact rewriting.bare.back c last
    | cons next rest =>
      rw [List.getLast?_append_of_ne_nil _ (suffix ▸ List.cons_ne_nil _ _)] at last
      obtain rfl | digit := rewriting.suffix_last last
      · decide
      · exact isSpace_of_isDigit digit
  rw [spelling, pathText]
  cases path : rewriting.path with
  | none =>
    rw [Option.elim_none, Option.elim_none, List.append_nil]
    refine strip_of_edges (fun c head => ?_) back
    rw [named, List.cons_append, List.head?_cons, Option.some.injEq] at head
    rwa [← head]
  | some path =>
    simp only [Option.elim_some, named, List.cons_append]
    rw [strip_cons front, rdropWhile_slash]

theorem lower_spelling : lib.lower (strip rewriting.spelling) =
    lib.lower host ++ (rewriting.dotText ++ rewriting.portText) ++ rewriting.readPath := by
  rw [strip_spelling, readPath]
  cases rewriting.path with
  | none =>
    rw [Option.elim_none, Option.elim_none, List.append_nil, List.append_nil,
      lib.lower_suffix _ _ rewriting.suffix_chars, rewriting.sameCase]
  | some path =>
    rw [Option.elim_some, Option.elim_some, lib.lower_slash, lib.lower_suffix _ _ rewriting.suffix_chars,
      rewriting.sameCase]

theorem marked_iff : [':', '/', '/'] <:+: lib.lower (strip rewriting.spelling) ↔ rewriting.Marked := by
  have behind : [':', '/', '/'] <:+: rewriting.readPath ↔ rewriting.Marked := by
    unfold readPath Marked
    cases rewriting.path with
    | none => simp
    | some path =>
      have front : ¬[':', '/', '/'] <+: '/' :: lib.lower (path.rdropWhile isSpace) := by
        rintro ⟨rest, same⟩
        cases same
      simp only [Option.elim_some, List.infix_cons_iff, front, false_or, lib.lower_marker, marker_rdropWhile,
        Option.some.injEq, exists_eq_left']
  rw [← behind, lower_spelling]
  constructor
  · exact marker_of_append rewriting.readable.2 rewriting.readable.1
  · intro marked
    exact marked.trans (List.suffix_append _ _).isInfix

theorem lower_spelling_ne_nil : lib.lower (strip rewriting.spelling) ≠ [] := by
  rw [lower_spelling, List.append_assoc]
  exact List.append_ne_nil_of_left_ne_nil rewriting.lowered _

theorem readPath_cases : rewriting.readPath = [] ∨ ∃ path, rewriting.readPath = '/' :: path := by
  unfold readPath
  cases rewriting.path with
  | none => exact .inl rfl
  | some path => exact .inr ⟨_, rfl⟩

theorem extract_of_unmarked (unmarked : ¬rewriting.Marked) (plain : (lib.lower host).head? ≠ some '[') :
    extractValidationHost lib rewriting.spelling = (lib.lower host ++ rewriting.dotText, none) := by
  have whole := takeWhile_slash rewriting.readable.2 rewriting.readPath_cases
  have colons : ∀ c ∈ lib.lower host ++ rewriting.dotText, c ≠ ':' := by
    intro c mem
    obtain mem | mem := List.mem_append.1 mem
    · exact (rewriting.plain c mem).2.2
    · rw [rewriting.dotText_chars mem]
      decide
  have none_ : (lib.lower host ++ rewriting.dotText).count ':' = 0 :=
    List.count_eq_zero.2 fun mem => colons _ mem rfl
  have head : (lib.lower host ++ rewriting.dotText ++ rewriting.portText).head? ≠ some '[' := by
    rwa [List.append_assoc, List.head?_append_of_ne_nil _ rewriting.lowered]
  rw [extractValidationHost, if_neg rewriting.lower_spelling_ne_nil, if_neg (mt rewriting.marked_iff.1 unmarked),
    lower_spelling, extractPlainHost, whole, ← List.append_assoc, if_neg head]
  unfold portText
  cases port : rewriting.port with
  | none =>
    rw [Option.elim_none, List.append_nil, none_, if_neg (by decide)]
  | some digits =>
    have each := (rewriting.digits_of_port port).2
    have rest : digits.count ':' = 0 := by
      refine List.count_eq_zero.2 fun mem => ?_
      cases each _ mem
    have keeps : ∀ c ∈ lib.lower host ++ rewriting.dotText, decide (c ≠ ':') = true :=
      fun c mem => decide_eq_true (colons c mem)
    rw [Option.elim_some, List.count_append, none_, List.count_cons, rest, if_pos (by decide),
      List.dropWhile_append_of_pos keeps, List.takeWhile_append_of_pos keeps]
    simp [rewriting.valid digits port]

theorem extract_of_marked (marked : rewriting.Marked) :
    (extractValidationHost lib rewriting.spelling).1 = [] := by
  have location : networkLocation (lib.lower (strip rewriting.spelling)) = [] := by
    rw [lower_spelling]
    exact networkLocation_of_path rewriting.readable.2 rewriting.readable.1
      (List.append_ne_nil_of_left_ne_nil rewriting.lowered _) rewriting.visible rewriting.readPath_cases
  rw [extractValidationHost, if_neg, if_pos (rewriting.marked_iff.2 marked), extractUrlHost, netloc, location]
  · have nameless : hostname lib [] = [] := by
      rw [hostname]
      exact (List.append_nil _).trans lib.lower_nil
    split
    · rfl
    · next found =>
      split_ifs at found
      cases found
      split_ifs <;> exact nameless
  · exact rewriting.lower_spelling_ne_nil

theorem isExact_dotText {name : Text} : IsExact (lib.lower host ++ rewriting.dotText) name ↔
    IsExact (lib.lower host) name := by
  have undotted := rewriting.bare.undotted
  rw [rewriting.sameCase] at undotted
  unfold dotText
  split
  · constructor
    · rintro ⟨named, labels, whole | same⟩
      · have valid := named.valid
        rw [← whole, not_valid_concat] at valid
        cases valid
      · exact ⟨named, labels, .inl (List.append_cancel_right same)⟩
    · rintro ⟨named, labels, rfl | same⟩
      · exact ⟨named, labels, .inr rfl⟩
      · rw [same] at undotted
        exact absurd List.getLast?_concat undotted
  · rw [List.append_nil]

theorem head?_extractBracketed {text : Text} (bracket : text.head? = some '[') :
    (extractBracketed text).1.head? = some '[' := by
  obtain ⟨rest, rfl⟩ := List.head?_eq_some_iff.1 bracket
  unfold extractBracketed
  split_ifs
  · dsimp only
    split
    · rfl
    · split_ifs <;> rfl
    · rfl
  · rfl

theorem not_isExact_of_bracket {text name : Text} (bracket : text.head? = some '[') : ¬IsExact text name := by
  intro exact
  exact not_mem_of_spells exact.named.valid exact.spells (c := '[') (by decide) (List.mem_of_head? bracket)

theorem isNamed_of_unmarked (unmarked : ¬rewriting.Marked) (name : Text) :
    IsNamed lib rewriting.spelling name ↔ IsExact (lib.lower host) name := by
  by_cases plain : (lib.lower host).head? = some '['
  · refine iff_of_false ?_ (not_isExact_of_bracket plain)
    rintro ⟨text, read, exact⟩
    have bracket : (extractValidationHost lib rewriting.spelling).1.head? = some '[' := by
      have front : (lib.lower host ++ (rewriting.dotText ++ rewriting.portText)).head? = some '[' := by
        rwa [List.head?_append_of_ne_nil _ rewriting.lowered]
      rw [extractValidationHost, if_neg rewriting.lower_spelling_ne_nil,
          if_neg (mt rewriting.marked_iff.1 unmarked),
        lower_spelling, extractPlainHost, takeWhile_slash rewriting.readable.2 rewriting.readPath_cases,
          if_pos front]
      exact head?_extractBracketed front
    rw [read] at bracket
    exact not_isExact_of_bracket bracket exact
  · rw [IsNamed, rewriting.extract_of_unmarked unmarked plain, ← rewriting.isExact_dotText]
    simp

theorem valid_of_none (digits : Text) (absent : none = some digits) : isValidPort digits = true := by
  cases absent

def itself (bare : IsBare lib host) : Rewriting lib host where
  name := host
  dot := false
  port := none
  path := none
  bare := bare
  sameCase := rfl
  valid := valid_of_none

theorem isNamed_host (bare : IsBare lib host) (name : Text) :
    IsNamed lib host name ↔ IsExact (lib.lower host) name := by
  have spelled : (itself bare).spelling = host := by simp [spelling, dotText, portText, pathText, itself]
  have unmarked : ¬(itself bare).Marked := by simp [Marked, itself]
  rw [← isNamed_of_unmarked _ unmarked, spelled]

theorem isExact_lower (bare : IsBare lib host) {name : Text} :
    IsExact (lib.lower host) name ↔ name = lib.lower host ∧ IsHostName (lib.lower host) ∧
      '.' ∈ lib.lower host := by
  constructor
  · rintro ⟨named, labels, rfl | same⟩
    · exact ⟨rfl, named, labels⟩
    · have undotted := bare.undotted
      rw [same] at undotted
      exact absurd List.getLast?_concat undotted
  · rintro ⟨rfl, named, labels⟩
    exact ⟨named, labels, .inl rfl⟩

theorem not_isNamed_of_marked (marked : rewriting.Marked) (name : Text) :
    ¬IsNamed lib rewriting.spelling name := by
  rintro ⟨text, read, exact⟩
  have empty := rewriting.extract_of_marked marked
  rw [read] at empty
  exact exact.not_nil empty

theorem answers_stay_iff (bare : IsBare lib host) : (∀ pattern,
      policyDomainMatches lib pattern rewriting.spelling = policyDomainMatches lib pattern host ∧
      domainMatches lib pattern rewriting.spelling = domainMatches lib pattern host) ↔
      ¬(rewriting.Marked ∧ IsHostName (lib.lower host) ∧ '.' ∈ lib.lower host) := by
  constructor
  · rintro stay ⟨marked, named, labels⟩
    obtain ⟨text, read, exact⟩ := (isNamed_host bare _).2 ((isExact_lower bare).2 ⟨rfl, named, labels⟩)
    have matched : policyDomainMatches lib host host = true :=
      policyDomainMatches_iff.2 ⟨text, text, read, read, .exact named labels exact.spells exact.spells⟩
    rw [← (stay host).1] at matched
    obtain ⟨name, found⟩ := exists_isNamed (.inl matched)
    exact rewriting.not_isNamed_of_marked marked name found
  · intro harmless pattern
    by_cases marked : rewriting.Marked
    · refine matches_congr fun name => iff_of_false (rewriting.not_isNamed_of_marked marked name) ?_
      rw [isNamed_host bare, isExact_lower bare]
      exact fun ⟨_, host⟩ => harmless ⟨marked, host⟩
    · exact matches_congr fun name => (rewriting.isNamed_of_unmarked marked name).trans
          (isNamed_host bare name).symm

end Rewriting

end Rewriting

end OpenSquilla.Sandbox
