import OpenSquilla.Shared.TextScan

set_option autoImplicit false

-- What `ipaddress.ip_address` accepts: four decimal octets without leading zeros, or eight groups
-- of hexadecimal digits, of which one run of zeros may be left out and the last two may be written
-- as octets.

namespace IpAddress

open TextLines TextScan

def isOctet (text : Text) : Bool :=
  text ≠ [] && text.all Char.isDigit && text.length ≤ 3 && (text = ['0'] || text.head? ≠ some '0') &&
    decimal text ≤ 255

def isIPv4 (text : Text) : Bool :=
  let octets := text.splitOn '.'
  octets.length = 4 && octets.all isOctet

def isHexDigit (c : Char) : Bool := c.isDigit || 'a' ≤ c && c ≤ 'f' || 'A' ≤ c && c ≤ 'F'

def isHextet (text : Text) : Bool := text ≠ [] && text.all isHexDigit && text.length ≤ 4

/-- The groups beside a `::`. The colon at an end of the address has no group before or behind it. -/
def sideLength (side : List Text) (edge : Option Text) : Option Nat :=
  if edge = some [] then if side.length = 1 then some 0 else none
  else if side.all isHextet then some side.length
  else none

def areGroups (parts : List Text) : Bool :=
  let skips := (List.range parts.length).filter
    (fun i => 0 < i && i + 1 < parts.length && parts[i]? = some [])
  match skips with
  | [] => parts.length = 8 && parts.all isHextet
  | [skip] =>
    match sideLength (parts.take skip) parts.head?, sideLength (parts.drop (skip + 1)) parts.getLast? with
    | some before, some after => before + after < 8
    | _, _ => false
  | _ => false

def isGrouped (address : Text) : Bool :=
  let parts := address.splitOn ':'
  let dotted := (parts.getLast?.getD []).contains '.'
  3 ≤ parts.length && (!dotted || isIPv4 (parts.getLast?.getD [])) &&
    areGroups (if dotted then parts.dropLast ++ [['0'], ['0']] else parts)

def isIPv6 (text : Text) : Bool :=
  let zone := (text.dropWhile (· ≠ '%')).tail
  !text.contains '/' && (!text.contains '%' || zone ≠ [] && !zone.contains '%') &&
    isGrouped (text.takeWhile (· ≠ '%'))

def isAddress (text : Text) : Bool := isIPv4 text || isIPv6 text

theorem colon_of_isIPv6 {text : Text} (accepted : isIPv6 text = true) : ':' ∈ text := by
  by_contra absent
  have inside : ':' ∉ text.takeWhile (· ≠ '%') := fun mem => absent ((List.takeWhile_sublist _).subset mem)
  rw [isIPv6, Bool.and_eq_true] at accepted
  have grouped := accepted.2
  unfold isGrouped at grouped
  rw [List.splitOn_eq_singleton inside] at grouped
  cases grouped

theorem octets_of_isIPv4 {text : Text} (accepted : isIPv4 text = true) :
    (text.splitOn '.').length = 4 ∧ ∀ octet ∈ text.splitOn '.', octet ≠ [] ∧ ∀ c ∈ octet, c.isDigit = true := by
  rw [isIPv4, Bool.and_eq_true, decide_eq_true_eq, List.all_eq_true] at accepted
  refine ⟨accepted.1, fun octet mem => ?_⟩
  have checked := accepted.2 octet mem
  simp only [isOctet, Bool.and_eq_true, decide_eq_true_eq, List.all_eq_true] at checked
  exact checked.1.1.1

end IpAddress

namespace UrlHost

open TextLines TextScan

def isSchemeChar (c : Char) : Bool := c.isAlphanum || ['+', '-', '.'].contains c

/-- Control characters and spaces are taken off the front, tabs and line breaks out of the whole. -/
def cleaned (url : Text) : Text :=
  (url.dropWhile (fun c => c.toNat ≤ 32)).filter (fun c => !(['\t', '\r', '\n'].contains c))

def withoutScheme (url : Text) : Text :=
  let scheme := url.takeWhile (· ≠ ':')
  if url.contains ':' && scheme.head?.any Char.isAlpha && scheme.all isSchemeChar then
      url.drop (scheme.length + 1)
  else url

def isInside (c : Char) : Bool := !(['/', '?', '#'].contains c)

def networkLocation (url : Text) : Text :=
  let url := withoutScheme (cleaned url)
  if ['/', '/'].isPrefixOf url then (url.drop 2).takeWhile isInside else []

structure IsScheme (scheme : Text) : Prop where
  letter : ∃ first rest, scheme = first :: rest ∧ first.isAlpha = true
  chars : ∀ c ∈ scheme, c.isAlphanum = true ∨ c = '+' ∨ c = '-' ∨ c = '.'

-- `scheme://`, and what is behind it
def HasScheme (text located : Text) : Prop :=
  ∃ scheme, IsScheme scheme ∧ cleaned text = scheme ++ ':' :: '/' :: '/' :: located

section Locations

variable {text located : Text}

theorem cleaned_of_visible {front : Text} (some : front ≠ []) (visible : ∀ c ∈ front, 32 < c.toNat)
    (rest : Text) :
    cleaned (front ++ rest) = front ++ rest.filter fun c => !(['\t', '\r', '\n'].contains c) := by
  have kept : ∀ c ∈ front, (!(['\t', '\r', '\n'].contains c)) = true := by
    intro c mem
    have blanks : ∀ c ∈ ['\t', '\r', '\n'], c.toNat ≤ 32 := by decide
    rw [Bool.not_eq_true', Bool.eq_false_iff]
    intro blank
    have small := blanks c (List.contains_iff_mem.1 blank)
    have big := visible c mem
    omega
  obtain ⟨first, tail, rfl⟩ := List.exists_cons_of_ne_nil some
  rw [cleaned, List.cons_append, List.dropWhile_cons_of_neg, ← List.cons_append, List.filter_append,
    List.filter_eq_self.2 kept]
  simpa using visible first List.mem_cons_self

theorem withoutScheme_of_scheme {scheme : Text} (named : IsScheme scheme) (rest : Text) :
    withoutScheme (scheme ++ ':' :: rest) = rest := by
  have each : ∀ c ∈ scheme, isSchemeChar c = true := by
    intro c mem
    obtain letter | plus | minus | dot := named.chars c mem
    · rw [isSchemeChar, letter, Bool.true_or]
    · rw [plus]
      decide
    · rw [minus]
      decide
    · rw [dot]
      decide
  have apart : ∀ c ∈ scheme, decide (c ≠ ':') = true := by
    refine fun c mem => decide_eq_true ?_
    rintro rfl
    cases each _ mem
  have taken : (scheme ++ ':' :: rest).takeWhile (· ≠ ':') = scheme := by
    rw [List.takeWhile_append_of_pos apart, List.takeWhile_cons_of_neg (by simp), List.append_nil]
  have first : scheme.head?.any Char.isAlpha = true := by
    obtain ⟨first, others, rfl, letter⟩ := named.letter
    exact letter
  unfold withoutScheme
  dsimp only
  rw [taken, first, List.all_eq_true.2 each,
      List.contains_iff_mem.2 (List.mem_append_right _ List.mem_cons_self),
    if_pos (by rfl), ← List.drop_drop, List.drop_left]
  rfl

theorem networkLocation_of_slashes (slashes : withoutScheme (cleaned text) = '/' :: '/' :: located) :
    networkLocation text = located.takeWhile isInside := by
  unfold networkLocation
  dsimp only
  rw [slashes, if_pos (by rfl)]
  rfl

theorem withoutScheme_slash (rest : Text) : withoutScheme ('/' :: rest) = '/' :: rest := by
  unfold withoutScheme
  dsimp only
  rw [List.takeWhile_cons_of_pos (by decide), if_neg]
  rw [Bool.and_eq_true, Bool.and_eq_true]
  rintro ⟨⟨-, letter⟩, -⟩
  cases letter

theorem networkLocation_of_located (found : HasScheme text located ∨ cleaned text = '/' :: '/' :: located) :
    networkLocation text = located.takeWhile isInside := by
  refine networkLocation_of_slashes ?_
  obtain ⟨scheme, named, whole⟩ | whole := found
  · rw [whole, withoutScheme_of_scheme named]
  · rw [whole, withoutScheme_slash]

theorem located_of_networkLocation (some : networkLocation text ≠ []) :
    ∃ located, HasScheme text located ∨ cleaned text = '/' :: '/' :: located := by
  unfold networkLocation at some
  dsimp only at some
  split at some
  next slashes =>
    obtain ⟨located, whole⟩ := List.isPrefixOf_iff_prefix.1 slashes
    refine ⟨located, ?_⟩
    unfold withoutScheme at whole
    dsimp only at whole
    split at whole
    next scheme =>
      rw [Bool.and_eq_true, Bool.and_eq_true, List.all_eq_true] at scheme
      obtain ⟨⟨colon, letter⟩, each⟩ := scheme
      obtain ⟨name, behind, cut, before⟩ := List.eq_append_cons_of_mem (List.contains_iff_mem.1 colon)
      have taken : (cleaned text).takeWhile (· ≠ ':') = name := by
        rw [cut, List.takeWhile_append_of_pos, List.takeWhile_cons_of_neg (by simp), List.append_nil]
        exact fun c mem => decide_eq_true (ne_of_mem_of_not_mem mem before)
      rw [taken] at letter each whole
      refine .inl ⟨name, ⟨?_, ?_⟩, ?_⟩
      · cases name with
        | nil => cases letter
        | cons first rest => exact ⟨first, rest, rfl, letter⟩
      · intro c mem
        simpa [isSchemeChar, or_assoc] using each c mem
      · rw [cut, ← List.drop_drop, List.drop_left] at whole
        change '/' :: '/' :: located = behind at whole
        rw [cut, whole]
    next => exact .inr whole.symm
  next => exact absurd rfl some

end Locations

/-- `str.lower`, and the checks of a network location: brackets around an address, and no delimiters that come
out of Unicode's normalization. -/
structure UrlLibrary where
  lower : Text → Text
  accepts : Text → Bool
  lower_nil : lower [] = []
  -- a slash, and the dots, colons and digits at an end, stand by themselves
  lower_slash : ∀ text rest, lower (text ++ '/' :: rest) = lower text ++ '/' :: lower rest
  lower_suffix : ∀ text suffix, (∀ c ∈ suffix, c = '.' ∨ c = ':' ∨ c.isDigit = true) →
    lower (text ++ suffix) = lower text ++ suffix
  lower_marker : ∀ text, [':', '/', '/'] <:+: lower text ↔ [':', '/', '/'] <:+: text

def netloc (lib : UrlLibrary) (url : Text) : Option Text :=
  let netloc := networkLocation url
  if netloc.contains '[' ≠ netloc.contains ']' ∨ lib.accepts netloc = false then none else some netloc

def hostInfo (netloc : Text) : Text := (netloc.splitOn '@').getLast?.getD []

def hostname (lib : UrlLibrary) (netloc : Text) : Text :=
  let info := hostInfo netloc
  let host :=
    if info.contains '[' then ((info.dropWhile (· ≠ '[')).tail).takeWhile (· ≠ ']') else info.takeWhile (· ≠ ':')
  lib.lower (host.takeWhile (· ≠ '%')) ++ host.dropWhile (· ≠ '%')

theorem toLower_of_small {c : Char} (small : c.toNat < 65) : c.toLower = c := by
  unfold Char.toLower
  rw [dif_neg]
  rintro ⟨big, -⟩
  have bound : 65 ≤ c.toNat := big
  omega

theorem toLower_eq_small {c mark : Char} (small : mark.toNat < 65) : c.toLower = mark ↔ c = mark := by
  constructor
  · rintro rfl
    unfold Char.toLower at small ⊢
    split_ifs at small ⊢ with upper
    · have low : 65 ≤ c.val.toNat := upper.1
      have high : c.val.toNat ≤ 90 := upper.2
      have moved : (c.val + ('a'.val - 'A'.val)).toNat = (c.val.toNat + 32) % 2 ^ 32 := rfl
      have value : (c.val + ('a'.val - 'A'.val)).toNat < 65 := small
      omega
    · rfl
  · rintro rfl
    exact toLower_of_small small

theorem map_toLower_eq_small {text mark : Text} (small : ∀ c ∈ mark, c.toNat < 65) :
    text.map Char.toLower = mark ↔ text = mark := by
  induction mark generalizing text with
  | nil => exact List.map_eq_nil_iff
  | cons c mark ih =>
    rw [List.forall_mem_cons] at small
    cases text with
    | nil => exact iff_of_false (List.cons_ne_nil _ _).symm (List.cons_ne_nil _ _).symm
    | cons first text =>
        rw [List.map_cons, List.cons.injEq, List.cons.injEq, toLower_eq_small small.1, ih small.2]

def asciiLibrary : UrlLibrary where
  lower := List.map Char.toLower
  accepts _ := true
  lower_nil := rfl
  lower_slash text rest := by
    rw [List.map_append, List.map_cons]
    rfl
  lower_suffix text suffix each := by
    rw [List.map_append, List.append_cancel_left_eq]
    refine (map_toLower_eq_small fun c mem => ?_).2 rfl
    obtain rfl | rfl | digit := each c mem
    · decide
    · decide
    · rw [Char.isDigit, Bool.and_eq_true, decide_eq_true_eq, decide_eq_true_eq] at digit
      have high : c.toNat ≤ 57 := digit.2
      omega
  lower_marker text := by
    constructor
    · rintro ⟨before, after, split⟩
      obtain ⟨front, back, rfl, mapped, -⟩ := List.map_eq_append_iff.1 split.symm
      obtain ⟨_, marked, rfl, -, marks⟩ := List.map_eq_append_iff.1 mapped
      rw [(map_toLower_eq_small (by decide)).1 marks]
      exact ⟨_, back, rfl⟩
    · intro inside
      exact inside.map Char.toLower

def portText (netloc : Text) : Text :=
  let info := hostInfo netloc
  let behind := if info.contains '[' then (info.dropWhile (· ≠ ']')).tail else info
  (behind.dropWhile (· ≠ ':')).tail

def portReads (netloc : Text) : Bool :=
  let port := portText netloc
  port = [] || port.all Char.isDigit && port.length ≤ maxStrDigits && decimal port ≤ 65535

end UrlHost
