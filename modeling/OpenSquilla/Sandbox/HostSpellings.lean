import OpenSquilla.Sandbox.DomainLaws

set_option autoImplicit false

namespace OpenSquilla.Sandbox

open TextLines TextScan UrlHost IpAddress

def delimiters : List Char := ['/', '?', '#', '[', ']', '@', ':', '%']

structure IsPort (most : Nat) (digits : Text) : Prop where
  short : digits.length ≤ most
  each : ∀ c ∈ digits, c.isDigit = true
  value : decimal digits ≤ 65535

-- `[user@]host[:port]`, up to a path, a query or a fragment.
structure Located (lib : UrlLibrary) (user written port rest located : Text) : Prop where
  whole : located = user ++ (written ++ port) ++ rest
  inside : ∀ c ∈ user ++ (written ++ port), c ∉ ['/', '?', '#', '[', ']']
  users : user = [] ∨ ∃ name, user = name ++ ['@']
  bare : ∀ c ∈ written, c ∉ ['@', ':', '%']
  ports : port = [] ∨ ∃ digits, port = ':' :: digits ∧ IsPort maxStrDigits digits
  rests : rest = [] ∨ ∃ c behind, rest = c :: behind ∧ c ∈ ['/', '?', '#']
  accepted : lib.accepts (user ++ (written ++ port)) = true

def HostAt (lib : UrlLibrary) (located host : Text) : Prop :=
  ∃ user written port rest, Located lib user written port rest located ∧ host = lib.lower written

def Marked (text : Text) : Prop := [':', '/', '/'] <:+: text

-- `host[:port][/path]`
def PlainHost (text host : Text) : Prop :=
  ∃ port path, text = host ++ port ++ path ∧ (∀ c ∈ host, c ∉ delimiters) ∧
    (port = [] ∨ ∃ digits, port = ':' :: digits ∧ digits ≠ [] ∧ IsPort 5 digits) ∧
    (path = [] ∨ ∃ rest, path = '/' :: rest)

/-- The host that a text names, in lower case and without blanks at its ends: by itself, or in a URL, of which
control characters at the front, tabs and line breaks do not count. -/
def HostIn (lib : UrlLibrary) (text host : Text) : Prop :=
  PlainHost text host ∨ Marked text ∧ ∃ located, HasScheme text located ∧ HostAt lib located host

-- What is read: a text with `://` anywhere is a URL, also one that begins with the slashes.
def HostRead (lib : UrlLibrary) (text host : Text) : Prop :=
  ¬Marked text ∧ PlainHost text host ∨
    Marked text ∧ ∃ located, (HasScheme text located ∨ cleaned text = '/' :: '/' :: located) ∧
      HostAt lib located host

/-- A text with `://` that is not behind a scheme at its front. -/
def Misread (text : Text) : Prop := Marked text ∧ ∀ located, ¬HasScheme text located

def normal (lib : UrlLibrary) (raw : Text) : Text := lib.lower (strip raw)

def HostOf (lib : UrlLibrary) (raw host : Text) : Prop := HostIn lib (normal lib raw) host

def ReadHost (lib : UrlLibrary) (raw host : Text) : Prop := HostRead lib (normal lib raw) host

-- A rule and a host, each as it is read, fit together.
def Lawful (reads names : Text → Text → Prop) (pattern host : Text) : Prop :=
  ∃ rule text, reads pattern rule ∧ reads host text ∧ names rule text

structure IsHostText (host : Text) : Prop where
  some : host ≠ []
  bare : ∀ c ∈ host, c ∉ delimiters
  visible : ∀ c ∈ host, 32 < c.toNat

section Locations

variable {lib : UrlLibrary} {host text located netloc info name : Text}

theorem hostInfo_of_plain (plain : '@' ∉ info) : hostInfo info = info := by
  rw [hostInfo, List.splitOn_eq_singleton plain]
  rfl

theorem hostInfo_of_user (plain : '@' ∉ info) : hostInfo (name ++ '@' :: info) = info := by
  rw [hostInfo, List.splitOn_append_cons_self, List.splitOn_eq_singleton plain, List.getLast?_concat]
  rfl

theorem hostInfo_split (netloc : Text) : '@' ∉ hostInfo netloc ∧
    ∃ user, netloc = user ++ hostInfo netloc ∧ (user = [] ∨ ∃ name, user = name ++ ['@']) := by
  by_cases named : '@' ∈ netloc.reverse
  · obtain ⟨info, name, whole, plain⟩ := List.eq_append_cons_of_mem named
    have split : netloc = name.reverse ++ '@' :: info.reverse := by
      rw [← List.reverse_reverse netloc, whole]
      simp
    have plain : '@' ∉ info.reverse := fun mem => plain (List.mem_reverse.1 mem)
    rw [split, hostInfo_of_user plain]
    exact ⟨plain, name.reverse ++ ['@'], by simp, .inr ⟨_, rfl⟩⟩
  · rw [List.mem_reverse] at named
    rw [hostInfo_of_plain named]
    exact ⟨named, [], rfl, .inl rfl⟩

theorem takeWhile_inside {inside rest : Text} (each : ∀ c ∈ inside, isInside c = true)
    (ends : rest = [] ∨ ∃ c behind, rest = c :: behind ∧ c ∈ ['/', '?', '#']) :
    (inside ++ rest).takeWhile isInside = inside := by
  rw [List.takeWhile_append_of_pos each]
  obtain rfl | ⟨c, behind, rfl, ending⟩ := ends
  · exact List.append_nil _
  · have outside : isInside c = false := by rw [isInside, List.contains_iff_mem.2 ending, Bool.not_true]
    rw [List.takeWhile_cons_of_neg (by simp [outside]), List.append_nil]

theorem dropWhile_inside (located : Text) :
    located.dropWhile isInside = [] ∨ ∃ c behind, located.dropWhile isInside = c :: behind ∧
      c ∈ ['/', '?', '#'] := by
  cases rest : located.dropWhile isInside with
  | nil => exact .inl rfl
  | cons c behind =>
    have first := List.head?_dropWhile_not isInside located
    rw [rest] at first
    have outside : isInside c = false := by simpa using first
    rw [isInside, Bool.not_eq_false'] at outside
    exact .inr ⟨c, behind, rfl, List.contains_iff_mem.1 outside⟩

theorem takeWhile_apart {mark : Char} (apart : mark ∉ text) : text.takeWhile (· ≠ mark) = text :=
  List.takeWhile_eq_self_iff.2 fun _ mem => decide_eq_true (ne_of_mem_of_not_mem mem apart)

theorem dropWhile_apart {mark : Char} (apart : mark ∉ text) : text.dropWhile (· ≠ mark) = [] :=
  List.dropWhile_eq_nil_iff.2 fun _ mem => decide_eq_true (ne_of_mem_of_not_mem mem apart)

theorem mem_dropWhile_of_mem {mark : Char} (mem : mark ∈ text) : mark ∈ text.dropWhile (· ≠ mark) := by
  rw [← @List.takeWhile_append_dropWhile _ (· ≠ mark) text, List.mem_append] at mem
  refine mem.resolve_left fun taken => ?_
  simpa using List.mem_takeWhile_imp taken

theorem takeWhile_colon {written port : Text} (bare : ':' ∉ written)
    (ports : port = [] ∨ ∃ digits, port = ':' :: digits) :
    (written ++ port).takeWhile (· ≠ ':') = written ∧ (written ++ port).dropWhile (· ≠ ':') = port := by
  have each : ∀ c ∈ written, decide (c ≠ ':') = true := fun c mem =>
    decide_eq_true (ne_of_mem_of_not_mem mem bare)
  rw [List.takeWhile_append_of_pos each, List.dropWhile_append_of_pos each]
  obtain rfl | ⟨digits, rfl⟩ := ports
  · exact ⟨List.append_nil _, rfl⟩
  · rw [List.takeWhile_cons_of_neg (by simp), List.append_nil, List.dropWhile_cons_of_neg (by simp)]
    exact ⟨rfl, rfl⟩

theorem portReads_iff : portReads netloc = true ↔ IsPort maxStrDigits (portText netloc) := by
  unfold portReads
  simp only [Bool.or_eq_true, Bool.and_eq_true, decide_eq_true_eq, List.all_eq_true]
  constructor
  · rintro (empty | ⟨⟨digits, short⟩, value⟩)
    · rw [empty]
      exact ⟨Nat.zero_le _, List.forall_mem_nil _, Nat.zero_le _⟩
    · exact ⟨short, digits, value⟩
  · exact fun port => .inr ⟨⟨port.each, port.short⟩, port.value⟩

theorem Located.parts {user written port rest : Text} (at_ : Located lib user written port rest located) :
    located.takeWhile isInside = user ++ (written ++ port) ∧ (user ++ (written ++ port)).any isBracket = false ∧
      hostInfo (user ++ (written ++ port)) = written ++ port := by
  have plain : '@' ∉ written ++ port := by
    intro mem
    obtain mem | mem := List.mem_append.1 mem
    · exact at_.bare _ mem (by decide)
    · obtain none | ⟨digits, some, each⟩ := at_.ports
      · rw [none] at mem
        cases mem
      · rw [some] at mem
        cases each.each _ ((List.mem_cons.1 mem).resolve_left (by decide))
  refine ⟨?_, ?_, ?_⟩
  · rw [at_.whole]
    refine takeWhile_inside (fun c mem => ?_) at_.rests
    rw [isInside, Bool.not_eq_true', Bool.eq_false_iff]
    exact fun given => at_.inside c mem (List.mem_append_left ['[', ']'] (List.contains_iff_mem.1 given))
  · rw [List.any_eq_false]
    intro c mem bracket
    rw [isBracket, Bool.or_eq_true, decide_eq_true_eq, decide_eq_true_eq] at bracket
    obtain rfl | rfl := bracket <;> exact at_.inside _ mem (by decide)
  · obtain none | ⟨name, some⟩ := at_.users
    · rw [none, List.nil_append, hostInfo_of_plain plain]
    · rw [some, List.append_assoc, List.singleton_append, hostInfo_of_user plain]

theorem no_bracket (none : netloc.any isBracket = false) :
    netloc.contains '[' = false ∧ netloc.contains ']' = false := by
  rw [List.any_eq_false] at none
  constructor <;>
    · rw [Bool.eq_false_iff]
      exact fun held => none _ (List.contains_iff_mem.1 held) (by decide)

theorem portText_of_plain (plain : (hostInfo netloc).contains '[' = false) :
    portText netloc = ((hostInfo netloc).dropWhile (· ≠ ':')).tail := by
  unfold portText
  dsimp only
  rw [plain, if_neg Bool.false_ne_true]

theorem hostname_of_plain (plain : (hostInfo netloc).contains '[' = false) : hostname lib netloc =
    lib.lower (((hostInfo netloc).takeWhile (· ≠ ':')).takeWhile (· ≠ '%')) ++
      ((hostInfo netloc).takeWhile (· ≠ ':')).dropWhile (· ≠ '%') := by
  unfold hostname
  dsimp only
  rw [plain, if_neg Bool.false_ne_true]

theorem hostAt_iff (named : IsHostText host) : HostAt lib located host ↔
    lib.accepts (located.takeWhile isInside) = true ∧ (located.takeWhile isInside).any isBracket = false ∧
      portReads (located.takeWhile isInside) = true ∧ hostname lib (located.takeWhile isInside) = host := by
  constructor
  · rintro ⟨user, written, port, rest, at_, rfl⟩
    obtain ⟨inside, none, info⟩ := at_.parts
    have split := takeWhile_colon (fun mem => at_.bare _ mem (by decide))
      (at_.ports.imp_right fun ⟨digits, same, _⟩ => ⟨digits, same⟩)
    have brackets : (hostInfo (user ++ (written ++ port))).contains '[' = false := by
      rw [List.any_append, Bool.or_eq_false_iff] at none
      rw [info]
      exact (no_bracket none.2).1
    have percent : '%' ∉ written := fun mem => at_.bare _ mem (by decide)
    rw [inside, portReads_iff, portText_of_plain brackets, hostname_of_plain brackets, info, split.1, split.2,
      takeWhile_apart percent, dropWhile_apart percent, List.append_nil]
    refine ⟨at_.accepted, none, ?_, rfl⟩
    obtain rfl | ⟨digits, rfl, each⟩ := at_.ports
    · exact ⟨Nat.zero_le _, List.forall_mem_nil _, Nat.zero_le _⟩
    · exact each
  · rintro ⟨accepted, none, port, same⟩
    have rests := dropWhile_inside located
    have whole : located.takeWhile isInside ++ located.dropWhile isInside = located :=
      List.takeWhile_append_dropWhile
    have each : ∀ c ∈ located.takeWhile isInside, isInside c = true := fun c => List.mem_takeWhile_imp
    generalize located.takeWhile isInside = netloc at accepted none port same whole each
    obtain ⟨plain, user, split, users⟩ := hostInfo_split netloc
    have clear : ∀ c ∈ netloc, c ∉ ['/', '?', '#', '[', ']'] := by
      intro c mem given
      have inside := each c mem
      have bracket := List.any_eq_false.1 none c mem
      revert inside bracket
      simp only [List.mem_cons, List.not_mem_nil, or_false] at given
      obtain rfl | rfl | rfl | rfl | rfl := given <;> decide
    have brackets : (hostInfo netloc).contains '[' = false := by
      rw [Bool.eq_false_iff]
      intro held
      refine clear '[' ?_ (by decide)
      rw [split]
      exact List.mem_append_right _ (List.contains_iff_mem.1 held)
    rw [portReads_iff, portText_of_plain brackets] at port
    rw [hostname_of_plain brackets] at same
    have parts :
        (hostInfo netloc).takeWhile (· ≠ ':') ++ (hostInfo netloc).dropWhile (· ≠ ':') = hostInfo netloc :=
      List.takeWhile_append_dropWhile
    generalize hostInfo netloc = info at *
    have percent : '%' ∉ info.takeWhile (· ≠ ':') := by
      intro mem
      have behind := mem_dropWhile_of_mem mem
      rw [← same] at named
      exact named.bare '%' (List.mem_append_right _ behind) (by decide)
    rw [takeWhile_apart percent, dropWhile_apart percent, List.append_nil] at same
    refine ⟨user, info.takeWhile (· ≠ ':'), info.dropWhile (· ≠ ':'), located.dropWhile isInside,
      ⟨?_, ?_, ?_, ?_, ?_, rests, ?_⟩, same.symm⟩
    · rw [parts, ← split, whole]
    · rw [parts, ← split]
      exact clear
    · exact users
    · intro c mem given
      simp only [List.mem_cons, List.not_mem_nil, or_false] at given
      obtain rfl | rfl | rfl := given
      · exact plain (List.takeWhile_subset _ mem)
      · cases List.mem_takeWhile_imp mem
      · exact percent mem
    · cases behind : info.dropWhile (· ≠ ':') with
      | nil => exact .inl rfl
      | cons c digits =>
        have first := List.head?_dropWhile_not (· ≠ ':') info
        rw [behind] at first port
        exact .inr ⟨digits, by simpa using first, port⟩
    · rw [parts, ← split]
      exact accepted

end Locations

section Reading

variable {lib : UrlLibrary} {raw host text located : Text}

theorem isBracket_of_mem {netloc : Text} (none : netloc.any isBracket = false) :
    ¬(netloc.contains '[' ≠ netloc.contains ']') := by
  rw [(no_bracket none).1, (no_bracket none).2]
  exact fun apart => apart rfl

theorem extractUrlHost_iff (named : IsHostText host) : extractUrlHost lib text = (host, none) ↔
    ∃ located, (HasScheme text located ∨ cleaned text = '/' :: '/' :: located) ∧ HostAt lib located host := by
  have read : extractUrlHost lib text = (host, none) ↔
      lib.accepts (networkLocation text) = true ∧ (networkLocation text).any isBracket = false ∧
        portReads (networkLocation text) = true ∧ hostname lib (networkLocation text) = host := by
    unfold extractUrlHost netloc
    dsimp only
    by_cases refused : (networkLocation text).contains '[' ≠ (networkLocation text).contains ']' ∨
        lib.accepts (networkLocation text) = false
    · rw [if_pos refused]
      refine iff_of_false (by simp) ?_
      rintro ⟨accepted, none, -⟩
      obtain apart | fails := refused
      · exact isBracket_of_mem none apart
      · rw [accepted] at fails
        cases fails
    · rw [if_neg refused]
      rw [not_or, Bool.not_eq_false] at refused
      dsimp only
      split
      next fails => simp [fails]
      next reads =>
        rw [Bool.not_eq_false] at reads
        split
        next bracket => simp [bracket]
        next none => simp [refused.2, reads, Bool.eq_false_iff.2 none]
  rw [read]
  constructor
  · intro checked
    have some : networkLocation text ≠ [] := by
      intro empty
      rw [empty] at checked
      refine named.some (checked.2.2.2.symm.trans ?_)
      rw [hostname]
      exact (List.append_nil _).trans lib.lower_nil
    obtain ⟨located, found⟩ := located_of_networkLocation some
    rw [networkLocation_of_located found] at checked
    exact ⟨located, found, (hostAt_iff named).2 checked⟩
  · rintro ⟨located, found, at_⟩
    rw [networkLocation_of_located found]
    exact (hostAt_iff named).1 at_

theorem isValidPort_iff {digits : Text} : isValidPort digits = true ↔ digits ≠ [] ∧ IsPort 5 digits := by
  simp only [isValidPort, Bool.and_eq_true, decide_eq_true_eq, List.all_eq_true]
  constructor
  · rintro ⟨⟨⟨some, short⟩, each⟩, value⟩
    exact ⟨some, short, each, value⟩
  · rintro ⟨some, short, each, value⟩
    exact ⟨⟨⟨some, short⟩, each⟩, value⟩

theorem plain_port {port : Text} (ports : port = [] ∨ ∃ digits, port = ':' :: digits ∧ digits ≠ [] ∧
    IsPort 5 digits) :
    (∀ c ∈ port, c = ':' ∨ c.isDigit = true) ∧ ∀ c ∈ port.getLast?, c.isDigit = true := by
  obtain rfl | ⟨digits, rfl, some, port⟩ := ports
  · constructor
    · exact List.forall_mem_nil _
    · intro c last
      cases last
  · rw [List.forall_mem_cons, ← List.singleton_append, List.getLast?_append_of_ne_nil _ some]
    exact ⟨⟨.inl rfl, fun c mem => .inr (port.each c mem)⟩,
        fun c last => port.each c (List.mem_of_getLast? last)⟩

theorem slash_not_mem {port : Text} (bare : ∀ c ∈ host, c ∉ delimiters)
    (ports : ∀ c ∈ port, c = ':' ∨ c.isDigit = true) :
    '/' ∉ host ++ port := by
  intro mem
  obtain mem | mem := List.mem_append.1 mem
  · exact bare _ mem (by decide)
  · have other := ports _ mem
    revert other
    decide

theorem extractPlainHost_iff (named : IsHostText host) :
    extractPlainHost text = (host, none) ↔ PlainHost text host := by
  have colonless : host.count ':' = 0 :=
    List.count_eq_zero.2 fun mem => named.bare _ mem (by decide)
  constructor
  · intro read
    unfold extractPlainHost at read
    dsimp only at read
    have whole : text.takeWhile (· ≠ '/') ++ text.dropWhile (· ≠ '/') = text := List.takeWhile_append_dropWhile
    have path : text.dropWhile (· ≠ '/') = [] ∨ ∃ rest, text.dropWhile (· ≠ '/') = '/' :: rest := by
      cases behind : text.dropWhile (· ≠ '/') with
      | nil => exact .inl rfl
      | cons c rest =>
        have first := List.head?_dropWhile_not (· ≠ '/') text
        rw [behind] at first
        exact .inr ⟨rest, by simpa using first⟩
    split at read
    next bracket =>
      have front := Rewriting.head?_extractBracketed bracket
      rw [read] at front
      exact absurd (by decide) (named.bare '[' (List.mem_of_head? front))
    next =>
      split at read
      next =>
        split at read
        next valid =>
          cases read
          have split : (text.takeWhile (· ≠ '/')).takeWhile (· ≠ ':') ++
              (text.takeWhile (· ≠ '/')).dropWhile (· ≠ ':') = text.takeWhile (· ≠ '/') :=
            List.takeWhile_append_dropWhile
          refine ⟨(text.takeWhile (· ≠ '/')).dropWhile (· ≠ ':'), text.dropWhile (· ≠ '/'), ?_, named.bare,
              ?_, path⟩
          · rw [split, whole]
          · cases behind : (text.takeWhile (· ≠ '/')).dropWhile (· ≠ ':') with
            | nil => exact .inl rfl
            | cons c digits =>
              have first := List.head?_dropWhile_not (· ≠ ':') (text.takeWhile (· ≠ '/'))
              rw [behind] at first valid
              exact .inr ⟨digits, by simpa using first, isValidPort_iff.1 valid⟩
        next => cases read
      next =>
        cases read
        exact ⟨[], text.dropWhile (· ≠ '/'), by rw [List.append_nil, whole], named.bare, .inl rfl, path⟩
  · rintro ⟨port, path, rfl, bare, ports, paths⟩
    have slash := slash_not_mem bare (plain_port ports).1
    have plain : (host ++ port).head? ≠ some '[' := by
      rw [List.head?_append_of_ne_nil _ named.some]
      exact fun first => bare _ (List.mem_of_head? first) (by decide)
    have split := takeWhile_colon (fun mem => bare _ mem (by decide))
      (ports.imp_right fun ⟨digits, same, _⟩ => ⟨digits, same⟩)
    unfold extractPlainHost
    dsimp only
    rw [takeWhile_slash slash paths, if_neg plain, split.1, split.2, List.count_append, colonless]
    obtain rfl | ⟨digits, rfl, some, each⟩ := ports
    · rw [if_neg (by simp), List.append_nil]
    · have rest : digits.count ':' = 0 := List.count_eq_zero.2 fun mem => by cases each.each _ mem
      rw [List.count_cons, rest, if_pos (by decide), List.tail_cons, if_pos (isValidPort_iff.2 ⟨some, each⟩)]

theorem extract_iff (named : IsHostText host) : extractValidationHost lib raw = (host, none) ↔
    HostRead lib (normal lib raw) host := by
  unfold extractValidationHost HostRead normal Marked
  generalize lib.lower (strip raw) = text
  dsimp only
  by_cases marked : [':', '/', '/'] <:+: text
  · have some : text ≠ [] := by
      rintro rfl
      cases List.infix_nil.1 marked
    rw [if_neg some, if_pos marked, extractUrlHost_iff named]
    simp [marked]
  · split
    next empty =>
      refine iff_of_false (fun same => named.some (Prod.ext_iff.1 same).1.symm) ?_
      rintro (⟨-, port, path, whole, -⟩ | ⟨marked', -⟩)
      · rw [empty] at whole
        exact named.some (List.append_eq_nil_iff.1 (List.append_eq_nil_iff.1 whole.symm).1).1
      · exact marked marked'
    next =>
      rw [extractPlainHost_iff named]
      simp [marked]

end Reading

section Laws

variable {lib : UrlLibrary} {pattern raw host text rule name : Text} {admits : Text → Prop}

theorem hostText_of_chars (some : text ≠ []) (each : ∀ c ∈ text, c = '.' ∨ c = '*' ∨ isDnsLabelChar c = true) :
    IsHostText text := by
  have small : ∀ mark ∈ delimiters, ¬(mark = '.' ∨ mark = '*' ∨ isDnsLabelChar mark = true) := by decide
  refine ⟨some, fun c mem given => small c given (each c mem), fun c mem => ?_⟩
  obtain rfl | rfl | label := each c mem
  · decide
  · decide
  · rw [isDnsLabelChar, Bool.or_eq_true, Bool.or_eq_true, decide_eq_true_eq] at label
    obtain (lower | digit) | rfl := label
    · have low : 97 ≤ c.toNat := of_decide_eq_true (Bool.and_eq_true_iff.mp lower).1
      omega
    · rw [Char.isDigit, Bool.and_eq_true, decide_eq_true_eq] at digit
      have low : 48 ≤ c.toNat := digit.1
      omega
    · decide

theorem IsExact.hostText (exact : IsExact text name) : IsHostText text := by
  have name : ∀ c ∈ name, c = '.' ∨ c = '*' ∨ isDnsLabelChar c = true := fun c mem =>
    (chars_of_valid exact.named.valid c mem).imp_right .inr
  refine hostText_of_chars exact.not_nil ?_
  obtain rfl | rfl := exact.spells
  · exact name
  · rw [List.forall_mem_append, List.forall_mem_singleton]
    exact ⟨name, .inl rfl⟩

theorem Names.hostText (names : Names admits rule text) : IsHostText rule ∧ IsHostText text := by
  cases names with
  | exact named labels spells spelled =>
      exact ⟨IsExact.hostText ⟨named, labels, spells⟩, IsExact.hostText ⟨named, labels, spelled⟩⟩
  | wildcard spells each valid labels admitted named spelled inside proper =>
    refine ⟨hostText_of_chars ?_ ?_, IsExact.hostText (isExact_of_wildcard named spelled inside)⟩
    · rw [spells]
      exact List.cons_ne_nil _ _
    · rw [spells, List.forall_mem_append, List.forall_mem_append]
      refine ⟨⟨by decide, fun c mem => (chars_of_valid valid c mem).imp_right .inr⟩, fun c mem => ?_⟩
      exact .inl (each c mem)

theorem PlainHost.not_located (plain : PlainHost text host) (named : IsHostText host) (located : Text) :
    ¬(HasScheme text located ∨ cleaned text = '/' :: '/' :: located) := by
  obtain ⟨port, path, rfl, bare, ports, paths⟩ := plain
  obtain ⟨each, last⟩ := plain_port ports
  refine not_located_of_path (slash_not_mem bare each) ?_ (List.append_ne_nil_of_left_ne_nil named.some _) ?_
    paths located
  · intro colon
    obtain rfl | some := eq_or_ne port []
    · rw [List.append_nil] at colon
      exact bare _ (List.mem_of_getLast? colon) (by decide)
    · rw [List.getLast?_append_of_ne_nil _ some] at colon
      cases last _ colon
  · intro c mem
    obtain mem | mem := List.mem_append.1 mem
    · exact named.visible c mem
    · obtain rfl | digit := each c mem
      · decide
      · rw [Char.isDigit, Bool.and_eq_true, decide_eq_true_eq] at digit
        have low : 48 ≤ c.toNat := digit.1
        omega

theorem hostIn_iff (named : IsHostText host) (read : ¬Misread text) :
    HostIn lib text host ↔ HostRead lib text host := by
  unfold HostIn HostRead
  by_cases marked : Marked text
  · have scheme : ∃ located, HasScheme text located := by
      by_contra none
      exact read ⟨marked, fun located found => none ⟨located, found⟩⟩
    obtain ⟨located, found⟩ := scheme
    have plain : ¬PlainHost text host := fun plain => plain.not_located named located (.inl found)
    have slashes : ∀ located, cleaned text ≠ '/' :: '/' :: located := by
      intro other whole
      obtain ⟨scheme, ⟨⟨first, rest, rfl, letter⟩, -⟩, split⟩ := found
      rw [whole] at split
      rw [← (List.cons.inj split).1] at letter
      cases letter
    simp [marked, plain, slashes]
  · simp [marked]

theorem HostIn.not_read (inside : HostIn lib text host) (named : IsHostText host) (misread : Misread text)
    (other : Text) : ¬HostRead lib text other := by
  obtain plain | ⟨-, located, found, -⟩ := inside
  · rintro (⟨unmarked, -⟩ | ⟨-, located, found, -⟩)
    · exact unmarked misread.1
    · exact plain.not_located named located found
  · exact absurd found (misread.2 located)

theorem lawful_extract {names : Text → Text → Prop}
    (texts : ∀ rule text, names rule text → IsHostText rule ∧ IsHostText text) :
    (∃ rule text, extractValidationHost lib pattern = (rule, none) ∧
      extractValidationHost lib host = (text, none) ∧ names rule text) ↔
      Lawful (ReadHost lib) names pattern host := by
  unfold Lawful ReadHost
  refine exists_congr fun rule => exists_congr fun text => ?_
  constructor
  · rintro ⟨extracted, read, named⟩
    exact ⟨(extract_iff (texts rule text named).1).1 extracted,
        (extract_iff (texts rule text named).2).1 read, named⟩
  · rintro ⟨extracted, read, named⟩
    exact ⟨(extract_iff (texts rule text named).1).2 extracted,
        (extract_iff (texts rule text named).2).2 read, named⟩

/-- What matches by the hosts as they are read, but for spoiled rules, matches by the hosts that are
named, where no text is misread that the law would reach and no rule of it is spoiled. -/
theorem matches_lawful_iff {matched : Prop} {names : Text → Text → Prop} {spoiled : Text → Prop}
    (texts : ∀ rule text, names rule text → IsHostText rule ∧ IsHostText text)
    (code : matched ↔ Lawful (ReadHost lib) (fun rule text => names rule text ∧ ¬spoiled rule) pattern host) :
    (matched ↔ Lawful (HostOf lib) names pattern host) ↔
      ¬((Misread (normal lib pattern) ∨ Misread (normal lib host)) ∧
          (Lawful (HostOf lib) names pattern host ∨
            Lawful (ReadHost lib) (fun rule text => names rule text ∧ ¬spoiled rule) pattern host) ∨
        Lawful (HostOf lib) (fun rule text => names rule text ∧ spoiled rule) pattern host) := by
  rw [code]
  by_cases misread : Misread (normal lib pattern) ∨ Misread (normal lib host)
  · have apart : Lawful (HostOf lib) names pattern host →
        ¬Lawful (ReadHost lib) (fun rule text => names rule text ∧ ¬spoiled rule) pattern host := by
      rintro ⟨rule, text, ruled, hosted, named⟩ ⟨other, others, read, reads, -⟩
      obtain misread | misread := misread
      · exact ruled.not_read (texts rule text named).1 misread other read
      · exact hosted.not_read (texts rule text named).2 misread others reads
    have inside : Lawful (HostOf lib) (fun rule text => names rule text ∧ spoiled rule) pattern host →
        Lawful (HostOf lib) names pattern host := by
      rintro ⟨rule, text, ruled, hosted, named, -⟩
      exact ⟨rule, text, ruled, hosted, named⟩
    tauto
  · rw [not_or] at misread
    have same : ∀ {more : Text → Text → Prop}, (∀ rule text, more rule text → names rule text) →
        (Lawful (HostOf lib) more pattern host ↔ Lawful (ReadHost lib) more pattern host) := by
      intro more narrows
      refine exists_congr fun rule => exists_congr fun text => ?_
      unfold HostOf ReadHost
      rw [← and_assoc, ← and_assoc, and_congr_left_iff]
      intro named
      obtain ⟨ruled, hosted⟩ := texts rule text (narrows rule text named)
      rw [hostIn_iff ruled misread.1, hostIn_iff hosted misread.2]
    have apart : Lawful (ReadHost lib) (fun rule text => names rule text ∧ ¬spoiled rule) pattern host →
        ¬Lawful (ReadHost lib) (fun rule text => names rule text ∧ spoiled rule) pattern host := by
      rintro ⟨rule, text, ruled, -, named, plain⟩ ⟨other, others, read, -, named', spoils⟩
      have first := (extract_iff (texts rule text named).1).2 ruled
      have second := (extract_iff (texts other others named').1).2 read
      rw [first] at second
      cases second
      exact plain spoils
    have either : Lawful (ReadHost lib) names pattern host ↔
        Lawful (ReadHost lib) (fun rule text => names rule text ∧ ¬spoiled rule) pattern host ∨
          Lawful (ReadHost lib) (fun rule text => names rule text ∧ spoiled rule) pattern host := by
      constructor
      · rintro ⟨rule, text, ruled, hosted, named⟩
        by_cases spoils : spoiled rule
        · exact .inr ⟨rule, text, ruled, hosted, named, spoils⟩
        · exact .inl ⟨rule, text, ruled, hosted, named, spoils⟩
      · rintro (⟨rule, text, ruled, hosted, named, -⟩ | ⟨rule, text, ruled, hosted, named, -⟩)
        · exact ⟨rule, text, ruled, hosted, named⟩
        · exact ⟨rule, text, ruled, hosted, named⟩
    rw [same fun _ _ named => named, same fun _ _ named => named.1, either]
    tauto

end Laws

/-- Domain rules match the hosts they name: not where `://` stands anywhere but behind a scheme, and
of the allowlisted wildcards not with dots behind them. -/
theorem rules_match_iff (lib : UrlLibrary) : (∀ pattern host,
      (policyDomainMatches lib pattern host = true ↔
          Lawful (HostOf lib) (Names fun _ => True) pattern host) ↔
        ¬((Misread (normal lib pattern) ∨ Misread (normal lib host)) ∧
          (Lawful (HostOf lib) (Names fun _ => True) pattern host ∨
            Lawful (ReadHost lib) (Names fun _ => True) pattern host))) ∧
    (∀ pattern host,
      (domainMatches lib pattern host = true ↔
          Lawful (HostOf lib) (Names (· ∈ allowedWildcardSuffixes)) pattern host) ↔
        ¬((Misread (normal lib pattern) ∨ Misread (normal lib host)) ∧
            (Lawful (HostOf lib) (Names (· ∈ allowedWildcardSuffixes)) pattern host ∨
              Lawful (ReadHost lib) (fun rule text => Names (· ∈ allowedWildcardSuffixes) rule text ∧
                ¬DottedWildcard rule) pattern host) ∨
          Lawful (HostOf lib) (fun rule text => Names (· ∈ allowedWildcardSuffixes) rule text ∧
            DottedWildcard rule) pattern host)) ∧
    (∀ pattern host, policyDomainMatches lib pattern host = true ∨
      domainMatches lib pattern host = true →
      ∃ text name, ReadHost lib host text ∧ Spells text name ∧ IsHostName name ∧
        isIpLiteral text = false ∧ isIpLiteral name = false) ∧
    ∀ host, IsBare lib host → ∀ rewriting : Rewriting lib host,
      (∀ pattern,
        policyDomainMatches lib pattern rewriting.spelling = policyDomainMatches lib pattern host ∧
        domainMatches lib pattern rewriting.spelling = domainMatches lib pattern host) ↔
        ¬(rewriting.Marked ∧ IsHostName (lib.lower host) ∧ '.' ∈ lib.lower host) := by
  refine ⟨fun pattern host => ?_, fun pattern host => ?_, fun pattern host matched => ?_,
    fun host bare rewriting => rewriting.answers_stay_iff bare⟩
  · have law := @matches_lawful_iff lib pattern host
      (policyDomainMatches lib pattern host = true) (Names fun _ => True) (fun _ => False)
      (fun _ _ => Names.hostText) (by
        rw [policyDomainMatches_iff, lawful_extract fun _ _ => Names.hostText]
        simp)
    simpa [Lawful] using law
  · refine matches_lawful_iff (fun _ _ => Names.hostText) ?_
    rw [domainMatches_iff, ← lawful_extract fun _ _ named => named.1.hostText]
  · obtain ⟨name, text, read, exact⟩ := exists_isNamed matched
    exact ⟨text, name, (extract_iff exact.hostText).1 read, exact.spells, exact.named,
      exact.named.not_literal exact.spells, exact.named.not_literal (.inl rfl)⟩

theorem isBare_example : IsBare asciiLibrary "example.com".toList where
  front := by
    intro c first
    obtain rfl := Option.some.inj first
    decide
  back := by
    intro c last
    obtain rfl := Option.some.inj last
    decide
  lowered := by decide
  plain := by decide
  undotted := by decide

def rewritingExample : Rewriting asciiLibrary "example.com".toList where
  name := "example.com".toList
  dot := false
  port := none
  path := some "x?u=http://y".toList
  bare := isBare_example
  sameCase := rfl
  valid := Rewriting.valid_of_none

/-- With a dot behind a suffix of the allowlist the hosts are lost, and the host itself with `://`
in its path. -/
theorem rules_miss_hosts :
    (domainMatches asciiLibrary "*.pythonhosted.org.".toList "files.pythonhosted.org".toList = false ∧
      Lawful (HostOf asciiLibrary) (Names (· ∈ allowedWildcardSuffixes)) "*.pythonhosted.org.".toList
        "files.pythonhosted.org".toList) ∧
    (policyDomainMatches asciiLibrary "example.com".toList "example.com/x?u=http://y".toList = false ∧
      Lawful (HostOf asciiLibrary) (Names fun _ =>
        True) "example.com".toList "example.com/x?u=http://y".toList) ∧
    rewritingExample.spelling = "example.com/x?u=http://y".toList ∧
      policyDomainMatches asciiLibrary "example.com".toList "example.com".toList = true ∧
      domainMatches asciiLibrary "example.com".toList "example.com/x?u=http://y".toList = false ∧
      domainMatches asciiLibrary "example.com".toList "example.com".toList = true := by
  refine ⟨⟨by decide +kernel, "*.pythonhosted.org.".toList, "files.pythonhosted.org".toList, ?_, ?_, ?_⟩,
    ⟨by decide +kernel, "example.com".toList, "example.com".toList, ?_, ?_, ?_⟩, rfl, by decide +kernel,
    by decide +kernel, by decide +kernel⟩
  · exact .inl ⟨[], [], by decide +kernel, by decide, .inl rfl, .inl rfl⟩
  · exact .inl ⟨[], [], by decide +kernel, by decide, .inl rfl, .inl rfl⟩
  · have spells : "*.pythonhosted.org.".toList = ['*', '.'] ++ "pythonhosted.org".toList ++ ['.'] := rfl
    have inside : "files.pythonhosted.org".toList = "files".toList ++ '.' :: "pythonhosted.org".toList := rfl
    have named : IsHostName "files.pythonhosted.org".toList := ⟨by decide +kernel, by decide +kernel⟩
    exact .wildcard spells (by decide) (by decide +kernel) (by decide) (by decide) named (.inl rfl) inside
      (by decide)
  · exact .inl ⟨[], [], by decide +kernel, by decide, .inl rfl, .inl rfl⟩
  · exact .inl ⟨[], "/x?u=http://y".toList, by decide +kernel, by decide, .inl rfl, .inr ⟨_, rfl⟩⟩
  · exact .exact ⟨by decide +kernel, by decide +kernel⟩ (by decide) (.inl rfl) (.inl rfl)

end OpenSquilla.Sandbox
