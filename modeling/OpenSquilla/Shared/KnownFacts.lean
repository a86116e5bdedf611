import OpenSquilla.Shared.Dict

set_option autoImplicit false

-- A fact has a key and, once it is known, a value. Facts are merged by their keys: a known fact
-- stands in for an unknown one, and two known facts of one key must have one value.

namespace KnownFacts

universe u v w

variable {φ : Type u} {κ : Type v} {ν : Type w} (key : φ → κ) (value : φ → Option ν)

def Consistent (facts : List φ) : Prop :=
  ∀ one ∈ facts, ∀ other ∈ facts, key one = key other →
    ∀ v, value one = some v → ∀ w, value other = some w → v = w

def Known (facts : List φ) (k : κ) (v : ν) : Prop := ∃ fact ∈ facts, key fact = k ∧ value fact = some v

variable {key value}

theorem consistent_iff {facts : List φ} :
    Consistent key value facts ↔ ∀ k v w, Known key value facts k v → Known key value facts k w → v = w := by
  constructor
  · rintro consistent k v w ⟨one, oneMem, rfl, oneValue⟩ ⟨other, otherMem, same, otherValue⟩
    exact consistent one oneMem other otherMem same.symm v oneValue w otherValue
  · intro unique one oneMem other otherMem same v oneValue w otherValue
    exact unique (key one) v w ⟨one, oneMem, rfl, oneValue⟩ ⟨other, otherMem, same.symm, otherValue⟩

theorem known_append {first second : List φ} {k : κ} {v : ν} :
    Known key value (first ++ second) k v ↔ Known key value first k v ∨ Known key value second k v := by
  constructor
  · rintro ⟨fact, mem, facts⟩
    obtain mem | mem := List.mem_append.1 mem
    · exact .inl ⟨fact, mem, facts⟩
    · exact .inr ⟨fact, mem, facts⟩
  · rintro (⟨fact, mem, facts⟩ | ⟨fact, mem, facts⟩)
    · exact ⟨fact, List.mem_append_left _ mem, facts⟩
    · exact ⟨fact, List.mem_append_right _ mem, facts⟩

theorem consistent_nil : Consistent key value [] :=
  fun _ mem => absurd mem List.not_mem_nil

theorem Consistent.left {first second : List φ} (consistent : Consistent key value (first ++ second)) :
    Consistent key value first :=
  fun one oneMem other otherMem =>
    consistent one (List.mem_append_left _ oneMem) other (List.mem_append_left _ otherMem)

theorem consistent_congr {first second : List φ}
    (same : ∀ k v, Known key value first k v ↔ Known key value second k v) :
    Consistent key value first ↔ Consistent key value second := by
  simp only [consistent_iff, same]

variable [DecidableEq κ] [DecidableEq ν] (key value)

instance (facts : List φ) : Decidable (Consistent key value facts) :=
  decidable_of_iff (∀ one ∈ facts, ∀ other ∈ facts, key one = key other →
      ∀ v ∈ value one, ∀ w ∈ value other, v = w)
    (by simp only [Consistent, Option.mem_def])

def absorb (merged : Dict κ φ) (fact : φ) : Option (Dict κ φ) :=
  match merged.get? (key fact) with
  | none => some (merged.set (key fact) fact)
  | some previous =>
    match value previous, value fact with
    | some v, some w => if v = w then some (merged.set (key fact) fact) else none
    | none, some _ => some (merged.set (key fact) fact)
    | _, none => some merged

def absorbAll (merged : Dict κ φ) : List φ → Option (Dict κ φ)
  | [] => some merged
  | fact :: rest => (absorb key value merged fact).bind (fun merged => absorbAll merged rest)

def merge (facts : List φ) : Option (Dict κ φ) := absorbAll key value Dict.empty facts

variable {key value}

/-- The merged facts hold, under each key, the fact of that key that is known if one is. -/
structure Merges (key : φ → κ) (value : φ → Option ν) (merged : Dict κ φ) (facts : List φ) : Prop where
  keyed : ∀ k fact, merged.get? k = some fact → key fact = k
  known : ∀ k v, (∃ fact, merged.get? k = some fact ∧ value fact = some v) ↔ Known key value facts k v

omit [DecidableEq ν] in
theorem Merges.nil : Merges key value Dict.empty [] := by
  constructor
  · intro k fact found
    cases found
  · intro k v
    constructor
    · rintro ⟨fact, found, -⟩
      cases found
    · rintro ⟨fact, mem, -⟩
      exact absurd mem List.not_mem_nil

omit [DecidableEq κ] [DecidableEq ν] in
theorem known_append_single {facts : List φ} {fact : φ} {k : κ} {v : ν} :
    Known key value (facts ++ [fact]) k v ↔
      Known key value facts k v ∨ (key fact = k ∧ value fact = some v) := by
  rw [known_append]
  refine or_congr_right ?_
  constructor
  · rintro ⟨other, mem, facts⟩
    rw [List.mem_singleton] at mem
    subst mem
    exact facts
  · intro facts
    exact ⟨fact, List.mem_singleton_self _, facts⟩

omit [DecidableEq ν] in
theorem Merges.set {merged : Dict κ φ} {facts : List φ} {fact : φ} (merges : Merges key value merged facts)
    (agrees : ∀ v, Known key value facts (key fact) v → value fact = some v) :
    Merges key value (merged.set (key fact) fact) (facts ++ [fact]) := by
  constructor
  · intro k found
    rw [Dict.get?_set]
    split
    next same =>
      rintro ⟨⟩
      exact same.symm
    next => exact merges.keyed k found
  · intro k v
    rw [known_append_single, Dict.get?_set]
    split
    next same =>
      subst same
      constructor
      · rintro ⟨_, ⟨⟩, known⟩
        exact .inr ⟨rfl, known⟩
      · rintro (known | ⟨-, known⟩)
        · exact ⟨fact, rfl, agrees v known⟩
        · exact ⟨fact, rfl, known⟩
    next different =>
      rw [merges.known]
      constructor
      · exact .inl
      · rintro (known | ⟨same, -⟩)
        · exact known
        · exact absurd same.symm different

omit [DecidableEq ν] in
theorem Merges.skip {merged : Dict κ φ} {facts : List φ} {fact : φ} (merges : Merges key value merged facts)
    (unknown : value fact = none) : Merges key value merged (facts ++ [fact]) := by
  refine ⟨merges.keyed, fun k v => ?_⟩
  rw [merges.known, known_append_single]
  constructor
  · exact .inl
  · rintro (known | ⟨-, known⟩)
    · exact known
    · rw [unknown] at known
      cases known

theorem absorb_cases {merged : Dict κ φ} {facts : List φ} (merges : Merges key value merged facts) (fact : φ) :
    (∃ next, absorb key value merged fact = some next ∧
      Merges key value next (facts ++ [fact])) ∨
    (absorb key value merged fact = none ∧
      ∃ v w, Known key value facts (key fact) v ∧ value fact = some w ∧ v ≠ w) := by
  unfold absorb
  split
  next missing =>
    refine .inl ⟨_, rfl, merges.set fun v known => ?_⟩
    obtain ⟨other, found, -⟩ := (merges.known _ v).2 known
    rw [missing] at found
    cases found
  next previous found =>
    split
    next v w before after =>
      have known := (merges.known (key fact) v).1 ⟨previous, found, before⟩
      split
      next same =>
        refine .inl ⟨_, rfl, merges.set fun other otherKnown => ?_⟩
        obtain ⟨_, otherFound, otherBefore⟩ := (merges.known _ other).2 otherKnown
        obtain rfl := Option.some.inj (found.symm.trans otherFound)
        rw [after, ← same, ← before]
        exact otherBefore
      next different => exact .inr ⟨rfl, v, w, known, after, different⟩
    next w before after =>
      refine .inl ⟨_, rfl, merges.set fun other otherKnown => ?_⟩
      obtain ⟨_, otherFound, otherBefore⟩ := (merges.known _ other).2 otherKnown
      obtain rfl := Option.some.inj (found.symm.trans otherFound)
      rw [before] at otherBefore
      cases otherBefore
    next unknown => exact .inl ⟨_, rfl, merges.skip unknown⟩

theorem absorbAll_iff {merged : Dict κ φ} {done : List φ} (facts : List φ)
    (merges : Merges key value merged done) (consistent : Consistent key value done) :
    (∀ next, absorbAll key value merged facts = some next → Merges key value next (done ++ facts)) ∧
      ((∃ next, absorbAll key value merged facts = some next) ↔ Consistent key value (done ++ facts)) := by
  induction facts generalizing merged done with
  | nil =>
    rw [List.append_nil]
    refine ⟨?_, fun _ => consistent, fun _ => ⟨merged, rfl⟩⟩
    rintro next ⟨⟩
    exact merges
  | cons fact rest ih =>
    have split : done ++ fact :: rest = (done ++ [fact]) ++ rest := by simp
    rw [split]
    obtain ⟨next, absorbed, later⟩ | ⟨refused, v, w, known, after, different⟩ := absorb_cases merges fact
    · have still : Consistent key value (done ++ [fact]) := by
        rw [consistent_iff]
        intro k v w first second
        obtain ⟨one, oneFound, oneValue⟩ := (later.known k v).2 first
        obtain ⟨other, otherFound, otherValue⟩ := (later.known k w).2 second
        obtain rfl := Option.some.inj (oneFound.symm.trans otherFound)
        exact Option.some.inj (oneValue.symm.trans otherValue)
      simp only [absorbAll, absorbed, Option.bind_some]
      exact ih later still
    · have refusedAll : absorbAll key value merged (fact :: rest) = none := by
        rw [absorbAll, refused, Option.bind_none]
      rw [refusedAll]
      constructor
      · rintro next ⟨⟩
      · constructor
        · rintro ⟨next, ⟨⟩⟩
        · intro all
          have both := consistent_iff.1 all.left (key fact) v w
          exact absurd (both (known_append.2 (.inl known)) (known_append_single.2 (.inr ⟨rfl, after⟩)))
            different

theorem merges_of_merge {facts : List φ} {merged : Dict κ φ} (ran : merge key value facts = some merged) :
    Merges key value merged facts :=
  (absorbAll_iff facts .nil consistent_nil).1 merged ran

theorem exists_merge_iff {facts : List φ} :
    (∃ merged, merge key value facts = some merged) ↔ Consistent key value facts :=
  (absorbAll_iff facts .nil consistent_nil).2

theorem known_values {facts : List φ} {merged : Dict κ φ} (ran : merge key value facts = some merged)
    (k : κ) (v : ν) : Known key value merged.values k v ↔ Known key value facts k v := by
  have merges := merges_of_merge ran
  rw [← merges.known]
  constructor
  · rintro ⟨fact, mem, rfl, known⟩
    obtain ⟨⟨k, _⟩, entry, rfl⟩ := List.mem_map.1 mem
    have found := (merged.get?_eq_some_iff k _).2 entry
    rw [merges.keyed k _ found]
    exact ⟨_, found, known⟩
  · rintro ⟨fact, found, known⟩
    have entry := (merged.get?_eq_some_iff k fact).1 found
    exact ⟨fact, List.mem_map_of_mem entry, merges.keyed k fact found, known⟩

end KnownFacts
