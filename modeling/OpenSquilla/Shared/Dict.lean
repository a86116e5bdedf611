import Mathlib.Data.List.Nodup
import Mathlib.Algebra.BigOperators.Group.List.Basic

set_option autoImplicit false

instance lawfulBEqOptionString : LawfulBEq (Option String) := inferInstance

@[ext]
structure Dict (κ ν : Type*) where
  entries : List (κ × ν)
  nodupKeys : (entries.map Prod.fst).Nodup
  deriving DecidableEq

namespace Dict

variable {κ ν : Type*}

def empty : Dict κ ν := ⟨[], List.nodup_nil⟩

def keys (d : Dict κ ν) : List κ := d.entries.map Prod.fst

def values (d : Dict κ ν) : List ν := d.entries.map Prod.snd

def size (d : Dict κ ν) : Nat := d.entries.length

def mapValues (d : Dict κ ν) (f : ν → ν) : Dict κ ν where
  entries := d.entries.map (fun entry => (entry.1, f entry.2))
  nodupKeys := by
    rw [List.map_map]
    exact d.nodupKeys

def filterKeys (d : Dict κ ν) (keep : κ → Bool) : Dict κ ν where
  entries := d.entries.filter (fun entry => keep entry.1)
  nodupKeys := d.nodupKeys.sublist (List.filter_sublist.map Prod.fst)

def dropOldest (d : Dict κ ν) (count : Nat) : Dict κ ν where
  entries := d.entries.drop count
  nodupKeys := d.nodupKeys.sublist ((List.drop_sublist count d.entries).map Prod.fst)

variable [DecidableEq κ]

def get? (d : Dict κ ν) (key : κ) : Option ν := d.entries.lookup key

def mapAt (key : κ) (f : ν → ν) (entry : κ × ν) : κ × ν :=
  if entry.1 = key then (entry.1, f entry.2) else entry

omit [DecidableEq κ] in
theorem map_fst_of_keeps (f : κ × ν → κ × ν) (keeps : ∀ entry, (f entry).1 = entry.1)
    (entries : List (κ × ν)) : (entries.map f).map Prod.fst = entries.map Prod.fst := by
  simp [Function.comp_def, keeps]

theorem mapAt_fst (key : κ) (f : ν → ν) (entry : κ × ν) : (mapAt key f entry).1 = entry.1 := by
  unfold mapAt
  split <;> rfl

def modify (d : Dict κ ν) (key : κ) (f : ν → ν) : Dict κ ν where
  entries := d.entries.map (mapAt key f)
  nodupKeys := by
    rw [map_fst_of_keeps _ (mapAt_fst key f)]
    exact d.nodupKeys

def erase (d : Dict κ ν) (key : κ) : Dict κ ν where
  entries := d.entries.filter (fun entry => entry.1 ≠ key)
  nodupKeys := d.nodupKeys.sublist (List.filter_sublist.map Prod.fst)

def append (d : Dict κ ν) (key : κ) (value : ν) (absent : key ∉ d.keys) : Dict κ ν where
  entries := d.entries ++ [(key, value)]
  nodupKeys := by
    rw [List.map_append, List.nodup_append]
    refine ⟨d.nodupKeys, by simp, ?_⟩
    intro a mem b single same
    simp only [List.map_cons, List.map_nil, List.mem_singleton] at single
    subst same single
    exact absent mem

def set (d : Dict κ ν) (key : κ) (value : ν) : Dict κ ν :=
  if absent : key ∉ d.keys then d.append key value absent else d.modify key (fun _ => value)

def setDefault (d : Dict κ ν) (key : κ) (value : ν) : Dict κ ν :=
  if absent : key ∉ d.keys then d.append key value absent else d

def setAll (d other : Dict κ ν) : Dict κ ν :=
  other.entries.foldl (fun d entry => d.set entry.1 entry.2) d

def ofList (entries : List (κ × ν)) : Dict κ ν :=
  entries.foldl (fun d entry => d.set entry.1 entry.2) empty

omit [DecidableEq κ] in
@[simp] theorem entries_empty : (empty : Dict κ ν).entries = [] := rfl

@[simp] theorem get?_empty (key : κ) : (empty : Dict κ ν).get? key = none := rfl

theorem get?_eq_some_iff (d : Dict κ ν) (key : κ) (value : ν) :
    d.get? key = some value ↔ (key, value) ∈ d.entries := by
  obtain ⟨entries, nodup⟩ := d
  simp only [get?]
  induction entries with
  | nil => simp
  | cons entry rest ih =>
    obtain ⟨k, v⟩ := entry
    simp only [List.map_cons, List.nodup_cons] at nodup
    by_cases same : key = k
    · subst same
      have fresh : (key, value) ∉ rest := fun mem => nodup.1 (List.mem_map_of_mem mem)
      simp [fresh, eq_comm]
    · have different : (key == k) = false := by simpa using same
      simp [List.lookup_cons, different, ih nodup.2, same]

theorem get?_eq_none_iff (d : Dict κ ν) (key : κ) : d.get? key = none ↔ key ∉ d.keys := by
  constructor
  · intro missing mem
    obtain ⟨⟨k, v⟩, entry, same⟩ := List.mem_map.mp mem
    obtain rfl : k = key := same
    rw [(get?_eq_some_iff d k v).mpr entry] at missing
    cases missing
  · intro absent
    cases found : d.get? key with
    | none => rfl
    | some value =>
      exact absurd (List.mem_map_of_mem ((get?_eq_some_iff d key value).mp found)) absent

theorem mem_keys_iff (d : Dict κ ν) (key : κ) : key ∈ d.keys ↔ ∃ value, d.get? key = some value := by
  cases found : d.get? key with
  | none => simpa using (get?_eq_none_iff d key).mp found
  | some value =>
    have mem : key ∈ d.keys := by
      by_contra absent
      rw [(get?_eq_none_iff d key).mpr absent] at found
      cases found
    simp [mem]

theorem get?_modify (d : Dict κ ν) (key other : κ) (f : ν → ν) :
    (d.modify key f).get? other = if other = key then (d.get? other).map f else d.get? other := by
  obtain ⟨entries, nodup⟩ := d
  simp only [get?, modify]
  clear nodup
  induction entries with
  | nil => simp
  | cons entry rest ih =>
    obtain ⟨k, v⟩ := entry
    by_cases here : other = k
    · subst here
      by_cases same : other = key <;> simp [mapAt, same]
    · have different : (other == k) = false := by simpa using here
      by_cases same : k = key
      · subst same
        simp [mapAt, List.lookup_cons, different, ih, here]
      · simp only [List.map_cons, mapAt, same, if_false, List.lookup_cons, different]
        exact ih

theorem modify_of_fixed (d : Dict κ ν) (key : κ) (f : ν → ν)
    (fixed : ∀ value, d.get? key = some value → f value = value) : d.modify key f = d := by
  obtain ⟨entries, nodup⟩ := d
  have same : entries.map (mapAt key f) = entries := by
    refine (List.map_congr_left fun entry mem => ?_).trans (List.map_id _)
    unfold mapAt
    split
    next here =>
      have found := (get?_eq_some_iff ⟨entries, nodup⟩ key entry.2).mpr (here ▸ mem)
      rw [fixed entry.2 found, id]
    next => rfl
  simp only [modify, same]

theorem filterMap_filter_key {β : Type*} (d : Dict κ ν) (f : κ × ν → Option (κ × β))
    (keeps : ∀ entry out, f entry = some out → out.1 = entry.1) (key : κ) :
    (d.entries.filterMap f).filter (·.1 = key) =
      ((d.get? key).bind fun value => f (key, value)).toList := by
  obtain ⟨entries, nodup⟩ := d
  simp only [get?]
  induction entries with
  | nil => rfl
  | cons entry rest ih =>
    obtain ⟨k, v⟩ := entry
    simp only [List.map_cons, List.nodup_cons] at nodup
    have later := ih nodup.2
    by_cases same : key = k
    · subst same
      have absent : rest.lookup key = none :=
        (get?_eq_none_iff ⟨rest, nodup.2⟩ key).mpr nodup.1
      rw [absent] at later
      cases out : f (key, v) with
      | none => simpa [List.filterMap_cons, out] using later
      | some pair => simpa [List.filterMap_cons, out, keeps _ _ out] using later
    · have different : (key == k) = false := by simpa using same
      have other : ∀ out, f (k, v) = some out → out.1 ≠ key := fun out made here =>
        same (here.symm.trans (keeps _ _ made))
      cases out : f (k, v) with
      | none => simpa [List.filterMap_cons, out, List.lookup_cons, different] using later
      | some pair =>
        simpa [List.filterMap_cons, out, List.lookup_cons, different, other pair out] using later

theorem get?_mapValues (d : Dict κ ν) (f : ν → ν) (key : κ) :
    (d.mapValues f).get? key = (d.get? key).map f := by
  obtain ⟨entries, nodup⟩ := d
  simp only [get?, mapValues]
  clear nodup
  induction entries with
  | nil => rfl
  | cons entry rest ih =>
    obtain ⟨k, v⟩ := entry
    cases same : (key == k) <;> simp [List.lookup_cons, same, ih]

theorem get?_erase (d : Dict κ ν) (key other : κ) :
    (d.erase key).get? other = if other = key then none else d.get? other := by
  apply Option.ext
  intro value
  rw [get?_eq_some_iff]
  by_cases same : other = key
  · simp [erase, same]
  · simp [erase, same, get?_eq_some_iff]

theorem erase_of_absent {d : Dict κ ν} {key : κ} (absent : d.get? key = none) : d.erase key = d := by
  have missing := (get?_eq_none_iff d key).mp absent
  obtain ⟨entries, nodupKeys⟩ := d
  have same : entries.filter (fun entry => entry.1 ≠ key) = entries := by
    apply List.filter_eq_self.mpr
    intro entry mem
    exact decide_eq_true (fun here => missing (here ▸ List.mem_map_of_mem mem))
  simp only [erase, same]

theorem get?_append (d : Dict κ ν) (key : κ) (value : ν) (absent : key ∉ d.keys) (other : κ) :
    (d.append key value absent).get? other = if other = key then some value else d.get? other := by
  apply Option.ext
  intro v
  rw [get?_eq_some_iff]
  by_cases same : other = key
  · subst same
    have missing : (other, v) ∉ d.entries := fun mem => absent (List.mem_map_of_mem mem)
    simp [append, missing, eq_comm]
  · simp [append, same, get?_eq_some_iff]

theorem erase_split {d : Dict κ ν} {key : κ} {value : ν} (found : d.get? key = some value) :
    ∃ before after, d.entries = before ++ (key, value) :: after ∧
      (d.erase key).entries = before ++ after := by
  obtain ⟨before, after, split⟩ :=
    List.append_of_mem ((get?_eq_some_iff d key value).mp found)
  have unique := d.nodupKeys
  rw [split, List.map_append, List.map_cons, List.nodup_middle, List.nodup_cons] at unique
  have others : ∀ entry ∈ before ++ after, entry.1 ≠ key := by
    intro entry mem same
    have present : entry.1 ∈ (before ++ after).map Prod.fst := List.mem_map_of_mem mem
    rw [same, List.map_append] at present
    exact unique.1 present
  refine ⟨before, after, split, ?_⟩
  have kept : (before ++ after).filter (fun entry => decide (entry.1 ≠ key)) = before ++ after :=
    List.filter_eq_self.mpr (by simpa using others)
  rw [List.filter_append] at kept
  simp only [erase, split, List.filter_append, List.filter_cons]
  simpa using kept

theorem map_entries_modify {β : Type*} (d : Dict κ ν) (key : κ) (f : ν → ν) (g : κ × ν → β)
    (keeps : ∀ k value, g (k, f value) = g (k, value)) : (d.modify key f).entries.map g = d.entries.map g := by
  rw [modify, List.map_map]
  apply List.map_congr_left
  intro ⟨k, value⟩ _
  by_cases same : k = key <;> simp [mapAt, same, keeps]

theorem entries_set_of_absent (d : Dict κ ν) (key : κ) (value : ν) (absent : key ∉ d.keys) :
    (d.set key value).entries = d.entries ++ [(key, value)] := by
  simp [set, absent, append]

theorem setAll_fresh (entries : List (κ × ν)) (d : Dict κ ν)
    (distinct : (d.keys ++ entries.map Prod.fst).Nodup) :
    (entries.foldl (fun d entry => d.set entry.1 entry.2) d).entries = d.entries ++ entries := by
  induction entries generalizing d with
  | nil => exact (List.append_nil _).symm
  | cons entry entries ih =>
    have absent : entry.1 ∉ d.keys := by
      intro mem
      rw [List.map_cons, List.nodup_append] at distinct
      exact distinct.2.2 _ mem _ List.mem_cons_self rfl
    have set := entries_set_of_absent d entry.1 entry.2 absent
    rw [List.foldl_cons, ih, set, List.append_assoc, List.singleton_append]
    rwa [keys, set, List.map_append, List.append_assoc]

theorem entries_ofList {entries : List (κ × ν)} (distinct : (entries.map Prod.fst).Nodup) :
    (ofList entries).entries = entries := setAll_fresh entries empty distinct

@[simp] theorem get?_set (d : Dict κ ν) (key other : κ) (value : ν) :
    (d.set key value).get? other = if other = key then some value else d.get? other := by
  unfold set
  split
  next absent => exact get?_append d key value absent other
  next present =>
    rw [get?_modify]
    by_cases same : other = key
    · subst same
      obtain ⟨old, found⟩ := (mem_keys_iff d other).mp (not_not.mp present)
      simp [found]
    · simp [same]

@[simp] theorem mem_keys_set (d : Dict κ ν) (key other : κ) (value : ν) :
    other ∈ (d.set key value).keys ↔ other = key ∨ other ∈ d.keys := by
  by_cases same : other = key <;> simp [mem_keys_iff, same]

@[simp] theorem get?_setDefault (d : Dict κ ν) (key other : κ) (value : ν) :
    (d.setDefault key value).get? other =
      if other = key then some ((d.get? key).getD value) else d.get? other := by
  unfold setDefault
  split
  next absent =>
    rw [get?_append, (get?_eq_none_iff d key).mpr absent]
    rfl
  next present =>
    by_cases same : other = key
    · subst same
      obtain ⟨old, found⟩ := (mem_keys_iff d other).mp (not_not.mp present)
      simp [found]
    · simp [same]

section Sum

variable {M : Type*} [AddCommMonoid M]

def sumValues (d : Dict κ ν) (f : ν → M) : M := (d.values.map f).sum

omit [DecidableEq κ] in
@[simp] theorem sumValues_empty (f : ν → M) : (empty : Dict κ ν).sumValues f = 0 := rfl

omit [DecidableEq κ] in
theorem size_eq_sumValues (d : Dict κ ν) : d.size = d.sumValues (fun _ => 1) := by
  simp [size, sumValues, values, Function.comp_def]

theorem sumValues_erase {d : Dict κ ν} {key : κ} {value : ν} (found : d.get? key = some value)
    (f : ν → M) : d.sumValues f = f value + (d.erase key).sumValues f := by
  obtain ⟨before, after, split, erased⟩ := erase_split found
  simp only [sumValues, values, split, erased, List.map_append, List.map_cons, List.sum_append,
    List.sum_cons]
  exact add_left_comm _ _ _

theorem erase_set (d : Dict κ ν) (key : κ) (value : ν) :
    ((d.set key value).erase key).entries = (d.erase key).entries := by
  unfold set
  split
  next => simp [erase, append]
  next =>
    simp only [erase, modify, List.filter_map]
    have keys : ∀ entry : κ × ν, (mapAt key (fun _ => value) entry).1 = entry.1 := mapAt_fst key _
    simp only [Function.comp_def, keys]
    refine (List.map_congr_left (fun entry mem => ?_)).trans (List.map_id _)
    have other : entry.1 ≠ key := of_decide_eq_true (List.mem_filter.mp mem).2
    simp [mapAt, other]

theorem sumValues_set (d : Dict κ ν) (key : κ) (value : ν) (f : ν → M) :
    (d.set key value).sumValues f + (d.get? key).elim 0 f = d.sumValues f + f value := by
  have there : (d.set key value).get? key = some value := by simp
  have after := sumValues_erase there f
  have others : ((d.set key value).erase key).sumValues f = (d.erase key).sumValues f := by
    simp only [sumValues, values, erase_set]
  rw [after, others]
  cases found : d.get? key with
  | none => rw [erase_of_absent found, Option.elim_none, add_zero, add_comm]
  | some old =>
    rw [Option.elim_some, sumValues_erase found]
    rw [add_right_comm, add_comm (f value) (f old), add_right_comm]

end Sum

end Dict
