import OpenSquilla.Shared.BoundedTail

set_option autoImplicit false

namespace OpenSquilla.Outputs

open BoundedTail

abbrev Bytes := List UInt8

structure Preview where
  limit : Nat
  head : Bytes
  tail : Bytes
  observed : Nat
  headFits : head.length ≤ limit / 2

namespace Preview

def fresh (limit : Nat) : Preview := ⟨limit, [], [], 0, Nat.zero_le _⟩

def tailLimit (view : Preview) : Nat := view.limit - view.limit / 2

def lastSlice (values : Bytes) (count : Nat) : Bytes :=
  if count = 0 then values else values.drop (values.length - count)

def append (view : Preview) (chunk : Bytes) : Preview :=
  let take := min chunk.length (view.limit / 2 - view.head.length)
  let remaining := chunk.drop take
  { view with
    observed := view.observed + chunk.length
    head := view.head ++ chunk.take take
    tail :=
      if view.tailLimit ≤ remaining.length then lastSlice remaining view.tailLimit
      else view.tail.drop (view.tail.length + remaining.length - view.tailLimit) ++ remaining
    headFits := by
      have fits := view.headFits
      rw [List.length_append, List.length_take]
      omega }

def omitted (view : Preview) : Nat := view.observed - view.head.length - view.tail.length

def latest (view : Preview) (limit : Int) : Bytes :=
  if limit ≤ 0 then [] else lastSlice (lastSlice view.head limit.toNat ++ view.tail) limit.toNat

structure Holds (view : Preview) (bytes : Bytes) : Prop where
  head : view.head = bytes.take (view.limit / 2)
  tail : view.tail = lastOf view.tailLimit (bytes.drop (view.limit / 2))
  observed : view.observed = bytes.length

theorem lastSlice_eq {count : Nat} (some : 0 < count) (values : Bytes) :
    lastSlice values count = lastOf count values := by
  rw [lastSlice, if_neg (Nat.ne_of_gt some), lastOf]

theorem appended_tail {bound : Nat} (some : 0 < bound) (kept more : Bytes) :
    (if bound ≤ more.length then lastSlice more bound else
      kept.drop (kept.length + more.length - bound) ++ more) =
      lastOf bound (kept ++ more) := by
  split
  next long =>
    rw [lastSlice_eq some, lastOf, lastOf, List.length_append]
    have behind : kept.length + more.length - bound = kept.length + (more.length - bound) := by omega
    rw [behind, List.drop_append, List.drop_eq_nil_of_le (Nat.le_add_right _ _), List.nil_append,
        Nat.add_sub_cancel_left]
  next short =>
    rw [lastOf, List.length_append, List.drop_append_of_le_length (by omega)]

theorem Holds.room {view : Preview} {bytes : Bytes} (holds : view.Holds bytes) :
    view.limit / 2 - view.head.length = view.limit / 2 - bytes.length := by
  rw [holds.head, List.length_take]
  omega

theorem Holds.append {view : Preview} {bytes : Bytes} (holds : view.Holds bytes) (enough : 2 ≤ view.limit)
    (chunk : Bytes) : (view.append chunk).Holds (bytes ++ chunk) where
  head := by
    have taken :
        chunk.take (min chunk.length (view.limit / 2 - bytes.length)) =
          chunk.take (view.limit / 2 - bytes.length) := by
      rw [List.take_eq_take_iff]
      omega
    rw [Preview.append, List.take_append, ← taken, ← holds.head, ← holds.room]
  tail := by
    have some : 0 < view.tailLimit := by
      rw [tailLimit]
      omega
    have left : chunk.drop (min chunk.length (view.limit / 2 - bytes.length)) =
        chunk.drop (view.limit / 2 - bytes.length) := by
      rw [Nat.min_def]
      split
      next all => rw [List.drop_eq_nil_of_le (Nat.le_refl _), List.drop_eq_nil_of_le all]
      next => rfl
    calc (view.append chunk).tail
        = lastOf view.tailLimit
          (view.tail ++ chunk.drop (min chunk.length (view.limit / 2 - view.head.length))) :=
          appended_tail some _ _
      _ = lastOf view.tailLimit (bytes.drop (view.limit / 2) ++ chunk.drop (view.limit / 2 - bytes.length)) := by
          rw [holds.room, left, holds.tail, lastOf_append_lastOf]
      _ = lastOf view.tailLimit ((bytes ++ chunk).drop (view.limit / 2)) := by rw [List.drop_append]
  observed := by rw [Preview.append, List.length_append, ← holds.observed]

theorem fresh_holds (limit : Nat) : (fresh limit).Holds [] where
  head := by rw [List.take_nil]; rfl
  tail := by rw [List.drop_nil, lastOf_nil]; rfl
  observed := rfl

theorem Holds.appended {view : Preview} {bytes : Bytes} (holds : view.Holds bytes) (enough : 2 ≤ view.limit)
    (chunks : List Bytes) : (chunks.foldl Preview.append view).Holds (bytes ++ chunks.flatten) ∧
      (chunks.foldl Preview.append view).limit = view.limit := by
  induction chunks generalizing view bytes with
  | nil =>
    rw [List.flatten_nil, List.append_nil]
    exact ⟨holds, rfl⟩
  | cons chunk rest ih =>
    rw [List.flatten_cons, ← List.append_assoc]
    exact ih (holds.append enough chunk) enough

variable {view : Preview} {bytes : Bytes}

theorem Holds.counts (holds : view.Holds bytes) :
    view.head.length + view.tail.length + view.omitted = bytes.length := by
  have tail : view.tail.length = min (bytes.length - view.limit / 2) view.tailLimit := by
    rw [holds.tail, length_lastOf, List.length_drop]
  have head : view.head.length = min (view.limit / 2) bytes.length := by rw [holds.head, List.length_take]
  rw [omitted, holds.observed]
  omega

theorem Holds.middle (holds : view.Holds bytes) :
    ∃ middle, bytes = view.head ++ middle ++ view.tail ∧ middle.length = view.omitted := by
  let rest := bytes.drop (view.limit / 2)
  have split : bytes = view.head ++ rest.take (rest.length - view.tailLimit) ++ view.tail := by
    rw [holds.head, holds.tail, lastOf, List.append_assoc, List.take_append_drop, List.take_append_drop]
  refine ⟨rest.take (rest.length - view.tailLimit), split, ?_⟩
  have counts := holds.counts
  have lengths := congrArg List.length split
  rw [List.length_append, List.length_append] at lengths
  omega

theorem Holds.whole (holds : view.Holds bytes) (none : view.omitted = 0) : view.head ++ view.tail = bytes := by
  obtain ⟨middle, split, length⟩ := holds.middle
  rw [none, List.length_eq_zero_iff] at length
  rw [split, length, List.append_nil]

theorem lastOf_lastOf {count bound : Nat} (within : count ≤ bound) (values : Bytes) :
    lastOf count (lastOf bound values) = lastOf count values := by
  rw [lastOf, length_lastOf, lastOf, List.drop_drop, lastOf]
  congr 1
  omega

theorem Holds.latest (holds : view.Holds bytes) {limit : Int} (within : limit ≤ view.tailLimit) :
    view.latest limit = lastOf limit.toNat bytes := by
  rw [Preview.latest]
  split
  next none => rw [Int.toNat_of_nonpos none, lastOf, Nat.sub_zero, List.drop_length]
  next some =>
    have positive : 0 < limit.toNat := by omega
    have inTail : limit.toNat ≤ view.tailLimit := by omega
    rw [lastSlice_eq positive, lastSlice_eq positive, lastOf_append_lastOf]
    calc lastOf limit.toNat (view.head ++ view.tail)
        = lastOf limit.toNat (lastOf view.tailLimit
          (view.head ++ lastOf view.tailLimit (bytes.drop (view.limit / 2)))) := by
          rw [lastOf_lastOf inTail, holds.tail]
      _ = lastOf limit.toNat (lastOf view.tailLimit
        (bytes.take (view.limit / 2) ++ bytes.drop (view.limit / 2))) := by
          rw [lastOf_append_right, holds.head]
      _ = lastOf limit.toNat bytes := by rw [List.take_append_drop, lastOf_lastOf inTail]

def ofChunks (limit : Nat) (chunks : List Bytes) : Preview := chunks.foldl append (fresh limit)

/-- However an output is cut, its preview is the one of its bytes. -/
theorem preview_is_of_the_bytes {limit : Nat} (enough : 2 ≤ limit) {bytes : Bytes} {chunks : List Bytes}
    (cut : chunks.flatten = bytes) :
    let view := ofChunks limit chunks
    let rest := bytes.drop (limit / 2)
    view.head = bytes.take (limit / 2) ∧
      view.tail = lastOf (min rest.length (limit - limit / 2)) rest ∧
      view.observed = bytes.length ∧
      (∃ middle, bytes = view.head ++ middle ++ view.tail ∧ view.omitted = middle.length) ∧
      (view.omitted = 0 → view.head ++ view.tail = bytes) ∧
      ∀ count : Int, count ≤ (limit - limit / 2 : Nat) →
        view.latest count = lastOf (min count.toNat view.observed) bytes := by
  intro view rest
  have appended := (fresh_holds limit).appended enough chunks
  rw [List.nil_append, cut] at appended
  obtain ⟨holds, sameLimit⟩ : view.Holds bytes ∧ view.limit = limit := appended
  have sameTail : view.tailLimit = limit - limit / 2 := by rw [tailLimit, sameLimit]
  have capped : ∀ (count : Nat) (values : Bytes),
      lastOf count values = lastOf (min count values.length) values := by
    intro count values
    rw [lastOf, lastOf]
    congr 1
    omega
  refine ⟨?_, ?_, holds.observed, ?_, holds.whole, ?_⟩
  · rw [holds.head, sameLimit]
  · rw [holds.tail, sameTail, sameLimit, capped, Nat.min_comm]
  · obtain ⟨middle, split, length⟩ := holds.middle
    exact ⟨middle, split, length.symm⟩
  · intro count within
    rw [← sameTail] at within
    rw [holds.latest within, holds.observed, capped]

theorem preview_is_of_the_bytes_three_chunks :
    let view := ofChunks 4 [[1, 2, 3], [4], [5, 6]]
    view.head = [1, 2] ∧ view.tail = [5, 6] ∧ view.latest 1 = [6] := by
  have all := @preview_is_of_the_bytes 4 (by decide) [1, 2, 3, 4, 5, 6] [[1, 2, 3], [4], [5, 6]] rfl
  exact ⟨all.1, all.2.1, all.2.2.2.2.2 1 (by decide)⟩

end Preview

end OpenSquilla.Outputs
