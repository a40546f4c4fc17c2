import Flowgraph.Proofs.Block.Pieces
import Mathlib.Algebra.Order.Floor.Div

/-!
# What is heard of a source

Which sample is heard at a time is a matter of the time alone: reading keeps to
it wherever the buffers end, and cutting the samples into blocks shows the same.
-/

namespace Flowgraph

namespace Audio

variable {α : Type} [OfNat α 0]

/-- The sample that is heard at a time.  After the end there is silence, or the beginning again. -/
def heard (samples : List α) (loop : Bool) (t : Nat) : α :=
  (samples[if loop then t % samples.length else t]?).getD 0

def window (samples : List α) (loop : Bool) (t size : Nat) : List α :=
  (List.range size).map fun i => heard samples loop (t + i)

@[simp]
theorem length_window (samples : List α) (loop : Bool) (t size : Nat) :
    (window samples loop t size).length = size := by
  simp [window]

theorem window_succ (samples : List α) (loop : Bool) (t size : Nat) :
    window samples loop t (size + 1) =
      heard samples loop t :: window samples loop (t + 1) size := by
  simp only [window, List.range_succ_eq_map, List.map_cons, List.map_map, Nat.add_zero]
  congr 1
  refine List.map_congr_left fun i _ => ?_
  show heard samples loop (t + (i + 1)) = heard samples loop (t + 1 + i)
  congr 1
  omega

theorem window_append (samples : List α) (loop : Bool) (t size more : Nat) :
    window samples loop t size ++ window samples loop (t + size) more =
      window samples loop t (size + more) := by
  simp only [window, List.range_add, List.map_append, List.map_map]
  congr 1
  refine List.map_congr_left fun i _ => ?_
  show heard samples loop (t + size + i) = heard samples loop (t + (size + i))
  rw [Nat.add_assoc]

/-- Of a source that does not start over the rest is heard, and then silence. -/
theorem window_plain (samples : List α) (t size : Nat) :
    window samples false t size =
      (samples.drop t).take size ++ List.replicate (size - (samples.length - t)) 0 := by
  refine List.ext_getElem (by simp; omega) fun i small _ => ?_
  rw [length_window] at small
  simp only [window, heard, List.getElem_map, List.getElem_range, Bool.false_eq_true, if_false]
  by_cases inside : t + i < samples.length
  · rw [List.getElem_append_left (by simp; omega), List.getElem?_eq_getElem inside]
    simp
  · rw [List.getElem_append_right (by simp; omega),
      List.getElem?_eq_none (Nat.le_of_not_lt inside)]
    simp

theorem window_after (samples : List α) {t : Nat} (after : samples.length ≤ t) (size : Nat) :
    window samples false t size = List.replicate size 0 := by
  rw [window_plain, List.drop_eq_nil_of_le after, Nat.sub_eq_zero_of_le after, List.take_nil,
    List.nil_append, Nat.sub_zero]

def windows (samples : List α) (loop : Bool) : Nat → List Nat → List (List α)
  | _, [] => []
  | t, size :: rest => window samples loop t size :: windows samples loop (t + size) rest

theorem map_length_windows (samples : List α) (loop : Bool) (t : Nat) (sizes : List Nat) :
    (windows samples loop t sizes).map List.length = sizes := by
  induction sizes generalizing t with
  | nil => rfl
  | cons size rest ih => rw [windows, List.map_cons, length_window, ih]

theorem flatten_windows (samples : List α) (loop : Bool) (t : Nat) (sizes : List Nat) :
    (windows samples loop t sizes).flatten = window samples loop t sizes.sum := by
  induction sizes generalizing t with
  | nil => rfl
  | cons size rest ih => rw [windows, List.flatten_cons, ih, window_append, List.sum_cons]

/-! ## Reading -/

namespace Playback

structure Reached (samples : List α) (loop : Bool) (t offset : Nat) : Prop where
  le_length : offset ≤ samples.length
  plain : loop = false → offset = min t samples.length
  looped : loop = true → 0 < samples.length → offset % samples.length = t % samples.length

omit [OfNat α 0] in
theorem reached_zero (samples : List α) (loop : Bool) : Reached samples loop 0 0 where
  le_length := Nat.zero_le _
  plain _ := (Nat.zero_min _).symm
  looped _ _ := rfl

variable {samples : List α} {loop : Bool} {t offset : Nat}

omit [OfNat α 0] in
theorem Reached.step (h : Reached samples loop t offset) (inside : offset < samples.length) :
    Reached samples loop (t + 1) (offset + 1) where
  le_length := inside
  plain unlooped := by
    have := h.plain unlooped
    omega
  looped again some := by rw [Nat.add_mod, h.looped again some, ← Nat.add_mod]

omit [OfNat α 0] in
theorem Reached.rewind (h : Reached samples true t offset) (atEnd : offset = samples.length) :
    Reached samples true t 0 where
  le_length := Nat.zero_le _
  plain unlooped := absurd unlooped (by decide)
  looped again some := by rw [← h.looped again some, atEnd, Nat.mod_self, Nat.zero_mod]

theorem Reached.next_inside (h : Reached samples loop t offset) (inside : offset < samples.length) :
    samples[offset] = heard samples loop t := by
  cases loop with
  | false =>
      have place : offset = t := by
        have := h.plain rfl
        omega
      subst place
      simp [heard, List.getElem?_eq_getElem inside]
  | true =>
      have place : t % samples.length = offset := by
        rw [← h.looped rfl (by omega), Nat.mod_eq_of_lt inside]
      simp [heard, place, List.getElem?_eq_getElem inside]

theorem Reached.next (h : Reached samples loop t offset) :
    (next samples loop offset).1 = heard samples loop t ∧
      Reached samples loop (t + 1) (next samples loop offset).2 := by
  by_cases inside : offset < samples.length
  · rw [Playback.next_inside samples loop inside]
    exact ⟨h.next_inside inside, h.step inside⟩
  have atEnd : offset = samples.length := Nat.le_antisymm h.le_length (Nat.le_of_not_lt inside)
  rw [next_beyond samples loop atEnd.ge]
  by_cases again : loop = true ∧ offset ≠ 0
  · obtain ⟨rfl, some⟩ := again
    have first := h.rewind atEnd
    have inside : 0 < samples.length := by omega
    cases samples with
    | nil => cases inside
    | cons x rest =>
        rw [if_pos ⟨rfl, some⟩]
        exact ⟨first.next_inside inside, first.step inside⟩
  · rw [if_neg again]
    have late : loop = false → samples.length ≤ t := fun unlooped => by
      have := h.plain unlooped
      omega
    have none : loop = true → samples.length = 0 := fun looped => by
      by_contra some
      exact again ⟨looped, by omega⟩
    constructor
    · cases loop with
      | false => simp [heard, List.getElem?_eq_none (late rfl)]
      | true => simp [heard, List.eq_nil_of_length_eq_zero (none rfl)]
    · refine ⟨h.le_length, fun unlooped => ?_, fun looped some => ?_⟩
      · have := late unlooped
        omega
      · have := none looped
        omega

/-- A buffer is filled with what is heard from its time on. -/
theorem Reached.fill (h : Reached samples loop t offset) (count : Nat) :
    (fill samples loop offset count).1 = window samples loop t count ∧
      Reached samples loop (t + count) (fill samples loop offset count).2 := by
  induction count generalizing t offset with
  | zero =>
      rw [fill_zero]
      exact ⟨rfl, h⟩
  | succ count ih =>
      obtain ⟨first, reached⟩ := h.next
      obtain ⟨rest, after⟩ := ih reached
      rw [fill_succ, window_succ, first, rest]
      exact ⟨rfl, by rwa [Nat.add_right_comm] at after⟩

/-! ## The number of turns -/

/--
Filling a buffer in a limited number of turns.  A turn copies what is there, or
goes back to the beginning, or leaves the rest silent, and one more turn sees
that nothing is missing.  There is no result if the turns do not suffice.
-/
def fillWithin (samples : List α) (loop : Bool) : (turns offset count : Nat) → Option (List α × Nat)
  | 0, _, _ => none
  | turns + 1, offset, count =>
    if count = 0 then some ([], offset)
    else if samples.length ≤ offset then
      if loop then fillWithin samples loop turns 0 count
      else some (List.replicate count 0, offset)
    else
      let chunk := (samples.drop offset).take count
      (fillWithin samples loop turns (offset + chunk.length) (count - chunk.length)).map
        fun rest => (chunk ++ rest.1, rest.2)

theorem fillWithin_inside {count : Nat} (inside : offset < samples.length)
    (fewer : ∀ turns offset left, left < count → 2 * left + 1 ≤ turns →
      fillWithin samples loop turns offset left = some (fill samples loop offset left))
    {turns : Nat} (positive : 0 < count) (enough : 2 * count ≤ turns) :
    fillWithin samples loop turns offset count = some (fill samples loop offset count) := by
  obtain ⟨turns, rfl⟩ : ∃ k, turns = k + 1 := ⟨turns - 1, by omega⟩
  have copied : ((samples.drop offset).take count).length = min count (samples.length - offset) := by
    simp
  have nonempty : ((samples.drop offset).take count).isEmpty = false := by
    rw [List.isEmpty_eq_false_iff, ← List.length_pos_iff, copied]
    omega
  have rest := fewer turns (offset + ((samples.drop offset).take count).length)
    (count - ((samples.drop offset).take count).length) (by omega) (by omega)
  rw [fillWithin, if_neg (by omega), if_neg (by omega), Playback.fill, if_neg (by omega)]
  simp only [nonempty, rest, Bool.false_eq_true, if_false, Option.map_some]

/-- A buffer is full, or there is nothing left, after at most two turns for each of its samples. -/
theorem fillWithin_eq (filled : samples ≠ []) (loop : Bool) {turns offset count : Nat}
    (enough : 2 * count + 1 ≤ turns) :
    fillWithin samples loop turns offset count = some (fill samples loop offset count) := by
  induction count using Nat.strong_induction_on generalizing turns offset with
  | h count fewer =>
      have fewer' : ∀ turns offset left, left < count → 2 * left + 1 ≤ turns →
          fillWithin samples loop turns offset left = some (fill samples loop offset left) :=
        fun turns offset left less enough => fewer left less enough
      rcases Nat.eq_zero_or_pos count with rfl | positive
      · obtain ⟨turns, rfl⟩ : ∃ k, turns = k + 1 := ⟨turns - 1, by omega⟩
        rw [fillWithin, if_pos rfl, fill_zero]
      by_cases inside : offset < samples.length
      · exact fillWithin_inside inside fewer' positive (by omega)
      obtain ⟨turns, rfl⟩ : ∃ k, turns = k + 1 := ⟨turns - 1, by omega⟩
      have beyond : samples.length ≤ offset := Nat.le_of_not_lt inside
      have first : 0 < samples.length := List.length_pos_iff.mpr filled
      obtain ⟨left, rfl⟩ : ∃ k, count = k + 1 := ⟨count - 1, by omega⟩
      rw [fillWithin, if_neg (by omega), if_pos beyond, fill_beyond samples loop beyond]
      cases loop with
      | false => rfl
      | true =>
          -- the turn that goes back is followed by one that copies
          rw [if_pos rfl, if_pos ⟨rfl, by omega⟩]
          exact fillWithin_inside first fewer' positive (by omega)

end Playback

/-! ## Cutting into blocks -/

namespace Source

/-- Without a loop the windows of one size are the blocks, and silence when there are no more. -/
theorem windows_eq_blocks (samples : List α) (n t k : Nat) :
    windows samples false t (List.replicate k (n + 1)) =
      (List.range k).map fun i =>
        ((blocks n (samples.drop t))[i]?).getD (List.replicate (n + 1) 0) := by
  induction k generalizing t with
  | zero => rfl
  | succ k ih =>
      have sizes : List.replicate (k + 1) (n + 1) = (n + 1) :: List.replicate k (n + 1) := rfl
      rw [sizes, windows, ih, List.range_succ_eq_map, List.map_cons, List.map_map]
      by_cases inside : t < samples.length
      · have more : (samples.drop (t + 1)).drop n = samples.drop (t + (n + 1)) := by
          rw [List.drop_drop]
          congr 1
          omega
        have missing : n - (samples.drop (t + 1)).length = n + 1 - (samples.length - t) := by
          rw [List.length_drop]
          omega
        have first : window samples false t (n + 1) = samples[t] ::
            (samples.drop (t + 1)).take n ++
              List.replicate (n - (samples.drop (t + 1)).length) 0 := by
          rw [window_plain, List.drop_eq_getElem_cons inside, List.take_succ_cons, missing]
        rw [List.drop_eq_getElem_cons inside, blocks, more, first]
        rfl
      · have after : samples.length ≤ t := Nat.le_of_not_lt inside
        rw [List.drop_eq_nil_of_le after, List.drop_eq_nil_of_le (by omega), blocks,
          window_after samples after]
        rfl

theorem length_of_mem_blocks {n : Nat} {samples : List α} {block : List α}
    (mem : block ∈ blocks n samples) : block.length = n + 1 := by
  induction samples using blocks.induct n with
  | case1 => simp [blocks] at mem
  | case2 x rest ih =>
      rw [blocks, List.mem_cons] at mem
      rcases mem with rfl | mem
      · simp
        omega
      · exact ih mem

theorem length_blocks (n : Nat) (samples : List α) :
    (blocks n samples).length = samples.length ⌈/⌉ (n + 1) := by
  induction samples using blocks.induct n with
  | case1 => simp [blocks]
  | case2 x rest ih =>
      rw [blocks, List.length_cons, ih, List.length_drop, List.length_cons,
        Nat.ceilDiv_eq_add_pred_div, Nat.ceilDiv_eq_add_pred_div]
      rcases Nat.le_total rest.length n with short | long
      · rw [Nat.sub_eq_zero_of_le short, Nat.div_eq_of_lt (by omega),
          Nat.div_eq_of_lt_le (k := 1) (by omega) (by omega)]
      · rw [← Nat.add_div_right _ (Nat.succ_pos n)]
        congr 1
        omega

theorem blocksOf_eq (memory : Memory) (source : Source) (n : Nat) :
    source.blocksOf memory (.int (n + 1 : Nat)) =
      (if source.samples = [] then .ok () else memory.reserve [n + 1]).map fun _ =>
        blocks n source.samples := by
  obtain ⟨samples, rate, name⟩ := source
  have read : (Value.int ((n + 1 : Nat) : Int)).toInt = .ok ((n + 1 : Nat) : Int) := rfl
  have positive : ¬ ((n + 1 : Nat) : Int) ≤ 0 := by omega
  simp only [blocksOf, read, bind, Except.bind, positive, if_false, pure, Except.pure,
    Int.toNat_natCast, Nat.add_sub_cancel]
  cases samples with
  | nil => rfl
  | cons x rest => cases memory.reserve [n + 1] <;> rfl

end Source

end Audio

end Flowgraph
