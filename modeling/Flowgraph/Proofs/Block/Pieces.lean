import Flowgraph.Audio.Playback
import Flowgraph.Integrator
import Flowgraph.Mixing
import Mathlib.Data.List.Basic

/-!
# Computing in pieces

Reading a source, summing up and mixing give the same samples however the
buffers are cut, as long as each piece goes on from where the last one ended.
-/

namespace Flowgraph

/-! ## Reading a source -/

namespace Audio.Playback

variable {α : Type} [OfNat α 0]

theorem fill_zero (samples : List α) (loop : Bool) (offset : Nat) :
    fill samples loop offset 0 = ([], offset) := by
  rw [fill, if_pos rfl]

def next (samples : List α) (loop : Bool) (offset : Nat) : α × Nat :=
  match samples[offset]? with
  | some x => (x, offset + 1)
  | none =>
    if loop ∧ offset ≠ 0 then
      match samples with
      | [] => (0, 0)
      | x :: _ => (x, 1)
    else (0, offset)

theorem next_inside (samples : List α) (loop : Bool) {offset : Nat}
    (inside : offset < samples.length) :
    next samples loop offset = (samples[offset], offset + 1) := by
  unfold next
  rw [List.getElem?_eq_getElem inside]

theorem next_beyond (samples : List α) (loop : Bool) {offset : Nat}
    (beyond : samples.length ≤ offset) :
    next samples loop offset =
      if loop ∧ offset ≠ 0 then
        match samples with
        | [] => (0, 0)
        | x :: _ => (x, 1)
      else (0, offset) := by
  unfold next
  rw [List.getElem?_eq_none beyond]

/-- Inside a source a chunk is its first sample and the chunk after it. -/
theorem fill_succ_inside (samples : List α) (loop : Bool) {offset : Nat}
    (inside : offset < samples.length) (count : Nat) :
    fill samples loop offset (count + 1) =
      (samples[offset] :: (fill samples loop (offset + 1) count).1,
        (fill samples loop (offset + 1) count).2) := by
  have first : (samples.drop offset).take (count + 1) =
      samples[offset] :: (samples.drop (offset + 1)).take count := by
    rw [List.drop_eq_getElem_cons inside, List.take_succ_cons]
  rw [fill, if_neg (by omega)]
  simp only [first, List.isEmpty_cons, Bool.false_eq_true, if_false, List.length_cons]
  cases count with
  | zero => simp [fill_zero]
  | succ count =>
      cases more : (samples.drop (offset + 1)).take (count + 1) with
      | nil => simp
      | cons y rest =>
          have length : offset + ((y :: rest).length + 1) = offset + 1 + (y :: rest).length := by
            omega
          have left : count + 1 + 1 - ((y :: rest).length + 1) =
              count + 1 - (y :: rest).length := by omega
          rw [length, left]
          rw [fill.eq_1 samples loop (offset + 1) (count + 1), if_neg (by omega)]
          simp [more]

theorem fill_beyond (samples : List α) (loop : Bool) {offset : Nat}
    (beyond : samples.length ≤ offset) (count : Nat) :
    fill samples loop offset (count + 1) =
      if loop ∧ offset ≠ 0 then fill samples loop 0 (count + 1)
      else (List.replicate (count + 1) 0, offset) := by
  have none : (samples.drop offset).take (count + 1) = [] := by
    rw [List.drop_eq_nil_of_le beyond, List.take_nil]
  rw [fill, if_neg (by omega)]
  simp only [none, List.isEmpty_nil, if_true]

theorem fill_silent (samples : List α) (loop : Bool) {offset : Nat}
    (beyond : samples.length ≤ offset) (stays : ¬ (loop = true ∧ offset ≠ 0)) (count : Nat) :
    fill samples loop offset count = (List.replicate count 0, offset) := by
  cases count with
  | zero => exact fill_zero ..
  | succ count => rw [fill_beyond samples loop beyond, if_neg stays]

theorem fill_succ (samples : List α) (loop : Bool) (offset count : Nat) :
    fill samples loop offset (count + 1) =
      ((next samples loop offset).1 :: (fill samples loop (next samples loop offset).2 count).1,
        (fill samples loop (next samples loop offset).2 count).2) := by
  by_cases inside : offset < samples.length
  · rw [fill_succ_inside samples loop inside, next_inside samples loop inside]
  · have beyond : samples.length ≤ offset := Nat.le_of_not_lt inside
    rw [next_beyond samples loop beyond]
    by_cases again : loop = true ∧ offset ≠ 0
    · rw [fill_beyond samples loop beyond, if_pos again, if_pos again]
      cases samples with
      | nil =>
          have silent := @fill_silent α _ [] loop 0 (Nat.le_refl 0) (by simp)
          simp only [silent, List.replicate_succ]
      | cons x rest => exact fill_succ_inside (x :: rest) loop (by simp) count
    · simp only [fill_silent samples loop beyond again, if_neg again, List.replicate_succ]

theorem fill_add (samples : List α) (loop : Bool) (offset m n : Nat) :
    fill samples loop offset (m + n) =
      ((fill samples loop offset m).1 ++
          (fill samples loop (fill samples loop offset m).2 n).1,
        (fill samples loop (fill samples loop offset m).2 n).2) := by
  induction m generalizing offset with
  | zero => simp [fill_zero]
  | succ m ih =>
      have more : m + 1 + n = m + n + 1 := by omega
      rw [more, fill_succ, fill_succ samples loop offset m, ih]
      rfl

@[simp]
theorem length_fill (samples : List α) (loop : Bool) (offset count : Nat) :
    (fill samples loop offset count).1.length = count := by
  induction count generalizing offset with
  | zero => rw [fill_zero, List.length_nil]
  | succ count ih => rw [fill_succ, List.length_cons, ih]

end Audio.Playback

/-! ## Running sums -/

namespace Integrator

variable {α : Type} [Add α] [OfNat α 0] [LT α] [DecidableLT α] [Neg α]

theorem limited_append (limit total : α) (xs ys : List α) :
    limited limit total (xs ++ ys) =
      limited limit total xs ++
        limited limit ((limited limit total xs).getLast?.getD total) ys := by
  induction xs generalizing total with
  | nil => rfl
  | cons x rest ih =>
      have last : (limited limit total (x :: rest)).getLast?.getD total =
          (limited limit (add limit total x) rest).getLast?.getD (add limit total x) := by
        rw [limited, List.getLast?_cons]
        rfl
      rw [last, List.cons_append, limited, limited, ih, List.cons_append]

/-- The sum carried on from is the last one of everything so far. -/
theorem getLast?_limited_append (limit total : α) (xs ys : List α) :
    (limited limit total (xs ++ ys)).getLast?.getD total =
      (limited limit ((limited limit total xs).getLast?.getD total) ys).getLast?.getD
        ((limited limit total xs).getLast?.getD total) := by
  rw [limited_append, List.getLast?_append]
  cases (limited limit ((limited limit total xs).getLast?.getD total) ys).getLast? <;> rfl

end Integrator

/-! ## Mixing -/

namespace Mixing

variable {α : Type}

theorem add_append [Add α] {a b : List α} (same : a.length = b.length) (a' b' : List α) :
    add (a ++ a') (b ++ b') = add a b ++ add a' b' := by
  induction a generalizing b with
  | nil =>
      have none : b = [] := List.eq_nil_of_length_eq_zero same.symm
      rw [none]
      rfl
  | cons x a ih =>
      cases b with
      | nil => simp at same
      | cons y b => simp [add, ih (by simpa using same)]

/-- Mixing pieces of several buffers that were cut at one place. -/
theorem foldl_append {f : List α → List α → List α} {m : Nat}
    (pieces : ∀ a b a' b' : List α, a.length = m → b.length = m →
      f (a ++ a') (b ++ b') = f a b ++ f a' b' ∧ (f a b).length = m)
    {xs ys : List (List α)} (arity : xs.length = ys.length) (cut : ∀ x ∈ xs, x.length = m)
    {a : List α} (start : a.length = m) (a' : List α) :
    (xs.zipWith (· ++ ·) ys).foldl f (a ++ a') = xs.foldl f a ++ ys.foldl f a' ∧
      (xs.foldl f a).length = m := by
  induction xs generalizing ys a a' with
  | nil =>
      have none : ys = [] := List.eq_nil_of_length_eq_zero arity.symm
      rw [none]
      exact ⟨rfl, start⟩
  | cons x xs ih =>
      cases ys with
      | nil => simp at arity
      | cons y ys =>
          obtain ⟨split, length⟩ := pieces a x a' y start (cut x List.mem_cons_self)
          rw [List.zipWith_cons_cons, List.foldl_cons, List.foldl_cons, List.foldl_cons, split]
          exact ih (by simpa using arity) (fun z mem => cut z (List.mem_cons_of_mem x mem))
            length (f a' y)

theorem sum_append [Add α] [OfNat α 0] {m : Nat} (n : Nat) {xs ys : List (List α)}
    (arity : xs.length = ys.length) (cut : ∀ x ∈ xs, x.length = m) :
    sum (m + n) (xs.zipWith (· ++ ·) ys) = sum m xs ++ sum n ys := by
  have pieces : ∀ a b a' b' : List α, a.length = m → b.length = m →
      add (a ++ a') (b ++ b') = add a b ++ add a' b' ∧ (add a b).length = m := by
    intro a b a' b' ha hb
    exact ⟨add_append (ha.trans hb.symm) a' b', (length_add a b).trans ha⟩
  rw [sum, sum, sum, List.replicate_add]
  exact (foldl_append pieces arity cut List.length_replicate _).1

theorem zipWith_pieces [Mul α] {m : Nat} (a b a' b' : List α) (ha : a.length = m)
    (hb : b.length = m) :
    List.zipWith (· * ·) (a ++ a') (b ++ b') =
        List.zipWith (· * ·) a b ++ List.zipWith (· * ·) a' b' ∧
      (List.zipWith (· * ·) a b).length = m :=
  ⟨List.zipWith_append (ha.trans hb.symm), by simp [ha, hb]⟩

theorem product_append [Mul α] {m : Nat} {xs ys : List (List α)}
    (arity : xs.length = ys.length) (cut : ∀ x ∈ xs, x.length = m) :
    product (xs.zipWith (· ++ ·) ys) = product xs ++ product ys := by
  cases xs with
  | nil =>
      have none : ys = [] := List.eq_nil_of_length_eq_zero arity.symm
      rw [none]
      rfl
  | cons x xs =>
      obtain ⟨first, others⟩ := List.forall_mem_cons.mp cut
      cases ys with
      | nil => simp at arity
      | cons y ys =>
          exact (foldl_append zipWith_pieces (by simpa using arity) others first y).1

theorem length_product [Mul α] {m : Nat} {xs : List (List α)} (some : xs ≠ [])
    (cut : ∀ x ∈ xs, x.length = m) : (product xs).length = m := by
  cases xs with
  | nil => exact absurd rfl some
  | cons x xs =>
      obtain ⟨first, others⟩ := List.forall_mem_cons.mp cut
      have same : xs.length = xs.length := rfl
      exact (foldl_append zipWith_pieces same others first []).2

theorem exists_length_product [Mul α] {xs : List (List α)} (some : xs ≠ []) :
    ∃ x ∈ xs, (product xs).length = x.length := by
  cases xs with
  | nil => exact absurd rfl some
  | cons x rest =>
      rw [product]
      clear some
      induction rest generalizing x with
      | nil => exact ⟨x, List.mem_cons_self, rfl⟩
      | cons y rest ih =>
          obtain ⟨z, mem, length⟩ := ih (x.zipWith (· * ·) y)
          rw [List.foldl_cons, length]
          rcases List.mem_cons.mp mem with rfl | mem
          · rcases Nat.le_total x.length y.length with short | short
            · exact ⟨x, by simp, by simp [short]⟩
            · exact ⟨y, by simp, by simp [short]⟩
          · exact ⟨z, by simp [mem], rfl⟩

end Mixing

end Flowgraph
