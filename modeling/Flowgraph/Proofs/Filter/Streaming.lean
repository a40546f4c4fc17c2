import Flowgraph.Filter.Stream
import Mathlib.Data.List.Basic

/-!
# Filtering buffer by buffer

A ring that has been pushed to holds the last samples pushed.  Filtering a
buffer after some history is the tail of filtering both at once, so a filter
that remembers its past gives the same samples however its input is cut.
-/

namespace Flowgraph

namespace Filter

variable {κ α : Type}

/-! ## The ring -/

namespace History

/-- The ring is read from a slot that it has; an empty one is read from its start. -/
def Valid (h : History α) : Prop :=
  h.oldest < max 1 h.slots.length

theorem valid_zeros [OfNat α 0] (n : Nat) : (zeros (α := α) n).Valid := by
  show 0 < max 1 _
  omega

@[simp]
theorem ordered_zeros [OfNat α 0] (n : Nat) :
    (zeros (α := α) n).ordered = List.replicate n 0 := by
  simp [zeros, ordered]

theorem Valid.put {h : History α} (some : h.slots ≠ []) (x : α) : (h.put x).Valid := by
  have positive : 0 < h.slots.length := List.length_pos_iff.mpr some
  have inside := Nat.mod_lt (h.oldest + 1) positive
  show (h.oldest + 1) % h.slots.length < max 1 (h.put x).slots.length
  rw [length_slots_put]
  omega

/-- A sample that is put replaces the oldest one and becomes the newest. -/
theorem ordered_put {h : History α} (valid : h.Valid) (some : h.slots ≠ []) (x : α) :
    (h.put x).ordered = h.ordered.tail ++ [x] := by
  obtain ⟨slots, o⟩ := h
  have positive : 0 < slots.length := List.length_pos_iff.mpr some
  have inside : o < slots.length := by
    have := valid
    simp only [Valid] at this
    omega
  have written : slots.set o x = slots.take o ++ x :: slots.drop (o + 1) := by
    rw [List.set_eq_take_append_cons_drop, if_pos inside]
  have oldest : slots.drop o = slots[o] :: slots.drop (o + 1) := List.drop_eq_getElem_cons inside
  -- the ring is read from the slot after the one written, which may be the first
  by_cases last : o + 1 = slots.length
  · have wrapped : (o + 1) % slots.length = 0 := by rw [last, Nat.mod_self]
    have ends : slots.drop (o + 1) = [] := by rw [last, List.drop_length]
    simp only [put, ordered, wrapped, oldest, written, ends, List.drop_zero, List.take_zero,
      List.append_nil, List.cons_append, List.nil_append, List.tail_cons]
  · have next : (o + 1) % slots.length = o + 1 := Nat.mod_eq_of_lt (by omega)
    have taken : (slots.set o x).take (o + 1) = slots.take o ++ [x] := by
      have short : (slots.take o).length = o := List.length_take_of_le (by omega)
      rw [written, List.take_append, short, List.take_of_length_le (by omega)]
      simp
    simp only [put, ordered, next, oldest, taken, List.cons_append, List.tail_cons,
      List.append_assoc]
    rw [List.drop_set_of_lt (by omega)]

theorem ordered_foldl_put {samples : List α} {h : History α} (valid : h.Valid)
    (some : h.slots ≠ []) :
    (samples.foldl put h).ordered = (h.ordered ++ samples).drop samples.length ∧
      (samples.foldl put h).Valid := by
  induction samples generalizing h with
  | nil => simpa using valid
  | cons x rest ih =>
      have still : (h.put x).slots ≠ [] := by
        rw [← List.length_pos_iff, length_slots_put, List.length_pos_iff]
        exact some
      obtain ⟨eq, valid'⟩ := ih (Valid.put some x) still
      refine ⟨?_, valid'⟩
      have filled : h.ordered ≠ [] := by
        rw [← List.length_pos_iff, length_ordered, List.length_pos_iff]
        exact some
      rw [List.foldl_cons, eq, ordered_put valid some]
      obtain ⟨y, older, split⟩ := List.exists_cons_of_ne_nil filled
      simp [split]

/-- Pushing moves the view along by as many samples as are pushed. -/
theorem ordered_push {h : History α} (valid : h.Valid) (samples : List α) :
    (h.push samples).ordered = (h.ordered ++ samples).drop samples.length ∧
      (h.push samples).Valid := by
  unfold push
  by_cases empty : h.slots.length = 0
  · have nothing : h.ordered = [] := by
      rw [← List.length_eq_zero_iff, length_ordered, empty]
    simp [empty, nothing, valid]
  · simp only [if_neg empty]
    by_cases fills : h.slots.length ≤ samples.length
    · simp only [if_pos fills]
      constructor
      · have long : h.ordered.length ≤ samples.length := by
          rw [length_ordered]
          exact fills
        rw [List.drop_append, List.drop_eq_nil_of_le long, length_ordered]
        simp [ordered]
      · show 0 < max 1 _
        omega
    · simp only [if_neg fills]
      exact ordered_foldl_put valid fun none => empty (by rw [none, List.length_nil])

end History

/-! ## Windows over a stream -/

section

variable [OfNat α 0]

/-- The recent past is what remains of zeros and history when as much as the history is dropped. -/
theorem recent_eq_drop (need : Nat) (history : List α) :
    recent need history = (List.replicate need 0 ++ history).drop history.length := by
  have pad : need - (history.length - (history.length - need)) = need - history.length := by omega
  simp only [recent, List.drop_append, List.length_drop, List.drop_replicate, pad,
    List.length_replicate]

/-- What a filter sees begins with zeros and history, of which as much is gone as the history. -/
theorem recent_append_eq_drop (need : Nat) (history buffer : List α) :
    recent need history ++ buffer =
      (List.replicate need 0 ++ (history ++ buffer)).drop history.length := by
  have fits : history.length ≤ (List.replicate need (0 : α) ++ history).length := by
    rw [List.length_append]
    omega
  rw [recent_eq_drop, ← List.append_assoc, List.drop_append_of_le_length fits]

theorem recent_append (need : Nat) (history samples : List α) :
    recent need (history ++ samples) = (recent need history ++ samples).drop samples.length := by
  rw [recent_append_eq_drop, List.drop_drop, recent_eq_drop, List.length_append]

theorem recent_nil (need : Nat) : recent need ([] : List α) = List.replicate need 0 := by
  simp [recent]

theorem History.ordered_zeros_eq (need : Nat) :
    (History.zeros (α := α) need).ordered = recent need [] := by
  rw [recent_nil, History.ordered_zeros]

/-- A ring that shows the recent past of a stream does so when the stream goes on. -/
theorem History.ordered_push_eq {h : History α} {need : Nat} {seen : List α} (valid : h.Valid)
    (shown : h.ordered = recent need seen) (samples : List α) :
    (h.push samples).ordered = recent need (seen ++ samples) ∧ (h.push samples).Valid := by
  obtain ⟨moved, valid'⟩ := History.ordered_push valid samples
  exact ⟨by rw [moved, shown, recent_append], valid'⟩

theorem recent_of_length {need : Nat} {history : List α} (enough : history.length = need) :
    recent need history = history := by
  simp [recent, enough]

variable [Add α] [Mul α]

theorem getElem_slide (weights : List α) (count : Nat) (stream : List α) (i : Nat)
    (inside : i < (slide weights count stream).length) :
    (slide weights count stream)[i] = dot weights (stream.drop i) := by
  induction count generalizing stream i with
  | zero => cases inside
  | succ count ih =>
      cases i with
      | zero => rfl
      | succ i => simp [slide, ih, List.drop_tail]

theorem dot_append {weights stream : List α} (enough : weights.length ≤ stream.length)
    (more : List α) : dot weights (stream ++ more) = dot weights stream := by
  have cut : ∀ (ws xs : List α), ws.length ≤ xs.length →
      ws.zipWith (· * ·) (xs ++ more) = ws.zipWith (· * ·) xs := by
    intro ws
    induction ws with
    | nil => simp
    | cons w ws ih =>
        intro xs enough
        cases xs with
        | nil => simp at enough
        | cons x xs => simpa using ih xs (by simpa using enough)
  rw [dot, dot, cut weights stream enough]

/-- The first windows do not reach beyond the beginning of a stream that covers them. -/
theorem slide_append {weights : List α} {count : Nat} {stream : List α}
    (covered : weights.length + count ≤ stream.length + 1) (more : List α) :
    slide weights count (stream ++ more) = slide weights count stream := by
  induction count generalizing stream with
  | zero => rfl
  | succ count ih =>
      rw [slide, slide, dot_append (by omega)]
      cases stream with
      | nil =>
          have none : count = 0 := by
            simp only [List.length_nil] at covered
            omega
          rw [none, slide, slide]
      | cons x rest =>
          have covered' : weights.length + count ≤ rest.length + 1 := by
            simp only [List.length_cons] at covered
            omega
          rw [List.cons_append, List.tail_cons, List.tail_cons, ih covered']

theorem slide_add (weights : List α) (m n : Nat) (stream : List α) :
    slide weights (m + n) stream = slide weights m stream ++ slide weights n (stream.drop m) := by
  induction m generalizing stream with
  | zero => simp [slide]
  | succ m ih =>
      have next : m + 1 + n = (m + n) + 1 := by omega
      rw [next, slide, slide, ih, List.cons_append, List.drop_tail]

theorem apply_append (taps history xs ys : List α) :
    apply taps history (xs ++ ys) =
      apply taps history xs ++ apply taps (history ++ xs) ys := by
  have length : (recent (taps.length - 1) history).length = taps.length - 1 := length_recent ..
  have covered : taps.reverse.length + xs.length ≤
      (recent (taps.length - 1) history ++ xs).length + 1 := by
    rw [List.length_append, length, List.length_reverse]
    omega
  have passed : xs.length ≤ (recent (taps.length - 1) history ++ xs).length := by
    rw [List.length_append]
    omega
  unfold apply
  rw [List.length_append, slide_add, ← List.append_assoc, slide_append covered, recent_append,
    List.drop_append_of_le_length passed]

/-- The history only matters as far as it is remembered. -/
theorem apply_recent (taps history buffer : List α) :
    apply taps (recent (taps.length - 1) history) buffer = apply taps history buffer := by
  unfold apply
  rw [recent_of_length (length_recent ..)]

end

/-! ## A filter with its past -/

namespace Stream

variable [BEq κ] [OfNat α 0]

structure Follows (s : Stream κ α) (key : κ) (taps seen : List α) : Prop where
  designed : s.designedFor key = true
  taps_eq : s.taps = taps
  valid : s.past.Valid
  ordered_eq : s.past.ordered = recent (taps.length - 1) seen

theorem follows_configure {s : Stream κ α} {key : κ} (reflexive : (key == key) = true)
    (other : s.designedFor key = false) (taps : List α) :
    (s.configure key taps).Follows key taps [] := by
  have eq : s.configure key taps = ⟨some key, taps, .zeros (taps.length - 1)⟩ := by
    simp [configure, other]
  rw [eq]
  exact ⟨reflexive, rfl, History.valid_zeros _, History.ordered_zeros_eq _⟩

/-- Feeding a buffer gives what filtering everything so far would add. -/
theorem Follows.feed [Add α] [Mul α] {s : Stream κ α} {key : κ} {taps seen : List α}
    (h : s.Follows key taps seen) (buffer : List α) :
    (s.feed buffer).1.Follows key taps (seen ++ buffer) ∧
      (s.feed buffer).2 = apply taps seen buffer := by
  obtain ⟨shown, valid⟩ := History.ordered_push_eq h.valid h.ordered_eq buffer
  refine ⟨⟨h.designed, h.taps_eq, valid, shown⟩, ?_⟩
  show apply s.taps s.past.ordered buffer = _
  rw [h.taps_eq, h.ordered_eq, apply_recent]

end Stream

end Filter

end Flowgraph
