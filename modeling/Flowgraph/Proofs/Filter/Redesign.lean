import Flowgraph.Proofs.Filter.Streaming
import Mathlib.Data.List.DropRight

/-!
# Filters that are designed again

A filter is designed anew when its parameters change, and then forgets what it
was fed for the old ones.  What it holds at any time is decided by the buffers
fed since the last change.
-/

namespace Flowgraph

namespace Filter

variable {π κ α : Type} [BEq π]

/-- The samples fed for some parameters since the parameters last changed. -/
def since (p : π) (fed : List (π × List α)) : List α :=
  (fed.rtakeWhile fun now => now.1 == p).flatMap (·.2)

theorem since_nil (p : π) : since p ([] : List (π × List α)) = [] := rfl

theorem since_concat (p q : π) (fed : List (π × List α)) (buffer : List α) :
    since p (fed ++ [(q, buffer)]) = if q == p then since p fed ++ buffer else [] := by
  unfold since
  rw [List.rtakeWhile_concat]
  split <;> simp

theorem since_const {p : π} (reflexive : (p == p) = true) (buffers : List (List α)) :
    since p (buffers.map (p, ·)) = buffers.flatten := by
  induction buffers using List.reverseRecOn with
  | nil => rfl
  | append_singleton buffers buffer ih => simp [since_concat, reflexive, ih]

theorem since_congr [PartialEquivBEq π] {p q : π} (same : (p == q) = true)
    (fed : List (π × List α)) : since p fed = since q fed := by
  have alike (now : π × List α) : (now.1 == p) = (now.1 == q) := BEq.congr_right same
  simp only [since, alike]

/--
Keys compare as the parameters do that they are made from, and what compares as
equal is designed alike.
-/
structure Keyed [BEq κ] (key : π → κ) (design : π → Except Fault (List α)) : Prop where
  key_beq : ∀ p q, (key p == key q) = (p == q)
  design_of_beq : ∀ p q taps, (p == q) = true → design p = .ok taps → design q = .ok taps

namespace Stream

variable [BEq κ] [OfNat α 0] {key : π → κ} {design : π → Except Fault (List α)}
  {s : Stream κ α} {fed : List (π × List α)}

structure Remembers (key : π → κ) (design : π → Except Fault (List α)) (s : Stream κ α)
    (fed : List (π × List α)) (p : π) (seen : List α) : Prop where
  key_eq : s.key = some (key p)
  designed : design p = .ok s.taps
  valid : s.past.Valid
  ordered_eq : s.past.ordered = recent (s.taps.length - 1) seen
  since_eq : ∀ q, since q fed = if p == q then seen else []

/-- A filter that has been fed some buffers, each for the parameters of its time. -/
def Holds (key : π → κ) (design : π → Except Fault (List α)) (s : Stream κ α)
    (fed : List (π × List α)) : Prop :=
  s.key = none ∧ fed = [] ∨ ∃ p seen, s.Remembers key design fed p seen

omit [BEq κ] in
theorem holds_fresh : (fresh : Stream κ α).Holds key design [] :=
  .inl ⟨rfl, rfl⟩

theorem Remembers.designedFor {p : π} {seen : List α} (h : s.Remembers key design fed p seen)
    (keyed : Keyed key design) (q : π) : s.designedFor (key q) = (p == q) := by
  simp only [Stream.designedFor, h.key_eq, keyed.key_beq]

theorem Holds.prepare_error (h : s.Holds key design fed) (keyed : Keyed key design) {q : π}
    {fault : Fault} (refused : design q = .error fault) :
    s.prepare (key q) (fun () => design q) = (s, .error fault) := by
  have other : s.designedFor (key q) = false := by
    rcases h with ⟨none, -⟩ | ⟨p, seen, h⟩
    · simp only [designedFor, none]
    · rw [h.designedFor keyed, Bool.eq_false_iff]
      intro same
      have made := keyed.design_of_beq p q s.taps same h.designed
      rw [refused] at made
      cases made
  simp [prepare, other, refused]

structure Ready (key : π → κ) (design : π → Except Fault (List α)) (s : Stream κ α)
    (fed : List (π × List α)) (q : π) (taps : List α) : Prop where
  taps_eq : s.taps = taps
  made : ∃ p, s.key = some (key p) ∧ design p = .ok taps ∧ ∀ r, (p == r) = (q == r)
  valid : s.past.Valid
  ordered_eq : s.past.ordered = recent (taps.length - 1) (since q fed)

/-- Parameters with a design make a filter ready for them. -/
theorem Holds.prepare_ok [PartialEquivBEq π] (h : s.Holds key design fed)
    (keyed : Keyed key design) {q : π} {taps : List α} (made : design q = .ok taps) :
    ∃ s₀, s.prepare (key q) (fun () => design q) = (s₀, .ok ()) ∧
      s₀.Ready key design fed q taps := by
  -- a filter of other parameters starts over, and nothing counts as fed for these
  have anew (other : s.designedFor (key q) = false) (nothing : since q fed = []) :
      ∃ s₀, s.prepare (key q) (fun () => design q) = (s₀, .ok ()) ∧
        s₀.Ready key design fed q taps := by
    refine ⟨⟨some (key q), taps, .zeros (taps.length - 1)⟩, ?_, rfl, ⟨q, rfl, made, fun _ => rfl⟩,
      History.valid_zeros _, ?_⟩
    · simp [prepare, configure, other, made]
    · rw [nothing, History.ordered_zeros_eq]
  rcases h with ⟨none, rfl⟩ | ⟨p, seen, h⟩
  · exact anew (by simp only [designedFor, none]) (since_nil q)
  · have matched := h.designedFor keyed q
    cases same : p == q with
    | false => exact anew (matched.trans same) (by simp [h.since_eq, same])
    | true =>
        have taps_eq : s.taps = taps :=
          Except.ok.inj ((keyed.design_of_beq p q s.taps same h.designed).symm.trans made)
        have past : since q fed = seen := by rw [h.since_eq, same, if_pos rfl]
        refine ⟨s, ?_, taps_eq, ⟨p, h.key_eq, taps_eq ▸ h.designed, fun r => BEq.congr_left same⟩,
          h.valid, ?_⟩
        · simp [prepare, matched, same]
        · rw [past, ← taps_eq, h.ordered_eq]

/--
A filter that is prepared and fed gives what filtering everything since the last
change would add, and holds the buffer as well.
-/
theorem Holds.feed [Add α] [Mul α] [PartialEquivBEq π] (h : s.Holds key design fed)
    (keyed : Keyed key design) {q : π} {taps : List α} (made : design q = .ok taps)
    (buffer : List α) :
    ∃ s₀, s.prepare (key q) (fun () => design q) = (s₀, .ok ()) ∧
      (s₀.feed buffer).2 = apply taps (since q fed) buffer ∧
      (s₀.feed buffer).1.Holds key design (fed ++ [(q, buffer)]) := by
  obtain ⟨s₀, prepared, ready⟩ := h.prepare_ok keyed made
  obtain ⟨p, key_eq, designed, alike⟩ := ready.made
  obtain ⟨shown, valid⟩ := History.ordered_push_eq ready.valid ready.ordered_eq buffer
  refine ⟨s₀, prepared, ?_, .inr ⟨p, since q fed ++ buffer, key_eq, ?_, valid, ?_, ?_⟩⟩
  · show apply s₀.taps s₀.past.ordered buffer = _
    rw [ready.taps_eq, ready.ordered_eq, apply_recent]
  · show design p = .ok s₀.taps
    rw [ready.taps_eq, designed]
  · show (s₀.past.push buffer).ordered = recent (s₀.taps.length - 1) _
    rw [shown, ready.taps_eq]
  · intro r
    rw [since_concat, alike]
    cases same : q == r with
    | false => rfl
    | true => rw [since_congr same]

end Stream

end Filter

end Flowgraph
