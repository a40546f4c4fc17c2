import Flowgraph.Filter.Design
import Flowgraph.Proofs.Block.Sequence
import Flowgraph.Proofs.Filter.Streaming
import Mathlib.Algebra.BigOperators.Ring.List
import Mathlib.Algebra.Order.Field.Basic

/-!
# Gain at zero frequency

Taps that are divided by their sum let a constant through as it is, and their
spectral inversion lets nothing of it through.  A stream starts out of zeros, so
this shows as soon as a whole window lies in what was fed.
-/

namespace Flowgraph

namespace Filter

/-! ## Number of taps -/

section

variable {α : Type} [Add α] [Div α] [OfNat α 0] [LE α] [DecidableLE α]

theorem unitGain?_eq_some {values taps : List α} (scaled : unitGain? values = some taps) :
    ¬ values.foldl (· + ·) 0 ≤ 0 ∧ taps = values.map (· / values.foldl (· + ·) 0) := by
  dsimp only [unitGain?] at scaled
  split at scaled
  · cases scaled
  · next positive =>
      cases scaled
      exact ⟨positive, rfl⟩

variable [Neg α] [OfNat α 1]

omit [Div α] [OfNat α 0] [LE α] [DecidableLE α] in
@[simp]
theorem length_invert (taps : List α) : (invert taps).length = taps.length := by
  simp [invert]

/-- Taps of unit gain from the values of a prototype, or their spectral inversion. -/
def Response.scaled? (values : List α) : Response → Option (List α)
  | .lowpass => unitGain? values
  | .highpass => (unitGain? values).map invert

theorem length_of_scaled? {response : Response} {values taps : List α}
    (made : response.scaled? values = some taps) : taps.length = values.length := by
  cases response with
  | lowpass => rw [(unitGain?_eq_some made).2, List.length_map]
  | highpass =>
      obtain ⟨lowpass, scaled, rfl⟩ := Option.map_eq_some_iff.mp made
      rw [length_invert, (unitGain?_eq_some scaled).2, List.length_map]

variable [Elementary α] [NatCast α] [IntCast α] [OfScientific α] [Mul α] [Sub α] [BEq α]
  [OfNat α 2]

omit [LE α] [DecidableLE α] [Neg α] in
@[simp]
theorem length_prototype (n : Nat) (f : α) : (prototype n f).length = n := by
  simp [prototype, offsets]

theorem taps?_eq_scaled? [LT α] [DecidableLT α] (response : Response) (n : Nat)
    (cutoff rate : α) :
    taps? response n cutoff rate = response.scaled? (prototype n (normalized cutoff rate)) := by
  cases response <;> rfl

end

/-! ## Sums of taps -/

section

variable {K : Type} [Field K]

theorem foldl_add_eq (start : K) (xs : List K) : xs.foldl (· + ·) start = start + xs.sum := by
  induction xs generalizing start with
  | nil => rw [List.foldl_nil, List.sum_nil, add_zero]
  | cons x rest ih => rw [List.foldl_cons, ih, List.sum_cons, add_assoc]

theorem sum_modify_add_one {xs : List K} {i : Nat} (inside : i < xs.length) :
    (xs.modify i (· + 1)).sum = xs.sum + 1 := by
  induction xs generalizing i with
  | nil => cases inside
  | cons x rest ih =>
      cases i with
      | zero => simp [add_right_comm]
      | succ i => simp [ih (Nat.lt_of_succ_lt_succ inside), add_assoc]

/-- The centre is a tap as soon as there is one. -/
theorem sum_invert {taps : List K} (some : taps ≠ []) : (invert taps).sum = 1 - taps.sum := by
  have centre : taps.length / 2 < (taps.map (- ·)).length := by
    have positive := List.length_pos_iff.mpr some
    rw [List.length_map]
    omega
  rw [invert, sum_modify_add_one centre, ← List.sum_neg, neg_add_eq_sub]

theorem ne_nil_of_sum {taps : List K} (one : taps.sum = 1) : taps ≠ [] := by
  rintro rfl
  exact zero_ne_one one

def Response.steady : Response → K → K
  | .lowpass, c => c
  | .highpass, _ => 0

/-! ## Constants through taps -/

theorem dot_replicate {weights : List K} {n : Nat} (enough : weights.length ≤ n) (c : K) :
    dot weights (List.replicate n c) = weights.sum * c := by
  rw [dot, foldl_add_eq, zero_add]
  induction weights generalizing n with
  | nil => simp
  | cons w rest ih =>
      obtain ⟨n, rfl⟩ := Nat.exists_eq_add_one_of_ne_zero (Nat.ne_zero_of_lt enough)
      rw [List.replicate_succ, List.zipWith_cons_cons, List.sum_cons,
        ih (Nat.le_of_succ_le_succ enough), List.sum_cons, add_mul]

/-- Once a window lies in a constant, only the sum of the taps matters. -/
theorem getElem_apply_replicate (taps : List K) (c : K) {n i : Nat}
    (inside : i < (apply taps [] (List.replicate n c)).length) (warm : taps.length - 1 ≤ i) :
    (apply taps [] (List.replicate n c))[i] = taps.sum * c := by
  have fed : i < n := by simpa using inside
  simp only [apply, getElem_slide, recent_nil]
  rw [List.drop_append, List.drop_replicate, Nat.sub_eq_zero_of_le warm, List.replicate_zero,
    List.nil_append, List.drop_replicate, List.length_replicate,
    dot_replicate (by rw [List.length_reverse]; omega), List.sum_reverse]

/-! ## Designed taps -/

variable [LinearOrder K]

theorem sum_unitGain? {values taps : List K} (scaled : unitGain? values = some taps) :
    taps.sum = 1 := by
  obtain ⟨positive, rfl⟩ := unitGain?_eq_some scaled
  rw [foldl_add_eq, zero_add] at positive ⊢
  simp only [div_eq_mul_inv]
  rw [List.sum_map_mul_right, List.map_id', mul_inv_cancel₀ (not_le.mp positive).ne']

/-- Whatever the values that a filter is made from, its gain is that of its response. -/
theorem sum_scaled? {response : Response} {values taps : List K}
    (made : response.scaled? values = some taps) : taps.sum = response.steady 1 := by
  cases response with
  | lowpass => exact sum_unitGain? made
  | highpass =>
      obtain ⟨lowpass, scaled, rfl⟩ := Option.map_eq_some_iff.mp made
      have sum := sum_unitGain? scaled
      rw [sum_invert (ne_nil_of_sum sum), sum, sub_self]
      rfl

end

/-! ## Feeding a filter -/

namespace Stream

variable {κ α : Type} [BEq κ] [Add α] [Mul α] [OfNat α 0] {key : κ} {taps seen : List α}
  {s : Stream κ α} {design : Unit → Except Fault (List α)}

def serve (key : κ) (design : Unit → Except Fault (List α)) (s : Stream κ α) (buffer : List α) :
    Stream κ α × Except Fault (List α) :=
  match s.prepare key design with
  | (s, .error fault) => (s, .error fault)
  | (s, .ok ()) => ((s.feed buffer).1, .ok (s.feed buffer).2)

/-- Once prepared, a filter has the taps of a key and has seen some samples since. -/
def Awaits (key : κ) (design : Unit → Except Fault (List α)) (taps : List α) (s : Stream κ α)
    (seen : List α) : Prop :=
  ∃ s₀, s.prepare key design = (s₀, .ok ()) ∧ s₀.Follows key taps seen

omit [Add α] [Mul α] in
theorem awaits_fresh (reflexive : (key == key) = true) (made : design () = .ok taps) :
    (fresh : Stream κ α).Awaits key design taps [] := by
  refine ⟨fresh.configure key taps, ?_, follows_configure reflexive rfl taps⟩
  simp only [prepare, made]
  rfl

theorem Awaits.serve (h : s.Awaits key design taps seen) (buffer : List α) :
    ∃ s', s.serve key design buffer = (s', .ok (apply taps seen buffer)) ∧
      s'.Awaits key design taps (seen ++ buffer) := by
  obtain ⟨s₀, prepared, follows⟩ := h
  obtain ⟨follows', output⟩ := follows.feed buffer
  refine ⟨(s₀.feed buffer).1, ?_, (s₀.feed buffer).1, ?_, follows'⟩
  · simp only [Stream.serve, prepared, output]
  · rw [prepare, if_pos follows'.designed]

/-- However a stream is cut, a filter gives what filtering all of it at once gives. -/
theorem outputs_serve (reflexive : (key == key) = true) (design : Unit → Except Fault (List α))
    (made : design () = .ok taps) (buffers : List (List α)) :
    ∃ pieces : List (List α),
      Carried.outputs (serve key design) (fresh : Stream κ α) buffers = pieces.map .ok ∧
      pieces.flatten = apply taps [] buffers.flatten := by
  have next {s : Stream κ α} {seen : List α} (h : s.Awaits key design taps seen)
      (buffer : List α) : ∃ s' piece, s.serve key design buffer = (s', .ok piece) ∧
        s'.Awaits key design taps (seen ++ buffer) ∧
        apply taps [] (seen ++ buffer) = apply taps [] seen ++ piece := by
    obtain ⟨s', served, h'⟩ := h.serve buffer
    exact ⟨s', _, served, h', by rw [apply_append, List.nil_append]⟩
  obtain ⟨pieces, answered, -, together⟩ :=
    Carried.joined (apply taps []) (Awaits key design taps) next (awaits_fresh reflexive made)
      buffers
  exact ⟨pieces, answered, together.symm⟩

end Stream

theorem flatten_map_replicate {β : Type} (x : β) (sizes : List Nat) :
    (sizes.map (List.replicate · x)).flatten = List.replicate sizes.sum x := by
  induction sizes with
  | nil => rfl
  | cons size rest ih =>
      rw [List.map_cons, List.flatten_cons, ih, List.sum_cons, List.replicate_add]

/-- A constant leaves a filter with the gain of its response as soon as its taps are covered. -/
theorem steady_of_scaled? {K κ : Type} [Field K] [LinearOrder K] [BEq κ] {response : Response}
    {values taps : List K} (made : response.scaled? values = some taps) {key : κ}
    (reflexive : (key == key) = true) (c : K) (sizes : List Nat) :
    ∃ pieces : List (List K),
      Carried.outputs (Stream.serve key fun () => .ok taps) .fresh
          (sizes.map (List.replicate · c)) = pieces.map .ok ∧
        pieces.flatten.length = sizes.sum ∧
        ∀ i (inside : i < pieces.flatten.length), values.length - 1 ≤ i →
          pieces.flatten[i] = response.steady c := by
  obtain ⟨pieces, answered, together⟩ := Stream.outputs_serve reflexive
    (fun () => .ok taps) rfl (sizes.map (List.replicate · c))
  rw [flatten_map_replicate] at together
  refine ⟨pieces, answered, by rw [together]; simp, fun i inside warm => ?_⟩
  simp only [together]
  rw [getElem_apply_replicate taps c _ (by rwa [length_of_scaled? made]), sum_scaled? made]
  cases response with
  | lowpass => exact one_mul c
  | highpass => exact zero_mul c

end Filter

end Flowgraph
