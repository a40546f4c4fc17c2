import Flowgraph.Proofs.Block.Steady
import Flowgraph.Proofs.Filter.Symmetry

/-!
# Constants through the Hilbert transformer

A Hilbert transformer shows each sample beside what its quadrature filter makes of
it.  The taps of that filter cancel out, so in exact arithmetic nothing of a
constant is left there as soon as as much was fed as there are taps.
-/

namespace Flowgraph

namespace Filter

/-! ## Feeding a transformer -/

namespace Stream

variable {κ α : Type} [BEq κ] [Add α] [Mul α] [OfNat α 0] {key : κ} {taps : List α}

/-- Show a buffer beside what the filter makes of it. -/
def serveBeside (key : κ) (design : Unit → Except Fault (List α)) (s : Stream κ α)
    (buffer : List α) : Stream κ α × Except Fault (List (Point α)) :=
  ((s.serve key design buffer).1, (s.serve key design buffer).2.map (Point.zip buffer))

/-- However a stream is cut, it is shown beside what filtering all of it at once gives. -/
theorem outputs_serveBeside (reflexive : (key == key) = true)
    (design : Unit → Except Fault (List α)) (made : design () = .ok taps)
    (buffers : List (List α)) :
    ∃ pieces : List (List (Point α)),
      Carried.outputs (serveBeside key design) (fresh : Stream κ α) buffers = pieces.map .ok ∧
      pieces.flatten = Point.zip buffers.flatten (apply taps [] buffers.flatten) := by
  have next {s : Stream κ α} {seen : List α} (h : s.Awaits key design taps seen)
      (buffer : List α) : ∃ s' piece, s.serveBeside key design buffer = (s', .ok piece) ∧
        s'.Awaits key design taps (seen ++ buffer) ∧
        Point.zip (seen ++ buffer) (apply taps [] (seen ++ buffer)) =
          Point.zip seen (apply taps [] seen) ++ piece := by
    obtain ⟨s', served, h'⟩ := h.serve buffer
    refine ⟨s', Point.zip buffer (apply taps seen buffer), ?_, h', ?_⟩
    · rw [serveBeside, served]
      rfl
    · rw [apply_append, List.nil_append, Point.zip,
        List.zipWith_append (length_apply taps [] seen).symm]
      rfl
  obtain ⟨pieces, answered, -, together⟩ :=
    Carried.joined (fun seen => Point.zip seen (apply taps [] seen)) (Awaits key design taps) next
      (awaits_fresh reflexive made) buffers
  exact ⟨pieces, answered, together.symm⟩

end Stream

/-- Beside a constant stands nothing as soon as taps that cancel out are covered. -/
theorem beside_constant {K κ : Type} [Field K] [BEq κ] {taps : List K} (cancel : taps.sum = 0)
    {key : κ} (reflexive : (key == key) = true) (c : K) (sizes : List Nat) :
    ∃ pieces : List (List (Point K)),
      Carried.outputs (Stream.serveBeside key fun () => .ok taps) .fresh
          (sizes.map (List.replicate · c)) = pieces.map .ok ∧
        pieces.flatten.length = sizes.sum ∧
        ∀ i (inside : i < pieces.flatten.length), pieces.flatten[i].re = c ∧
          (taps.length - 1 ≤ i → pieces.flatten[i].im = 0) := by
  obtain ⟨pieces, answered, together⟩ := Stream.outputs_serveBeside reflexive
    (fun () => .ok taps) rfl (sizes.map (List.replicate · c))
  rw [flatten_map_replicate] at together
  refine ⟨pieces, answered, by rw [together]; simp [Point.zip], fun i inside => ?_⟩
  simp only [together, Point.zip, List.getElem_zipWith, List.getElem_replicate, true_and]
  intro warm
  rw [getElem_apply_replicate taps c _ warm, cancel, zero_mul]

end Filter

namespace Block

open Flowgraph.Filter

structure Ordered (memory : Memory) (order : Int) where
  turn : Turn memory
  samples : List Float
  buffer_eq : turn.buffer = some samples
  order_eq : quadratureOrder memory turn = .ok order

theorem quadratureKey_self (order : Int) : (quadratureKey order == quadratureKey order) = true := by
  rw [quadratureKey_beq, beq_self_eq_true]

theorem outputs_transformer {memory : Memory} (order : Int) (turns : List (Ordered memory order)) :
    transformer.outputs (some (.filter .fresh)) (turns.map (·.turn.ctx)) =
      (Carried.outputs
        (Stream.serveBeside (quadratureKey order) fun () => quadratureTaps memory order)
        .fresh (turns.map (·.samples))).map (Except.map pointLine) := by
  refine (Transfer.outputs_carried _ (Except.map pointLine) (fun ordered s => ?_)
    Stream.fresh turns).1
  rw [(oneFilter_transformer memory).served ordered.turn s ordered.samples order ordered.buffer_eq
    ordered.order_eq, streamed_line]
  simp only [Stream.serveBeside]
  cases (s.serve (quadratureKey order) (fun _ => quadratureTaps memory order) ordered.samples).2 <;> rfl

end Block

namespace Filter

open Elementary

/--
Symmetry of taps.  On doubles a design that does not fail, and one of a
quadrature filter, gives what the kernel makes of its order; a Hilbert
transformer that is asked for one order shows its buffers beside what that
filter makes of them.  In any ordered field whose cosine and windowed sinc are
even, the taps of a lowpass read the same from either end, and those of a
highpass do if their number is odd.  There the taps of a quadrature filter read
as their negatives, a centre tap is zero, and all of them cancel out; and however
a constant is cut into buffers, it stands beside nothing from the last tap on.
-/
theorem symmetry_exact :
    -- on doubles
    (∀ (memory : Memory) (order cutoff rate kind : Value),
      (∃ fault, design memory order cutoff rate kind = .error fault) ∨
      ∃ (n : Nat) (x rateHz : Float) (name : String) (response : Response) (taps : List Float),
        order.toInt = .ok n ∧ 1 ≤ n ∧ cutoff.toFloat = .ok x ∧ rate.toFloat = .ok rateHz ∧
          kind = .text name ∧ Response.ofName? name = some response ∧
          taps? response n x rateHz = some taps ∧
          design memory order cutoff rate kind = .ok taps) ∧
    (∀ (memory : Memory) (order : Value) (taps : List Float),
      designQuadrature memory order = .ok taps ↔
        ∃ n : Nat, order.toInt = .ok n ∧ 1 ≤ n ∧ Memory.cellBytes * n < memory.available ∧
          taps = quadrature n) ∧
    (∀ (memory : Memory) (order : Int) (turns : List (Block.Ordered memory order)),
      Block.transformer.outputs (some (.filter .fresh)) (turns.map (·.turn.ctx)) =
        (Carried.outputs
          (Stream.serveBeside (Block.quadratureKey order) fun () =>
            designQuadrature memory (.int order))
          .fresh (turns.map (·.samples))).map (Except.map Block.pointLine)) ∧
    -- in any ordered field
    ∀ (K : Type) [Field K] [LinearOrder K] [IsStrictOrderedRing K] [Elementary K] [BEq K]
      [LawfulBEq K], (∀ x : K, cos (-x) = cos x) →
      ((∀ x : K, sinc (-x) = sinc x) →
        ∀ (response : Response) (n : Nat) (cutoff rate : K) (taps : List K),
          taps? response n cutoff rate = some taps → (response = .highpass → n % 2 = 1) →
            taps.length = n ∧ ∀ i < n, taps.getD i 0 = taps.getD (n - 1 - i) 0) ∧
      ∀ n : Nat,
        let taps : List K := quadrature n
        taps.length = n ∧ (∀ i < n, taps.getD i 0 = -taps.getD (n - 1 - i) 0) ∧
          (n % 2 = 1 → taps.getD (n / 2) 0 = 0) ∧ taps.sum = 0 ∧
          ∀ (c : K) (sizes : List Nat), ∃ pieces : List (List (Point K)),
            Carried.outputs (Stream.serveBeside (Block.quadratureKey n) fun () => .ok taps)
                .fresh (sizes.map (List.replicate · c)) = pieces.map .ok ∧
              pieces.flatten.length = sizes.sum ∧
              ∀ i (inside : i < pieces.flatten.length), pieces.flatten[i].re = c ∧
                (n - 1 ≤ i → pieces.flatten[i].im = 0) := by
  refine ⟨?_, fun _ _ _ => designQuadrature_eq_ok_iff, fun _ => Block.outputs_transformer, ?_⟩
  · intro memory order cutoff rate kind
    cases made : design memory order cutoff rate kind with
    | error fault => exact .inl ⟨fault, rfl⟩
    | ok taps =>
        obtain ⟨n, x, rateHz, name, response, ordered, least, cut, read, named, known, scaled⟩ :=
          design_spec made
        exact .inr ⟨n, x, rateHz, name, response, taps, ordered, least, cut, read, named, known,
          scaled, rfl⟩
  · intro K _ _ _ _ _ _ even
    constructor
    · intro sinc_even response n cutoff rate taps made centred
      rw [taps?_eq_scaled?] at made
      have length : taps.length = n := by rw [length_of_scaled? made, length_prototype]
      have mirrored : Mirrored 1 taps :=
        mirrored_scaled? (mirrored_prototype even sinc_even n _) made
          (by rwa [length_prototype])
      refine ⟨length, fun i inside => ?_⟩
      rw [mirrored.getD_eq (by rwa [length]), length, one_mul]
    · intro n taps
      have length : taps.length = n := length_quadrature n
      have mirrored : Mirrored (-1) taps := mirrored_quadrature even n
      refine ⟨length, fun i inside => ?_, fun odd => ?_, mirrored.sum_eq_zero, fun c sizes => ?_⟩
      · rw [mirrored.getD_eq (by rwa [length]), length, neg_one_mul]
      · have centre := mirrored.centre_eq_zero (by omega)
        rwa [length] at centre
      · obtain ⟨pieces, answered, long, shown⟩ :=
          beside_constant mirrored.sum_eq_zero (Block.quadratureKey_self n) c sizes
        rw [length] at shown
        exact ⟨pieces, answered, long, shown⟩

theorem sinc_pos {x : ℝ} (least : 0 ≤ x) (less : x < 1) : 0 < sinc x := by
  have positive {y : ℝ} (more : 0 < y) (less : y < 1) :
      0 < Real.sin (Real.pi * y) / (Real.pi * y) := by
    have angle : 0 < Real.pi * y := mul_pos Real.pi_pos more
    exact div_pos
      (Real.sin_pos_of_pos_of_lt_pi angle (mul_lt_of_lt_one_right Real.pi_pos less)) angle
  unfold sinc
  split
  · exact positive (by norm_num) (by norm_num)
  · next away =>
      exact positive (lt_of_le_of_ne least fun zero => away (by rw [← zero, beq_self_eq_true]))
        less

theorem exists_lowpass_three :
    ∃ taps : List ℝ, taps? .lowpass 3 12000 48000 = some taps := by
  have quarter : normalized (12000 : ℝ) 48000 = 1 / 4 := by
    unfold normalized
    norm_num
  have values : (prototype 3 (1 / 4 : ℝ)).sum =
      1 / 2 * sinc (1 / 2) * (2 / 25) + (1 / 2 * sinc 0 + 1 / 2 * sinc (1 / 2) * (2 / 25)) := by
    have even (x : ℝ) : cos (-x) = cos x := Real.cos_neg x
    have centre : cos (0 : ℝ) = 1 := Real.cos_zero
    have edge : cos (pi : ℝ) = -1 := Real.cos_pi
    norm_num [prototype, offsets, Window.hamming, List.range_succ, neg_div,
      sinc_neg Real.sin_neg, even, centre, edge]
  have gain : 0 < (prototype 3 (1 / 4 : ℝ)).sum := by
    have side : 0 < sinc (1 / 2 : ℝ) := sinc_pos (by norm_num) (by norm_num)
    have centre : 0 < sinc (0 : ℝ) := sinc_pos le_rfl one_pos
    rw [values]
    positivity
  rw [taps?_eq_scaled?, quarter, Response.scaled?, unitGain?, foldl_add_eq, zero_add]
  exact ⟨_, if_neg (not_le.mpr gain)⟩

/-- Three taps on the reals: a lowpass, its inversion, and a five beside which nothing stands. -/
theorem symmetry_exact_three :
    (∃ taps : List ℝ, taps? .lowpass 3 12000 48000 = some taps ∧
      ∀ i < 3, taps.getD i 0 = taps.getD (2 - i) 0) ∧
    (∃ taps : List ℝ, taps? .highpass 3 12000 48000 = some taps ∧
      ∀ i < 3, taps.getD i 0 = taps.getD (2 - i) 0) ∧
    (quadrature 3 : List ℝ).getD 1 0 = 0 ∧ (quadrature 3 : List ℝ).sum = 0 ∧
    ∃ pieces : List (List (Point ℝ)),
      Carried.outputs
          (Stream.serveBeside (Block.quadratureKey 3) fun () => .ok (quadrature 3 : List ℝ))
          .fresh [[5], [], [5, 5, 5]] = pieces.map .ok ∧
        pieces.flatten.length = 4 ∧
        ∀ i (inside : i < pieces.flatten.length), pieces.flatten[i].re = 5 ∧
          (2 ≤ i → pieces.flatten[i].im = 0) := by
  obtain ⟨designed, quadratures⟩ := symmetry_exact.2.2.2 ℝ Real.cos_neg
  have symmetric := designed (sinc_neg Real.sin_neg)
  obtain ⟨-, -, centre, cancel, streams⟩ := quadratures 3
  obtain ⟨low, made⟩ := exists_lowpass_three
  have inverted : taps? .highpass 3 12000 48000 = some (invert low) := congrArg (·.map invert) made
  exact ⟨⟨low, made, (symmetric .lowpass 3 _ _ low made (by decide)).2⟩,
    ⟨_, inverted, (symmetric .highpass 3 _ _ _ inverted (fun _ => rfl)).2⟩, centre rfl, cancel,
    streams 5 [1, 0, 3]⟩

end Filter

end Flowgraph
