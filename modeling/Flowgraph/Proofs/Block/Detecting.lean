import Flowgraph.Catalog.Builtin
import Flowgraph.Proofs.Block.Running
import Flowgraph.Proofs.Block.Sequence
import Flowgraph.Proofs.Spectrum.Goertzel

/-!
# Detecting a frequency

The Goertzel filter sweeps each of its buffers on doubles.  The same sweep on
the real numbers holds, for each block, the magnitude of one bin of the discrete
Fourier transform of that block.
-/

namespace Flowgraph

namespace Block

/-- A buffer of a Goertzel filter, with what its parameters, its rate and its input read as. -/
structure Listening where
  ctx : Context
  samples : List Float
  first_eq : ctx.first = some (line samples)
  frequency : Float
  frequency_eq : (ctx.params.getD "targetFrequency" (.float 1000)).toFloat = .ok frequency
  size : Nat
  size_pos : 0 < size
  size_eq : (ctx.params.getD "N" (.int 256)).toInt = .ok size
  size_read : Number.floatOfInt size = .ok size
  rateHz : Float
  rated : Rated ctx rateHz

theorem toOption_goertzelRun {rate : Int} {rateHz : Float} (positive : 0 < rate)
    (read : Number.floatOfInt rate = .ok rateHz) {size : Nat} (some : 0 < size)
    (counted : Number.floatOfInt size = .ok size) (frequency : Float) (samples : List Float) :
    (Goertzel.run (.line samples) (.float frequency) (.int rate) (.int size)).toOption =
      Goertzel.sweep size frequency rateHz samples := by
  have divisible := Number.floatOfInt_ne_zero positive read
  have many : ¬ (size : Int) ≤ 0 := by omega
  unfold Goertzel.run Goertzel.sweep
  simp only [Grid.line?_line, Value.toInt, Value.toFloat, Value.number?, Number.toInt,
    Number.toFloat, read, counted, divisible, many, Int.toNat_natCast, Bool.false_eq_true, if_false,
    bind, Except.bind]
  cases Goertzel.bin? size frequency rateHz with
  | none => rfl
  | some k =>
      cases far : Elementary.infinite (Goertzel.angularStep size k : Float) with
      | true => simp [far, Except.toOption]
      | false => simp [far, Except.toOption, pure, Except.pure]

theorem goertzel_listening (l : Listening) (record : Option Record) :
    (goertzel l.ctx record).1 = record ∧
      (goertzel l.ctx record).2.toOption =
        (Goertzel.sweep l.size l.frequency l.rateHz l.samples).map line := by
  refine ⟨rfl, ?_⟩
  rw [← toOption_goertzelRun l.rated.positive l.rated.read l.size_pos l.size_read]
  simp only [goertzel, stateless, l.first_eq, l.frequency_eq, l.size_eq, l.rated.rate_eq, line,
    realGrid, bind, Except.bind]
  cases Goertzel.run (.line l.samples) (.float l.frequency) (.int l.rated.rate) (.int l.size) with
  | error fault => rfl
  | ok output => rfl

/--
A Goertzel filter holds magnitudes of the discrete Fourier transform.  On
doubles it sweeps its buffer.  On the real numbers the sweep holds one number
for each block, the last of which may be short: the square root of the power,
which is the sum of the squares of the cosine and the sine sum of the block, so
that it is never negative.  A buffer that is cut where blocks end is swept piece
by piece.
-/
theorem goertzel_exact :
    -- on doubles
    (∀ (l : Listening) (record : Option Record),
      (goertzel l.ctx record).1 = record ∧
        (goertzel l.ctx record).2.toOption =
          (Goertzel.sweep l.size l.frequency l.rateHz l.samples).map line) ∧
    -- on the real numbers
    ∀ (frequency rate : ℝ) (n : ℕ), 0 < n →
      let w := 2 * Real.pi * round (n * frequency / rate) / n
      (∀ samples : List ℝ, ∃ held : ℕ → ℝ,
        Goertzel.sweep n frequency rate samples =
          some ((List.range samples.length).map fun i => held (i / n)) ∧
        ∀ b, let block := (samples.drop (b * n)).take n
          let power := Goertzel.power (2 * Real.cos w)
            (block.foldl (Goertzel.advance (2 * Real.cos w)) (0, 0))
          0 ≤ power ∧ held b = √power ∧
          held b ^ 2 =
            (∑ j : Fin block.length, block[j] * Real.cos (w * j)) ^ 2 +
            (∑ j : Fin block.length, block[j] * Real.sin (w * j)) ^ 2) ∧
      ∀ pieces : List (List ℝ), (∀ p ∈ pieces.dropLast, n ∣ p.length) →
        ∃ parts : List (List ℝ),
          pieces.map (Goertzel.sweep n frequency rate) = parts.map some ∧
            Goertzel.sweep n frequency rate pieces.flatten = some parts.flatten := by
  refine ⟨goertzel_listening, fun frequency rate n some => ?_⟩
  intro w
  obtain ⟨m, rfl⟩ : ∃ m, n = m + 1 := ⟨n - 1, by omega⟩
  constructor
  · intro samples
    refine ⟨fun b => Goertzel.magnitude (2 * Real.cos w) (Goertzel.block (m + 1) samples b), ?_,
      fun b => ?_⟩
    · rw [Goertzel.sweep_real]
      congr 1
      exact Goertzel.detect_eq _ m samples
    · intro block power
      have squares := Goertzel.power_foldl w block
      have nonnegative : 0 ≤ power := by
        rw [show power = _ from squares]
        positivity
      have root : Goertzel.magnitude (2 * Real.cos w) block = √power :=
        Goertzel.magnitude_real w block
      refine ⟨nonnegative, root, ?_⟩
      show Goertzel.magnitude (2 * Real.cos w) block ^ 2 = _
      rw [root, Real.sq_sqrt nonnegative]
      exact squares
  · intro pieces whole
    refine ⟨pieces.map (Goertzel.detect (2 * Real.cos w) m), ?_, ?_⟩
    · rw [List.map_map]
      exact List.map_congr_left fun p _ => Goertzel.sweep_real ..
    · rw [Goertzel.sweep_real]
      congr 1
      exact Goertzel.detect_flatten _ whole

/-- The built-in Goertzel filter, which keeps nothing. -/
example :
    (Catalog.builtin.resolve "GOERTZEL_FILTER").map (fun d => (d.process, d.initialRecord)) =
      some (goertzel, .ok none) := by
  rfl

def whistle : Listening where
  ctx :=
    { inputs := [some (line [1, 0, -1])]
      params := []
      rate := .int 8000
      size := .int 3
      machine := .bare }
  samples := [1, 0, -1]
  first_eq := rfl
  frequency := 1000
  frequency_eq := rfl
  size := 256
  size_pos := by decide
  size_eq := rfl
  size_read := rfl
  rateHz := Float.ofInt 8000
  rated := ⟨8000, by decide, rfl, rfl⟩

/-- A short buffer on doubles, and a block of two and one of a single sample, which is kept. -/
theorem goertzel_exact_whistle :
    (goertzel whistle.ctx none).2.toOption =
      (Goertzel.sweep 256 1000 (Float.ofInt 8000) [1, 0, -1]).map line ∧
    ∃ first : ℝ, Goertzel.sweep 2 1 8 [3, 4, 5] = some [first, first, 5] := by
  obtain ⟨listening, sweeps⟩ := goertzel_exact
  refine ⟨(listening whistle none).2, ?_⟩
  obtain ⟨held, swept, sums⟩ := (sweeps 1 8 2 (by decide)).1 [3, 4, 5]
  have last : held 1 = 5 := by
    refine (sums 1).2.1.trans ?_
    norm_num [Goertzel.power, Goertzel.advance]
  exact ⟨held 0, swept.trans (congrArg (fun x => some [held 0, held 0, x]) last)⟩

end Block

end Flowgraph
