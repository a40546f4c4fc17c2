import Flowgraph.Catalog.Builtin
import Flowgraph.Proofs.Block.Streams
import Flowgraph.Proofs.Phase.Unwrapping

/-!
# Tracking a frequency

The frequency detector answers with the turns from point to point as frequencies.
On doubles they are those of its buffer; on the real numbers they are the moves
of any phases that the signal has, however these were wrapped.
-/

namespace Flowgraph

theorem Detector.frequencyTrack_line {rate : Value} {rateHz : Float}
    (read : rate.toFloat = .ok rateHz) (points : List (Point Float)) :
    frequencyTrack (.line points) rate = .ok (frequencies rateHz (points.map phase)) := by
  have rank : ¬ 1 < (Grid.line points).rank := by simp [Grid.rank, Grid.line]
  by_cases few : points.length < 2
  · have still : frequencies rateHz (points.map phase) = List.replicate points.length 0 := by
      rcases points with _ | ⟨p, _ | ⟨q, rest⟩⟩
      · rfl
      · rfl
      · simp at few
    simp [frequencyTrack, Grid.length?_line, few, still, bind, Except.bind, pure, Except.pure]
  · simp [frequencyTrack, Grid.length?_line, few, read, rank, bind, Except.bind, pure, Except.pure]

namespace Block

structure Tracking where
  ctx : Context
  points : List (Point Float)
  first_eq : ctx.first = some (.complex (.line points))
  rateHz : Float
  read : ctx.rate.toFloat = .ok rateHz

theorem frequencyDetector_tracking (t : Tracking) (record : Option Record) :
    frequencyDetector t.ctx record =
      (record, .ok (line (Detector.frequencies t.rateHz (t.points.map Detector.phase)))) := by
  simp only [frequencyDetector, stateless, t.first_eq, Option.bind_some, pointGrid?,
    Detector.frequencyTrack_line t.read]
  rfl

/--
Frequency detection undoes the wrapping of phases.  On doubles the block answers
with the frequencies between the phases of its points.  On the real numbers,
where the phases of a signal differ by whole turns from phases that move by half
a turn back at most, or by less than half a turn forward, these are the moves of
the latter, the last one repeated; and whatever the signal is, they are within
half the rate.
-/
theorem frequencyDetector_unwraps :
    -- on doubles
    (∀ (t : Tracking) (record : Option Record),
      frequencyDetector t.ctx record =
        (record, .ok (line (Detector.frequencies t.rateHz (t.points.map Detector.phase))))) ∧
    (∀ (rate : Value) (rateHz : Float) (points : List (Point Float)),
      rate.toFloat = .ok rateHz →
      Detector.frequencyTrack (.line points) rate =
        .ok (Detector.frequencies rateHz (points.map Detector.phase))) ∧
    -- on the real numbers
    (∀ (rate : ℝ) (p : ℕ → ℝ) (points : List (Point ℝ)), 2 ≤ points.length →
      (∀ i, i + 1 < points.length → p (i + 1) - p i ∈ Set.Ico (-Real.pi) Real.pi) →
      (∀ (i : ℕ) (inside : i < points.length),
        Detector.phase points[i] ≡ p i [PMOD 2 * Real.pi]) →
      let found := Detector.frequencies rate (points.map Detector.phase)
      found.length = points.length ∧
        (∀ i, i + 1 < points.length →
          found[i]? = some ((p (i + 1) - p i) * rate / (2 * Real.pi))) ∧
        found[points.length - 1]? = found[points.length - 2]?) ∧
    ∀ (rate : ℝ) (points : List (Point ℝ)), 0 < rate →
      ∀ f ∈ Detector.frequencies rate (points.map Detector.phase),
        f ∈ Set.Ico (-(rate / 2)) (rate / 2) := by
  refine ⟨frequencyDetector_tracking,
    fun _ _ points read => Detector.frequencyTrack_line read points, ?_,
    fun _ _ positive _ mem => Detector.mem_frequencies positive mem⟩
  intro rate p points many near same found
  obtain ⟨m, length⟩ : ∃ m, points.length = m + 2 := ⟨points.length - 2, by omega⟩
  have unwrapped : found = _ := Detector.frequencies_modEq rate (m := m) (p := p)
    (by rw [List.length_map, length]) (fun i inside => near i (by omega))
    (fun i inside => by simpa using same i (by simpa using inside))
  rw [unwrapped, length]
  refine ⟨by simp, fun i inside => ?_, ?_⟩
  · have before : i < m + 1 := by omega
    simp [List.getElem?_append, before]
  · simp

/-- The built-in frequency detector, which keeps nothing. -/
example :
    (Catalog.builtin.resolve "FREQUENCY_DETECTOR").map (fun d => (d.process, d.initialRecord)) =
      some (frequencyDetector, .ok none) := by
  rfl

def flipping : Tracking where
  ctx :=
    { inputs := [some (pointLine [⟨1, 0⟩, ⟨-1, 0⟩, ⟨1, 0⟩])]
      params := []
      rate := .int 8
      size := .int 3
      machine := .bare }
  points := [⟨1, 0⟩, ⟨-1, 0⟩, ⟨1, 0⟩]
  first_eq := rfl
  rateHz := Float.ofInt 8
  read := rfl

/-- Half a turn at a time is a turn back, and half the rate below zero. -/
theorem frequencyDetector_unwraps_flipping :
    frequencyDetector flipping.ctx none =
      (none, .ok (line (Detector.frequencies (Float.ofInt 8)
        (flipping.points.map Detector.phase)))) ∧
    let points : List (Point ℝ) := [⟨1, 0⟩, ⟨-1, 0⟩, ⟨1, 0⟩]
    let found := Detector.frequencies (8 : ℝ) (points.map Detector.phase)
    found[0]? = some (-4 : ℝ) ∧ found[1]? = some (-4 : ℝ) ∧ found[2]? = found[1]? ∧
      ∀ f ∈ found, f ∈ Set.Ico (-(8 / 2)) (8 / 2) := by
  obtain ⟨tracking, -, unwraps, bounded⟩ := frequencyDetector_unwraps
  refine ⟨tracking flipping none, ?_⟩
  intro points found
  have first : Detector.phase points[0] = 0 := Complex.arg_one
  have second : Detector.phase points[1] = Real.pi :=
    Complex.arg_ofReal_of_neg (by norm_num : (-1 : ℝ) < 0)
  have third : Detector.phase points[2] = 0 := Complex.arg_one
  have step (i : ℕ) : -Real.pi * (i + 1 : ℕ) - -Real.pi * i = -Real.pi := by
    push_cast
    ring
  have back : -Real.pi ∈ Set.Ico (-Real.pi) Real.pi := ⟨le_rfl, by linarith [Real.pi_pos]⟩
  have rate : -Real.pi * 8 / (2 * Real.pi) = -4 := by
    field_simp
    norm_num
  obtain ⟨-, steps, last⟩ := unwraps 8 (fun i => -Real.pi * i) points (by decide)
    (fun i _ => by simpa only [step] using back) (by
      intro i inside
      rw [AddCommGroup.modEq_iff_eq_add_zsmul]
      simp only [zsmul_eq_mul]
      match i, inside with
      | 0, _ => exact ⟨0, by rw [first]; norm_num⟩
      | 1, _ => exact ⟨-1, by rw [second]; push_cast; ring⟩
      | 2, _ => exact ⟨-1, by rw [third]; push_cast; ring⟩)
  simp only [step, rate] at steps
  exact ⟨steps 0 (by decide), steps 1 (by decide), last, bounded 8 points (by norm_num)⟩

end Block

end Flowgraph
