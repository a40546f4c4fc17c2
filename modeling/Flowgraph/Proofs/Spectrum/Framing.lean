import Flowgraph.Kernel
import Flowgraph.Machine
import Flowgraph.Proofs.Block.Redesign
import Flowgraph.Proofs.Memory
import Flowgraph.Proofs.Number.Quotient
import Flowgraph.Proofs.Number.Real
import Flowgraph.Proofs.Spectrum.PowerOfTwo

/-!
# Framing

A sliding transform has one frame for each window that lies in its buffer, in
order of time, and no other.  Each frame is the spectrum of a whole window, and
its time is a fraction of the buffer.
-/

namespace Flowgraph

/-- Where bytes are counted in 56 bits, the length of a buffer is a double. -/
theorem Memory.lt_of_reserve (memory : Memory) (addressed : memory.available ≤ 2 ^ 56) {n : Nat}
    (reserved : memory.reserve [n] = .ok ()) : n < 2 ^ 53 := by
  by_contra large
  have fits := (memory.reserve_line_iff (by omega)).mp reserved
  rw [show cellBytes = 8 from rfl] at fits
  omega

namespace Spectrum

open Elementary

/-! ## Frames of windows -/

theorem lt_frameCount_iff {window hop length i : Nat} (moves : 0 < hop) :
    i < frameCount window hop length ↔ i * hop + window ≤ length := by
  unfold frameCount
  split
  · omega
  · rw [Nat.lt_succ_iff, Nat.le_div_iff_mul_le moves]
    omega

section

variable {α : Type} [Elementary α] [NatCast α] [IntCast α] [OfScientific α] [Add α] [Sub α]
  [Mul α] [Div α] [Neg α] [OfNat α 0] [OfNat α 1] [OfNat α 2] [OfNat α 20] [LT α] [DecidableLT α]
  [LE α] [DecidableLE α]

/--
Frames for the windows that lie in a buffer: the spectrum of each window, which
is tapered and fitted to the size of the transform, and the time where it starts.
-/
structure Framed (window hop size : Nat) (samples : List α) (frames : List (Frame α)) : Prop where
  present : ∀ i, i < frames.length ↔ i * hop + window ≤ samples.length
  whole : ∀ i < frames.length, ((samples.drop (i * hop)).take window).length = window
  timestamp_eq : ∀ i (inside : i < frames.length),
    frames[i].timestamp = ((i * hop : Nat) : α) / (samples.length : α)
  spectrum_eq : ∀ i (inside : i < frames.length),
    frames[i].spectrum =
      (bins size (fit size
        (((samples.drop (i * hop)).take window).zipWith (· * ·) (Window.hamming window)))).map
          fun bin => decibels 1 (magnitude bin)
  length_spectrum : ∀ i (inside : i < frames.length), frames[i].spectrum.length = size / 2 + 1

theorem framed_frames (window : Nat) {hop size : Nat} (moves : 0 < hop) (power : size.isPowerOfTwo)
    (samples : List α) : Framed window hop size samples (frames window hop size samples) := by
  have length : (frames window hop size samples).length =
      frameCount window hop samples.length := by
    rw [frames, List.length_map, List.length_range]
  have weights : (Window.hamming window : List α).length = window := Window.length_hamming window
  have present (i : Nat) :
      i < (frames window hop size samples).length ↔ i * hop + window ≤ samples.length := by
    rw [length, lt_frameCount_iff moves]
  refine ⟨present, fun i inside => ?_, fun i inside => ?_, fun i inside => ?_, fun i inside => ?_⟩
  · have fits := (present i).mp inside
    rw [List.length_take_of_le]
    rw [List.length_drop]
    omega
  · simp only [frames, List.getElem_map, List.getElem_range]
  · simp only [frames, List.getElem_map, List.getElem_range, spectrum, bins_fit, segment, weights]
  · obtain ⟨k, rfl⟩ := power
    simp only [frames, List.getElem_map, spectrum, List.length_map, length_bins]

/-! ## Times -/

/-- Times of frames that lie in a buffer one after another. -/
def Timed (frames : List (Frame α)) : Prop :=
  (frames.map (·.timestamp)).Pairwise (· < ·) ∧ ∀ f ∈ frames, 0 ≤ f.timestamp ∧ f.timestamp < 1

/-- Where fractions of a buffer are in order, the times of its frames are. -/
theorem timed_frames {window hop : Nat} (some : 0 < window) (moves : 0 < hop) (size : Nat)
    {samples : List α}
    (ordered : ∀ a b : Nat, a < b → b < samples.length →
      (a : α) / (samples.length : α) < (b : α) / (samples.length : α))
    (within : ∀ a < samples.length,
      0 ≤ (a : α) / (samples.length : α) ∧ (a : α) / (samples.length : α) < 1) :
    Timed (frames window hop size samples) := by
  have inside {i : Nat} (among : i ∈ List.range (frameCount window hop samples.length)) :
      i * hop < samples.length := by
    have fits := (lt_frameCount_iff moves).mp (List.mem_range.mp among)
    omega
  constructor
  · rw [frames, List.map_map, List.pairwise_map]
    refine List.pairwise_lt_range.imp_of_mem fun _ later less => ?_
    exact ordered _ _ (Nat.mul_lt_mul_of_pos_right less moves) (inside later)
  · intro f mem
    obtain ⟨i, among, rfl⟩ := List.mem_map.mp mem
    exact within _ (inside among)

end

theorem timed_real {window hop : Nat} (some : 0 < window) (moves : 0 < hop) (size : Nat)
    (samples : List ℝ) : Timed (frames window hop size samples) := by
  refine timed_frames some moves size (fun a b less inside => ?_) fun a inside => ?_
  · have real : (0 : ℝ) < samples.length := by exact_mod_cast Nat.zero_lt_of_lt inside
    exact div_lt_div_of_pos_right (by exact_mod_cast less) real
  · have real : (0 : ℝ) < samples.length := by exact_mod_cast Nat.zero_lt_of_lt inside
    exact ⟨by positivity, (div_lt_one real).mpr (by exact_mod_cast inside)⟩

theorem timed_float {window hop : Nat} (some : 0 < window) (moves : 0 < hop) (size : Nat)
    {samples : List Float} (small : samples.length < 2 ^ 53) :
    Timed (frames window hop size samples) :=
  timed_frames some moves size (fun _ _ less inside => Number.ofNat_div_lt less inside small)
    fun _ inside => Number.ofNat_div_mem inside small

/-! ## Kernels on plain values -/

variable {window hop size : Nat}

theorem isGiven_int (sized : 0 < size) : (Value.int size).isGiven = true := by
  simp [Value.isGiven]
  omega

theorem sizeOf_int (sized : 0 < size) (length : Nat) :
    sizeOf (.int size) length =
      if isPowerOfTwo size then .ok size else .error ((Value.int size).named .transformSize) := by
  rw [sizeOf_of_given (isGiven_int sized) rfl, Int.toNat_natCast]

/-- The size, and the memory for it, only matter where there is a window to transform. -/
theorem slide_eq (memory : Memory) (some : 0 < window) (moves : 0 < hop) (sized : 0 < size)
    (samples : List Float) :
    slide memory (.line samples) (.int window) (.int hop) (.int size) =
      if samples.length < window then .ok []
      else if isPowerOfTwo size then
        (memory.reserve [size]).map fun _ => frames window hop size samples
      else .error ((Value.int size).named .transformSize) := by
  have few : ¬ (window : Int) ≤ 0 := by omega
  have still : ¬ (hop : Int) ≤ 0 := by omega
  simp only [slide, Grid.line?_line, Value.toInt, Value.number?, Number.toInt, bind, Except.bind,
    isGiven_int sized, if_true, if_neg few, if_neg still, Int.toNat_natCast, sizeOf_int sized]
  by_cases short : samples.length < window
  · simp only [if_pos short]
    rfl
  · simp only [if_neg short]
    cases isPowerOfTwo size with
    | false => rfl
    | true =>
        simp only [if_true]
        cases memory.reserve [size] <;> rfl

theorem frames_of_short {samples : List Float} (short : samples.length < window) :
    frames window hop size samples = [] := by
  rw [frames, frameCount, if_pos short]
  rfl

theorem slidingTransform_ofSamples (memory : Memory) (samples : List Float)
    (window hop size : Value) :
    Kernel.slidingTransform memory (.ofSamples samples) window hop size =
      slide memory (.line samples) window hop size := by
  have read : Operand.grid (.ofSamples samples) = .ok (.line samples) := Grid.ofValue_floats samples
  simp only [Kernel.slidingTransform, read, bind, Except.bind]

/-- The kernel for plain values gives the spectrum of samples that there is memory for. -/
theorem kernelSpectrum_eq (memory : Memory) (power : size.isPowerOfTwo)
    (fits : memory.reserve [size] = .ok ()) (samples : List Float) :
    Kernel.spectrum memory (.ofSamples samples) (.int size) (.float 1) =
      .ok (spectrum size samples) := by
  have sized : 0 < size := Nat.pos_of_isPowerOfTwo power
  simp only [Kernel.spectrum, Kernel.transform, transform, Operand.samples_ofSamples, sizeOf_int sized,
    isPowerOfTwo_natCast_iff.mpr power, if_true, fits, Value.toFloat, Value.number?, Number.toFloat,
    bind, Except.bind]
  rfl

/--
Frames of a sliding transform.  On doubles, for a size that is a power of two,
there is a frame for each window that lies in the buffer and no other, and they
are returned wherever there is memory for the size, or no window to transform.
The times of the frames increase from zero or more to less than one, at least if
the length of the buffer is a double, as it is where there is memory for the
buffer and bytes are counted in 56 bits.  Any other size is refused exactly if
there is a window to transform.  The kernel for plain values slides like this, and
where there is memory it gives the same spectrum.  On the real numbers the times
increase for every length.
-/
theorem slide_framing :
    -- on doubles
    (∀ (memory : Memory) (window hop size : Nat) (samples : List Float), 0 < window → 0 < hop →
      size.isPowerOfTwo → ∃ frames : List (Frame Float),
        slide memory (.line samples) (.int window) (.int hop) (.int size) =
            (if window ≤ samples.length then (memory.reserve [size]).map fun _ => frames
            else .ok frames) ∧
          Framed window hop size samples frames ∧
          (samples.length < 2 ^ 53 → Timed frames) ∧
          (memory.available ≤ 2 ^ 56 → memory.reserve [samples.length] = .ok () →
            samples.length < 2 ^ 53)) ∧
    (∀ (memory : Memory) (window hop size : Nat) (samples : List Float), 0 < window → 0 < hop →
      0 < size → ¬ size.isPowerOfTwo →
        slide memory (.line samples) (.int window) (.int hop) (.int size) =
          if window ≤ samples.length then .error ((Value.int size).named .transformSize)
          else .ok []) ∧
    (∀ (memory : Memory) (samples : List Float) (window hop size : Value),
      Kernel.slidingTransform memory (.ofSamples samples) window hop size =
        slide memory (.line samples) window hop size) ∧
    (∀ (memory : Memory) (size : Nat) (samples : List Float), size.isPowerOfTwo →
      memory.reserve [size] = .ok () →
        Kernel.spectrum memory (.ofSamples samples) (.int size) (.float 1) =
          .ok ((bins size (fit size samples)).map fun bin => decibels 1 (magnitude bin))) ∧
    -- on the real numbers
    ∀ (window hop size : Nat) (samples : List ℝ), 0 < window → 0 < hop → size.isPowerOfTwo →
      Framed window hop size samples (frames window hop size samples) ∧
        Timed (frames window hop size samples) := by
  refine ⟨?_, ?_, slidingTransform_ofSamples, ?_, ?_⟩
  · intro memory window hop size samples some moves power
    refine ⟨frames window hop size samples, ?_, framed_frames window moves power samples,
      timed_float some moves size, fun addressed => memory.lt_of_reserve addressed⟩
    rw [slide_eq memory some moves (Nat.pos_of_isPowerOfTwo power),
      isPowerOfTwo_natCast_iff.mpr power]
    by_cases short : samples.length < window
    · rw [if_pos short, if_neg (not_le.mpr short), frames_of_short short]
    · rw [if_neg short, if_pos (not_lt.mp short), if_pos rfl]
  · intro memory window hop size samples some moves sized other
    rw [slide_eq memory some moves sized, if_neg (mt isPowerOfTwo_natCast_iff.mp other)]
    by_cases short : samples.length < window
    · rw [if_pos short, if_neg (not_le.mpr short)]
    · rw [if_neg short, if_pos (not_lt.mp short)]
  · intro memory size samples power fits
    rw [kernelSpectrum_eq memory power fits, spectrum, bins_fit]
  · intro window hop size samples some moves power
    exact ⟨framed_frames window moves power samples, timed_real some moves size samples⟩

/-- A buffer of four has three windows of two; where there is no window, no size is refused. -/
theorem slide_framing_short :
    let memory := Machine.bare.memory
    (∃ frames : List (Frame Float),
      slide memory (.line [1, 2, 3, 4]) (.int 2) (.int 1) (.int 4) = .ok frames ∧
        Framed 2 1 4 [1, 2, 3, 4] frames ∧ frames.length = 3 ∧ Timed frames) ∧
    slide memory (.line [1, 2, 3]) (.int 3) (.int 1) (.int 3) = .error (.transformSize "3") ∧
    Kernel.slidingTransform memory (.ofSamples [1, 2]) (.int 3) (.int 1) (.int 3) = .ok [] ∧
    Kernel.spectrum memory (.ofSamples [1, 2]) (.int 1) (.float 1) =
      .ok ((bins 1 (fit 1 [1, 2])).map fun bin => decibels 1 (magnitude bin)) ∧
    Timed (frames 2 1 4 [1, 2, 3, (4 : ℝ)]) := by
  intro memory
  have one : Nat.isPowerOfTwo 1 := ⟨0, rfl⟩
  have four : Nat.isPowerOfTwo 4 := ⟨2, rfl⟩
  have three : ¬ Nat.isPowerOfTwo 3 := by decide
  obtain ⟨powers, others, kernel, spectra, exact⟩ := slide_framing
  obtain ⟨frames, returned, framed, timed, counted⟩ :=
    powers memory 2 1 4 [1, 2, 3, 4] two_pos one_pos four
  have room : memory.reserve [4] = .ok () := memory.reserve_of_lt (by decide)
  rw [room] at returned
  refine ⟨⟨frames, returned, framed, ?_, timed (counted (by decide) room)⟩, ?_, ?_, ?_, ?_⟩
  · have last := (framed.present 2).mpr (by decide)
    have beyond := mt (framed.present 3).mp (by decide)
    omega
  · exact others memory 3 1 3 [1, 2, 3] three_pos one_pos three_pos three
  · exact (kernel memory [1, 2] (.int 3) (.int 1) (.int 3)).trans
      (others memory 3 1 3 [1, 2] three_pos one_pos three_pos three)
  · exact spectra memory 1 [1, 2] one (memory.reserve_of_lt (by decide))
  · exact (exact 2 1 4 [1, 2, 3, 4] two_pos one_pos four).2

end Spectrum

end Flowgraph
