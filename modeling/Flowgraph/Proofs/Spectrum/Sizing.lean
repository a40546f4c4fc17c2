import Flowgraph.Machine
import Flowgraph.Proofs.Kernel.Lines
import Flowgraph.Proofs.Memory
import Flowgraph.Proofs.Spectrum.PowerOfTwo

/-!
# Sizes of transforms

A buffer is transformed in the size that is asked for, if that is a power of two.
Where none is asked for, the size is one that has room for all samples.
-/

namespace Flowgraph

theorem Kernel.transform_line (memory : Memory) (buffer : Operand.Line) {size : Value} {n : Nat}
    (sized : Spectrum.sizeOf size buffer.samples.length = .ok n) :
    transform memory buffer.operand size =
      (memory.reserve [n]).map fun _ => Spectrum.bins n buffer.samples := by
  simp only [transform, Spectrum.transform, buffer.samples_eq, sized, bind, Except.bind]
  cases memory.reserve [n] <;> rfl

namespace Spectrum

theorem fit_of_le {α : Type} [OfNat α 0] {n : Nat} {samples : List α} (room : samples.length ≤ n) :
    fit n samples = samples ++ List.replicate (n - samples.length) 0 := by
  rw [fit, List.take_of_length_le room]

/-- Twice as much memory as a buffer needs has room for its transform. -/
theorem reserve_nextPowerOfTwo (memory : Memory) {n : Nat}
    (room : Memory.cellBytes * (2 * n) < memory.available) :
    memory.reserve [nextPowerOfTwo n] = .ok () := by
  rcases Nat.eq_zero_or_pos n with rfl | some
  · exact memory.reserve_of_lt (by decide)
  · have double : nextPowerOfTwo n < 2 * n := nextPowerOfTwo_lt some
    exact memory.reserve_line ((Nat.mul_le_mul_left _ double.le).trans_lt room)

/--
Sizes of transforms.  An integer is told to be a power of two exactly if it is
one, and the next one is the least that is not below it and not below one.  In
any arithmetic a transform of a power of two has half as many bins and one more,
and is that of the samples cut off or followed by zeros.  The kernel takes every
line: without a size it transforms all samples, followed by zeros, and there is
memory for this wherever there is for twice the buffer; in the size of a power of
two it transforms as many of them as fit.  Nothing but memory can be missing.
-/
theorem transform_sizes :
    -- powers of two
    (∀ n : Int, ∃ answer, isPowerOfTwoValue (.int n) = .ok answer ∧
      (answer = true ↔ ∃ k : Nat, n = 2 ^ k)) ∧
    (∀ n : Int, IsLeast {p : Int | (∃ k : Nat, p = 2 ^ k) ∧ max n 1 ≤ p} (nextPowerOfTwo n)) ∧
    -- bins in any arithmetic
    (∀ (α : Type) [Elementary α] [NatCast α] [Add α] [Sub α] [Mul α] [Div α] [Neg α] [OfNat α 2]
      [OfNat α 0] (n : Nat) (samples : List α), n.isPowerOfTwo →
        (bins n samples).length = n / 2 + 1 ∧ bins n samples = bins n (fit n samples)) ∧
    -- kernels on plain values
    (∀ (memory : Memory) (buffer : Operand.Line) (size : Value), size.isGiven = false →
      let n := nextPowerOfTwo buffer.samples.length
      buffer.samples.length ≤ n ∧
        Kernel.transform memory buffer.operand size = (memory.reserve [n]).map fun _ =>
          bins n (buffer.samples ++ List.replicate (n - buffer.samples.length) 0)) ∧
    (∀ (memory : Memory) (buffer : Operand.Line),
      Memory.cellBytes * (2 * buffer.samples.length) < memory.available →
        memory.reserve [nextPowerOfTwo buffer.samples.length] = .ok ()) ∧
    ∀ (memory : Memory) (buffer : Operand.Line) (size : Value) (n : Nat), size.isGiven = true →
      size.toInt = .ok n → n.isPowerOfTwo →
        Kernel.transform memory buffer.operand size =
            (memory.reserve [n]).map (fun _ => bins n buffer.samples) ∧
          ∀ fitted : Operand.Line, fitted.samples = fit n buffer.samples →
            Kernel.transform memory buffer.operand size =
              Kernel.transform memory fitted.operand size := by
  refine ⟨fun n => ⟨_, isPowerOfTwoValue_int n, isPowerOfTwo_iff⟩, fun n => ?_, ?_, ?_, ?_, ?_⟩
  · obtain ⟨⟨⟨k, power⟩, enough⟩, least⟩ := isLeast_nextPowerOfTwo n
    refine ⟨⟨⟨k, by exact_mod_cast power⟩, enough⟩, ?_⟩
    rintro p ⟨⟨j, rfl⟩, above⟩
    exact_mod_cast least (a := 2 ^ j) ⟨⟨j, rfl⟩, by exact_mod_cast above⟩
  · intro α _ _ _ _ _ _ _ _ _ n samples power
    obtain ⟨k, rfl⟩ := power
    exact ⟨length_bins k samples, (bins_fit _ samples).symm⟩
  · intro memory buffer size absent n
    have room : buffer.samples.length ≤ n := le_nextPowerOfTwo _
    refine ⟨room, ?_⟩
    rw [Kernel.transform_line memory buffer (sizeOf_of_not_given absent _), ← fit_of_le room, bins_fit]
  · exact fun memory buffer room => reserve_nextPowerOfTwo memory room
  · intro memory buffer size n present read power
    have sized (length : Nat) : sizeOf size length = .ok n := by
      rw [sizeOf_of_given present read, if_pos (isPowerOfTwo_natCast_iff.mpr power),
        Int.toNat_natCast]
    have made := Kernel.transform_line memory buffer (sized _)
    refine ⟨made, fun fitted fits => ?_⟩
    rw [made, Kernel.transform_line memory fitted (sized _), fits, bins_fit]

/-- Three samples are transformed in four without a size, and two of them in two. -/
theorem transform_sizes_three :
    let memory := Machine.bare.memory
    IsLeast {p : Int | (∃ k : Nat, p = 2 ^ k) ∧ max 3 1 ≤ p} (nextPowerOfTwo 3) ∧
    Kernel.transform memory (.ofSamples [1, 2, 3]) .null =
      .ok (bins 4 ([1, 2, 3] ++ List.replicate (4 - 3) 0)) ∧
    (bins 4 ([1, 2, 3] : List Float)).length = 3 ∧
    Kernel.transform memory (.ofSamples [1, 2, 3]) (.int 2) =
      Kernel.transform memory (.ofSamples [1, 2]) (.int 2) ∧
    Kernel.transform memory (.ofSamples [1, 2, 3]) (.text "8") =
      .ok (bins 8 [1, 2, 3]) := by
  intro memory
  obtain ⟨-, least, sized, free, room, asked⟩ := transform_sizes
  have two : Nat.isPowerOfTwo 2 := ⟨1, rfl⟩
  have four : Nat.isPowerOfTwo 4 := ⟨2, rfl⟩
  have eight : Nat.isPowerOfTwo 8 := ⟨3, rfl⟩
  refine ⟨least 3, ?_, (sized Float 4 _ four).1, ?_, ?_⟩
  · refine (free memory (.ofSamples [1, 2, 3]) .null rfl).2.trans ?_
    rw [room memory (.ofSamples [1, 2, 3]) (by decide)]
    rfl
  · exact (asked memory (.ofSamples [1, 2, 3]) (.int 2) 2 rfl rfl two).2 (.ofSamples [1, 2]) rfl
  · exact (asked memory (.ofSamples [1, 2, 3]) (.text "8") 8 rfl (by decide) eight).1

end Spectrum

end Flowgraph
