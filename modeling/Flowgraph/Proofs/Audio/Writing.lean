import Flowgraph.Audio.Wave
import Flowgraph.Proofs.Audio.Levels

/-!
# What a written file holds

A written file consists of a header of 44 bytes and two bytes for each sample.
These are the levels of the samples in their order, unchanged.
-/

namespace Flowgraph

namespace Audio

/-! ## Numbers in bytes -/

theorem ofBytes_toBytes (width n : Nat) : ofBytes (toBytes width n) = n % 256 ^ width := by
  induction width generalizing n with
  | zero => simp [toBytes, ofBytes, Nat.mod_one]
  | succ width ih =>
      have byte : (UInt8.ofNat (n % 256)).toNat = n % 256 := by
        simp
      rw [toBytes, ofBytes, byte, ih, pow_succ', Nat.mod_mul]

theorem length_toSigned (width : Nat) (n : Int) : (toSigned width n).length = width :=
  length_toBytes _ _

theorem ofSigned_toSigned {width : Nat} {n : Int} (low : -(256 ^ width : Nat) ≤ 2 * n)
    (high : 2 * n < (256 ^ width : Nat)) : ofSigned (toSigned width n) = n := by
  have positive : (0 : Int) < (256 ^ width : Nat) := by positivity
  have nonnegative : 0 ≤ n % (256 ^ width : Nat) := Int.emod_nonneg n positive.ne'
  have wrapped : ((ofBytes (toSigned width n) : Nat) : Int) = n % (256 ^ width : Nat) := by
    show ((ofBytes (toBytes width (n % (256 ^ width : Nat)).toNat) : Nat) : Int) = _
    rw [ofBytes_toBytes, Int.natCast_emod, Int.toNat_of_nonneg nonnegative, Int.emod_emod]
  rw [ofSigned, wrapped, length_toSigned]
  show (n % (256 ^ width : Nat)).bmod (256 ^ width) = n
  rw [Int.emod_bmod]
  exact Int.bmod_eq_of_le_mul_two (by omega) (by omega)

/-- Frames of one width are what a list was made of piece by piece. -/
theorem frames_flatMap {β : Type} {f : β → List UInt8} {n : Nat} (xs : List β)
    (whole : ∀ x, (f x).length = n) : frames n xs.length (xs.flatMap f) = xs.map f := by
  induction xs with
  | nil => rfl
  | cons x rest ih =>
      rw [List.length_cons, List.flatMap_cons, frames, List.take_left' (whole x),
        List.drop_left' (whole x), ih, List.map_cons]

/-! ## Files -/

/-- The numbers of two bytes each that follow the header of a file. -/
def stored (file : List UInt8) (count : Nat) : List Int :=
  (frames 2 count (file.drop 44)).map ofSigned

theorem length_data (levels : List Int) :
    (levels.flatMap (toSigned 2)).length = 2 * levels.length := by
  induction levels with
  | nil => rfl
  | cons v rest ih =>
      rw [List.flatMap_cons, List.length_append, ih, length_toSigned, List.length_cons]
      omega

theorem exists_header (rate : Nat) (levels : List Int) :
    ∃ header : List UInt8, header.length = 44 ∧
      encode rate levels = header ++ levels.flatMap (toSigned 2) := by
  refine ⟨_, ?_, rfl⟩
  simp only [List.length_append, length_toBytes]
  rfl

theorem length_encode (rate : Nat) (levels : List Int) :
    (encode rate levels).length = 44 + 2 * levels.length := by
  obtain ⟨header, length, file⟩ := exists_header rate levels
  rw [file, List.length_append, length, length_data]

theorem ofSigned_toSigned_two {v : Int} (low : -32768 ≤ v) (high : v ≤ 32767) :
    ofSigned (toSigned 2 v) = v := by
  have values : ((256 ^ 2 : Nat) : Int) = 65536 := by norm_num
  refine ofSigned_toSigned ?_ ?_ <;> rw [values] <;> omega

theorem map_ofSigned_map {levels : List Int} (short : ∀ v ∈ levels, -32768 ≤ v ∧ v ≤ 32767) :
    (levels.map (toSigned 2)).map ofSigned = levels := by
  induction levels with
  | nil => rfl
  | cons v rest ih =>
      obtain ⟨now, later⟩ := List.forall_mem_cons.mp short
      rw [List.map_cons, List.map_cons, ofSigned_toSigned_two now.1 now.2, ih later]

theorem stored_encode (rate : Nat) {levels : List Int}
    (short : ∀ v ∈ levels, -32768 ≤ v ∧ v ≤ 32767) :
    stored (encode rate levels) levels.length = levels := by
  obtain ⟨header, length, file⟩ := exists_header rate levels
  rw [stored, file, List.drop_left' length, frames_flatMap levels (length_toSigned 2),
    map_ofSigned_map short]

/-! ## Writing -/

structure Held (rate : Int) (count : Nat) : Prop where
  bytesPerSecond : 2 * rate < fieldLimit
  bytes : 36 + 2 * count < fieldLimit

section

variable {α : Type} [Elementary α] [OfNat α 0] [Add α] [Mul α] [Div α] [Neg α]
  [LT α] [DecidableLT α] [LE α] [DecidableLE α] [OfNat α 1] [OfScientific α] [OfNat α 32767]

/-- A file holds the levels of the samples that it was made of. -/
theorem stored_levels (rate : Nat) (samples : List α) :
    stored (encode rate (levels samples)) samples.length = levels samples := by
  have same := stored_encode rate (levels_bounds samples)
  rwa [length_levels] at same

theorem write_eq (samples : List α) {rate : Value} {n : Int} (read : rate.toInt = .ok n)
    (positive : 0 < n) (held : Held n samples.length) :
    write samples rate = .ok (encode n.toNat (levels samples)) := by
  obtain ⟨bytesPerSecond, bytes⟩ := held
  have some : ¬ n ≤ 0 := by omega
  have fits : ¬ (fieldLimit ≤ 2 * n ∨ fieldLimit ≤ 36 + 2 * samples.length) := by omega
  simp only [write, read, if_neg some, if_neg fits]

theorem write_of_beyond (samples : List α) {rate : Value} {n : Int} (read : rate.toInt = .ok n)
    (beyond : fieldLimit ≤ 2 * n) : write samples rate = .error .waveHeader := by
  have some : ¬ n ≤ 0 := by
    have : 0 < fieldLimit := by decide
    omega
  simp only [write, read, if_neg some, if_pos (Or.inl beyond)]

end

/-- Three samples that a header has room for at any lower rate. -/
theorem not_exists_write_beyond :
    ¬ ∃ file, write ([1 / 2, -1 / 2, 1 / 4] : List ℝ) (.int 2147483648) = .ok file := by
  rintro ⟨file, written⟩
  rw [write_of_beyond _ (n := 2147483648) rfl (by decide)] at written
  cases written

theorem forall₂_levels {P : ℝ → ℤ → Prop} {samples : List ℝ}
    (each : ∀ x ∈ samples, P x (quantize (peak samples) x)) :
    List.Forall₂ P samples (levels samples) := by
  rw [levels_eq, List.forall₂_map_right_iff, List.forall₂_same]
  exact each

theorem quantize_of_mem_zip {samples : List ℝ} {p : ℝ × ℤ}
    (mem : p ∈ samples.zip (levels samples)) : p.2 = quantize (peak samples) p.1 := by
  obtain ⟨i, inside, rfl⟩ := List.mem_iff_getElem.mp mem
  simp [levels_eq]

/--
The file of exact samples that its header has room for holds one level for each
sample, in order, and none of them is cut off.  If no sample is beyond full
scale a level is nearest to its sample, with full scale at 32767; otherwise the
samples are scaled by one factor first that brings the loudest one to 0.98.
Larger samples have levels that are not smaller, and opposite samples opposite
levels.
-/
theorem write_exact (samples : List ℝ) {rate : Value} {n : ℤ} (read : rate.toInt = .ok n)
    (positive : 0 < n) (held : Held n samples.length) :
    ∃ file : List UInt8, write samples rate = .ok file ∧ file.length = 44 + 2 * samples.length ∧
      let values := stored file samples.length
      file = encode n.toNat values ∧
      values = (normalize samples).map (fun x => Number.roundEven (x * 32767)) ∧
      ((∀ x ∈ samples, |x| ≤ 1) →
        List.Forall₂ (fun x v => Number.Nearest (x * 32767) v) samples values) ∧
      (∀ top, Loudest samples top → 1 < top →
        List.Forall₂ (fun x v => Number.Nearest (x * (0.98 / top) * 32767) v) samples values) ∧
      (∀ v ∈ values, -32767 ≤ v ∧ v ≤ 32767) ∧
      ∀ p ∈ samples.zip values, ∀ q ∈ samples.zip values,
        (p.1 ≤ q.1 → p.2 ≤ q.2) ∧ (q.1 = -p.1 → q.2 = -p.2) := by
  have kept := stored_levels n.toNat samples
  refine ⟨_, write_eq samples read positive held, by rw [length_encode, length_levels], ?_⟩
  dsimp only
  rw [kept]
  refine ⟨rfl, ?_, fun quiet => ?_, fun top loudest beyond => ?_, fun v => mem_levels_bounds,
    fun p mem q mem' => ?_⟩
  · rw [levels_eq, normalize_real, List.map_map]
    rfl
  · have low : ¬ 1 < peak samples := not_lt.mpr (peak_le_iff.mpr ⟨zero_le_one, quiet⟩)
    refine forall₂_levels fun x _ => ?_
    have near := nearest_quantize (peak samples) x
    rwa [gain, if_neg low, mul_one] at near
  · refine forall₂_levels fun x _ => ?_
    rw [loudest.peak_eq]
    have near := nearest_quantize top x
    rwa [gain, if_pos beyond] at near
  · have level := quantize_of_mem_zip mem
    have level' := quantize_of_mem_zip mem'
    rw [level, level']
    refine ⟨fun le => monotone_quantize _ le, fun opposite => ?_⟩
    rw [opposite, quantize_neg]

/-- Two samples beyond full scale and one that is scaled down with them. -/
theorem write_exact_loud :
    ∃ file : List UInt8, write ([2, -2, 1 / 2] : List ℝ) (.int 8000) = .ok file ∧
      file.length = 50 ∧
      List.Forall₂ (fun x v => Number.Nearest (x * (0.98 / 2) * 32767) v) [2, -2, 1 / 2]
        (stored file 3) ∧
      ∀ v ∈ stored file 3, -32767 ≤ v ∧ v ≤ 32767 := by
  have read : (Value.int 8000).toInt = .ok 8000 := rfl
  obtain ⟨file, written, length, -, -, -, loud, bounds, -⟩ :=
    write_exact [2, -2, 1 / 2] read (by decide) ⟨by decide, by decide⟩
  have loudest : Loudest [2, -2, 1 / 2] 2 := by
    refine ⟨⟨2, by simp, by norm_num⟩, fun x mem => ?_⟩
    simp only [List.mem_cons, List.not_mem_nil, or_false] at mem
    rcases mem with rfl | rfl | rfl <;> norm_num [abs_of_pos]
  exact ⟨file, written, length, loud 2 loudest (by norm_num), bounds⟩

end Audio

end Flowgraph
