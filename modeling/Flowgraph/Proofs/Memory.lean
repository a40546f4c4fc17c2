import Flowgraph.Memory
import Mathlib.Tactic.ByContra
import Mathlib.Tactic.SplitIfs

/-!
# Memory for lines

A line of doubles fits if its bytes are there; all other limits are wider.  The
length of a range is its own if it fits, and otherwise nothing or an error.
-/

namespace Flowgraph

namespace Memory

variable (memory : Memory)

theorem reserve_line_iff {n : Nat} (least : 1 ≤ n) :
    memory.reserve [n] = .ok () ↔ cellBytes * n < memory.available := by
  have bytes : cellBytes * ([n].filter (0 < ·)).foldl (· * ·) 1 = cellBytes * n := by
    simp [Nat.zero_lt_of_lt least]
  have wider : memory.available ≤ maxCount + 1 := memory.most
  have cells : n ≤ cellBytes * n := Nat.le_mul_of_pos_left n (by decide)
  simp only [reserve, bytes, List.any_cons, List.any_nil, List.all_cons, List.all_nil,
    Bool.or_false, Bool.and_true, decide_eq_true_eq]
  constructor
  · intro reserved
    by_contra beyond
    split_ifs at reserved
    omega
  · intro fits
    rw [if_neg (by omega), if_neg (by omega), if_neg (by omega)]

@[simp]
theorem reserve_zero : memory.reserve [0] = .ok () := by
  have bytes : ¬ maxCount < cellBytes := by decide
  simp [reserve, bytes]

theorem reserve_line {n : Nat} (fits : cellBytes * n < memory.available) :
    memory.reserve [n] = .ok () := by
  rcases Nat.eq_zero_or_pos n with rfl | least
  · exact memory.reserve_zero
  · exact (memory.reserve_line_iff least).mpr fits

theorem rangeLength_eq_ok_iff {n : Int} {count : Nat} :
    memory.rangeLength n = .ok count ↔ memory.reserve [n.toNat] = .ok () ∧ count = n.toNat := by
  unfold rangeLength
  by_cases none : n ≤ 0
  · have empty : n.toNat = 0 := by omega
    rw [if_pos none, empty]
    exact ⟨fun same => ⟨memory.reserve_zero, (Except.ok.inj same).symm⟩, fun h => h.2 ▸ rfl⟩
  by_cases long : (Nat.pow 2 63 : Int) + 1024 < n
  · have beyond : maxCount < n.toNat := by
      have : (maxCount : Int) = Nat.pow 2 63 - 1 := by decide
      omega
    have refused : memory.reserve [n.toNat] = .error .axisTooLong :=
      if_pos (by simpa using beyond)
    rw [if_neg none, if_pos long, refused]
    exact ⟨nofun, nofun⟩
  rw [if_neg none, if_neg long]
  cases reserved : memory.reserve [n.toNat] with
  | ok => exact ⟨fun same => ⟨rfl, (Except.ok.inj same).symm⟩, fun h => h.2 ▸ rfl⟩
  | error fault => exact ⟨nofun, nofun⟩

theorem rangeLength_line {n : Nat} (fits : cellBytes * n < memory.available) :
    memory.rangeLength n = .ok n :=
  memory.rangeLength_eq_ok_iff.mpr ⟨memory.reserve_line fits, rfl⟩

/-! ## Lines that always fit -/

theorem fits_of_lt {n : Nat} (few : n < Nat.pow 2 17) : cellBytes * n < memory.available := by
  have bytes : cellBytes * n < Nat.pow 2 20 := Nat.mul_lt_mul_of_pos_left few (by decide)
  exact Nat.lt_of_lt_of_le bytes memory.least

theorem reserve_of_lt {n : Nat} (few : n < Nat.pow 2 17) : memory.reserve [n] = .ok () :=
  memory.reserve_line (memory.fits_of_lt few)

theorem rangeLength_of_le {n : Int} (most : n ≤ 1024) : memory.rangeLength n = .ok n.toNat := by
  have few : n.toNat < Nat.pow 2 17 := by
    have : 1024 < Nat.pow 2 17 := by decide
    omega
  exact memory.rangeLength_eq_ok_iff.mpr ⟨memory.reserve_of_lt few, rfl⟩

end Memory

end Flowgraph
