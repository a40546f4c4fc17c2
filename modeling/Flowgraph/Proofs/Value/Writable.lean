import Flowgraph.Value.Conversion
import Flowgraph.Proofs.Value.TextKeyed
import Mathlib.Data.Nat.Digits.Defs

/-!
# Values that can be written

A numeral of at most `Number.maxDigits` digits names an integer that can be
written again.  A list or an object can be written if all it holds can be.
-/

namespace Flowgraph

namespace Number

variable {digits : List Nat}

theorem foldl_digits_lt (small : ∀ d ∈ digits, d < 10) (start : Nat) :
    digits.foldl (fun acc d => 10 * acc + d) start < (start + 1) * 10 ^ digits.length := by
  induction digits generalizing start with
  | nil => simp
  | cons d rest ih =>
      obtain ⟨now, later⟩ := List.forall_mem_cons.mp small
      calc rest.foldl (fun acc d => 10 * acc + d) (10 * start + d)
          < (10 * start + d + 1) * 10 ^ rest.length := ih later _
        _ ≤ ((start + 1) * 10) * 10 ^ rest.length := Nat.mul_le_mul_right _ (by omega)
        _ = (start + 1) * 10 ^ (rest.length + 1) := by rw [Nat.pow_succ', Nat.mul_assoc]

theorem ofDigits_lt (small : ∀ d ∈ digits, d < 10) : ofDigits digits < 10 ^ digits.length := by
  simpa [ofDigits] using foldl_digits_lt small 0

theorem isWritable_ofDigits (small : ∀ d ∈ digits, d < 10) (few : digits.length ≤ maxDigits) :
    isWritable (ofDigits digits) = true := by
  have bound : ofDigits digits < 10 ^ maxDigits :=
    (ofDigits_lt small).trans_le (Nat.pow_le_pow_right (by decide) few)
  exact decide_eq_true (Nat.toDigits_length 10 _ maxDigits (by decide) bound)

theorem isWritable_neg (n : Int) : isWritable (-n) = isWritable n := by
  rw [isWritable, isWritable, Int.natAbs_neg]

theorem lt_ten_of_mem_spanDigits (cs : List Char) : ∀ d ∈ (spanDigits cs).1, d < 10 := by
  intro d mem
  obtain ⟨c, found, rfl⟩ := List.mem_map.mp mem
  have digit := List.all_eq_true.mp List.all_takeWhile c found
  simp only [Char.isDigit, Bool.and_eq_true, decide_eq_true_eq, UInt32.le_iff_toNat_le] at digit
  have top : c.val.toNat ≤ 57 := digit.2
  show c.val.toNat - 48 < 10
  omega

end Number

namespace Value

theorem areWritable_of_forall {items : List Value} (each : ∀ v ∈ items, v.isWritable = true) :
    areWritable items = true := by
  induction items with
  | nil => rfl
  | cons v rest ih =>
      obtain ⟨now, later⟩ := List.forall_mem_cons.mp each
      rw [areWritable, now, ih later, Bool.and_self]

theorem isWritable_of_mem {items : List Value} (all : areWritable items = true) :
    ∀ v ∈ items, v.isWritable = true := by
  induction items with
  | nil => nofun
  | cons v rest ih =>
      rw [areWritable, Bool.and_eq_true] at all
      exact List.forall_mem_cons.mpr ⟨all.1, ih all.2⟩

theorem entriesWritable_of_forall {entries : Params}
    (each : ∀ entry ∈ entries, (∃ name, entry.1 = .text name) ∧ entry.2.isWritable = true) :
    entriesWritable entries = true := by
  induction entries with
  | nil => rfl
  | cons entry rest ih =>
      obtain ⟨⟨⟨name, named⟩, now⟩, later⟩ := List.forall_mem_cons.mp each
      obtain ⟨key, v⟩ := entry
      subst named
      rw [entriesWritable, now, ih later, Bool.and_self]
      nofun

theorem isWritable_of_mem_entries {entries : Params} (all : entriesWritable entries = true) :
    ∀ entry ∈ entries, entry.2.isWritable = true := by
  induction entries with
  | nil => nofun
  | cons entry rest ih =>
      obtain ⟨key, v⟩ := entry
      have both : v.isWritable = true ∧ entriesWritable rest = true := by
        cases key <;> simp only [entriesWritable, Bool.and_eq_true] at all
        case int => exact ⟨all.1.2, all.2⟩
        all_goals exact all
      exact List.forall_mem_cons.mpr ⟨both.1, ih both.2⟩

theorem isWritable_orElse {v other : Value} (first : v.isWritable = true)
    (second : other.isWritable = true) : (v.orElse other).isWritable = true := by
  unfold orElse
  split
  · exact first
  · exact second

end Value

namespace Params

variable {params : Params}

theorem isWritable_get (written : (Value.object params).isWritable = true) (name : String) :
    (params.get name).isWritable = true := by
  rw [Value.isWritable] at written
  unfold get
  cases found : params.get? name with
  | none => rfl
  | some v => exact Value.isWritable_of_mem_entries written _ (mem_of_get? found)

theorem isWritable_getD (written : (Value.object params).isWritable = true) {other : Value}
    (given : other.isWritable = true) (name : String) :
    (params.getD name other).isWritable = true := by
  unfold getD
  cases found : params.get? name with
  | none => exact given
  | some v => exact Value.isWritable_of_mem_entries written _ (mem_of_get? found)

end Params

end Flowgraph
