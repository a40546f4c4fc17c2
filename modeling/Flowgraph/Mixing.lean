/-!
# Mixing

Sample-wise sums and products of several buffers.
-/

namespace Flowgraph

namespace Mixing

variable {α : Type}

/-- Add a buffer sample by sample; its samples beyond the end are dropped. -/
def add [Add α] : List α → List α → List α
  | a :: as, b :: bs => (a + b) :: add as bs
  | as, _ => as

/-- Sum of `size` samples of each buffer; short buffers count as zero. -/
def sum [Add α] [OfNat α 0] (size : Nat) (buffers : List (List α)) : List α :=
  buffers.foldl add (List.replicate size 0)

/-- Sample-wise product of buffers, as long as the shortest; nothing for no buffers. -/
def product [Mul α] : List (List α) → List α
  | [] => []
  | first :: rest => rest.foldl (List.zipWith (· * ·)) first

@[simp]
theorem length_add [Add α] (a b : List α) : (add a b).length = a.length := by
  fun_induction add a b <;> simp_all

@[simp]
theorem length_sum [Add α] [OfNat α 0] (size : Nat) (buffers : List (List α)) :
    (sum size buffers).length = size := by
  suffices ∀ acc : List α, (buffers.foldl add acc).length = acc.length by
    simpa [sum] using this (List.replicate size 0)
  induction buffers with
  | nil => simp
  | cons b rest ih => simp [ih]

end Mixing

end Flowgraph
