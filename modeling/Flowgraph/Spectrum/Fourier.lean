import Flowgraph.Scalar
import Flowgraph.Signal

/-!
# Discrete Fourier transform

Real samples, a power of two of them, are dealt into four parts by their index
modulo four.  The parts are transformed apart and joined; if the number of
samples is an odd power of two, the outermost deal is into two.  Only the bins
`0, …, n / 2` of `n` samples are kept: the others are their mirror images.

Rotations by no turn and by a quarter turn are exact, and the mirror images of
a part are never rotated.  So a sample that is not finite does not spread
further than it must.
-/

namespace Flowgraph

namespace Spectrum

open Elementary

/-- Items of even index and items of odd index. -/
def deal {β : Type} : List β → List β × List β
  | [] => ([], [])
  | [x] => ([x], [])
  | x :: y :: rest =>
    let (evens, odds) := deal rest
    (x :: evens, y :: odds)

section

variable {α : Type} [Elementary α] [NatCast α] [Add α] [Sub α] [Mul α] [Div α] [Neg α] [OfNat α 2]

/-- A point turned back by `k` of `n` parts of the circle. -/
def rotate (n k : Nat) (p : Point α) : Point α :=
  if k = 0 then p
  else if 4 * k = n then ⟨p.im, -p.re⟩
  else
    let angle : α := turn * (k : α) / (n : α)
    let c := cos angle
    let s := sin angle
    ⟨p.re * c + p.im * s, p.im * c - p.re * s⟩

/-- Bin `k ≤ m` of `2 * m` samples from the bins of those of even and those of odd index. -/
def joinTwo (m : Nat) (evens odds : Nat → Point α) (k : Nat) : Point α :=
  if 2 * k ≤ m then
    let a := evens k
    let b := rotate (2 * m) k (odds k)
    ⟨a.re + b.re, b.im + a.im⟩
  else
    let a := evens (m - k)
    let b := rotate (2 * m) (m - k) (odds (m - k))
    ⟨a.re - b.re, b.im - a.im⟩

/--
The sums that bins `j`, `m - j`, `m + j` and `2 * m - j` of `4 * m` samples are
made of: part zero with part two, added and subtracted, and part one with part
three likewise.
-/
structure Quartet (α : Type) where
  outerSum : Point α
  outerDifference : Point α
  innerSum : Point α
  innerDifference : Point α

/-- The sums for bin `j ≤ m / 2` of four parts. -/
def quartet (m : Nat) (part₀ part₁ part₂ part₃ : Nat → Point α) (j : Nat) : Quartet α :=
  let a := part₀ j
  let b := rotate (4 * m) j (part₁ j)
  let c := rotate (4 * m) (2 * j) (part₂ j)
  let d := rotate (4 * m) (3 * j) (part₃ j)
  { outerSum := ⟨a.re + c.re, a.im + c.im⟩
    outerDifference := ⟨a.re - c.re, a.im - c.im⟩
    innerSum := ⟨d.re + b.re, b.im + d.im⟩
    innerDifference := ⟨d.re - b.re, b.im - d.im⟩ }

/-- Bin `k ≤ 2 * m` of `4 * m` samples from the bins of four parts. -/
def joinFour (m : Nat) (part₀ part₁ part₂ part₃ : Nat → Point α) (k : Nat) : Point α :=
  let q := quartet m part₀ part₁ part₂ part₃
  if 2 * k ≤ m then
    let s := q k
    ⟨s.outerSum.re + s.innerSum.re, s.innerSum.im + s.outerSum.im⟩
  else if k ≤ m then
    let s := q (m - k)
    ⟨s.outerDifference.re - s.innerDifference.im, s.innerDifference.re - s.outerDifference.im⟩
  else if 2 * k ≤ 3 * m then
    let s := q (k - m)
    ⟨s.outerDifference.re + s.innerDifference.im, s.innerDifference.re + s.outerDifference.im⟩
  else
    let s := q (2 * m - k)
    ⟨s.outerSum.re - s.innerSum.re, s.innerSum.im - s.outerSum.im⟩

variable [OfNat α 0]

omit [Elementary α] [NatCast α] [Add α] [Sub α] [Mul α] [Div α] [Neg α] [OfNat α 2] in
def lookup (bins : Array (Point α)) (k : Nat) : Point α :=
  bins.getD k ⟨0, 0⟩

/-- Bins of `4 ^ levels` samples. -/
def binsOfFours : (levels : Nat) → List α → List (Point α)
  | 0, samples => [⟨samples.headD 0, 0⟩]
  | levels + 1, samples =>
    let m := Nat.pow 4 levels
    let (evens, odds) := deal samples
    let (part₀, part₂) := deal evens
    let (part₁, part₃) := deal odds
    let bins (part : List α) : Array (Point α) := (binsOfFours levels part).toArray
    (List.range (2 * m + 1)).map
      (joinFour m (lookup (bins part₀)) (lookup (bins part₁)) (lookup (bins part₂))
        (lookup (bins part₃)))

omit [Elementary α] [NatCast α] [Add α] [Sub α] [Mul α] [Div α] [Neg α] [OfNat α 2] in
/-- Exactly `n` samples: cut off, or followed by zeros. -/
def fit (n : Nat) (samples : List α) : List α :=
  samples.take n ++ List.replicate (n - samples.length) 0

/-- Bins `0, …, size / 2` of real samples fitted to `size`, a power of two. -/
def bins (size : Nat) (samples : List α) : List (Point α) :=
  let levels := Nat.log2 size
  let samples := fit size samples
  if levels % 2 = 0 then binsOfFours (levels / 2) samples
  else
    let m := Nat.pow 4 (levels / 2)
    let (evens, odds) := deal samples
    let bins (part : List α) : Array (Point α) := (binsOfFours (levels / 2) part).toArray
    (List.range (m + 1)).map (joinTwo m (lookup (bins evens)) (lookup (bins odds)))

end

end Spectrum

end Flowgraph
