import Flowgraph.Value.Conversion

/-!
# Powers of two

Transform sizes are powers of two.
-/

namespace Flowgraph

namespace Spectrum

/-- Whether `n` is a power of two: positive, with a single bit set. -/
def isPowerOfTwo (n : Int) : Bool :=
  0 < n && n.toNat &&& (n.toNat - 1) = 0

/-- The least power of two that is at least `n` and at least one. -/
def nextPowerOfTwo (n : Int) : Nat :=
  if n ≤ 1 then 1 else Nat.pow 2 (Nat.log2 (n - 1).toNat + 1)

/-- Whether a value is a number equal to a power of two; an infinity is refused. -/
def isPowerOfTwoValue (v : Value) : Except Fault Bool :=
  match v.toInt with
  | .ok n =>
    match v.number? with
    | some x => .ok (isPowerOfTwo n && x == .int n)
    | none => .ok false
  | .error .infiniteInteger => .error .infiniteInteger
  | .error _ => .ok false

/-- Transform size given by a value, or the next power of two when none is given. -/
def sizeOf (given : Value) (length : Nat) : Except Fault Nat := do
  if !given.isGiven then return nextPowerOfTwo length
  let n ← given.toInt
  if isPowerOfTwo n then return n.toNat
  throw (given.named .transformSize)

end Spectrum

end Flowgraph
