import Flowgraph.Number.Basic

/-!
# Sample arithmetic

The kernels are written over any type of samples.  The four operations, the
literals and the order come from the usual notation classes; `Elementary` adds
the functions that have no notation.  Programs run on doubles; the same
definitions can be read over the real numbers.
-/

namespace Flowgraph

/-- Functions of a sample type that have no notation of their own. -/
class Elementary (α : Type) where
  /-- Half the circumference of the unit circle. -/
  pi : α
  sin : α → α
  cos : α → α
  sqrt : α → α
  log10 : α → α
  /-- Angle of the point `(x, y)`, given as `y` and `x`. -/
  angle : α → α → α
  /-- Length of the hypotenuse. -/
  hypot : α → α → α
  /-- Remainder of the truncated division; it has the sign of the dividend. -/
  remainder : α → α → α
  /-- The greatest integer below or at a number, if there is one. -/
  floor? : α → Option Int
  /-- The nearest integer, the even one of two, if there is one. -/
  round? : α → Option Int
  /-- Whether a number is beyond all others. -/
  infinite : α → Bool

namespace Elementary

section

variable {α : Type} [Elementary α] [Mul α] [OfNat α 2]

def turn : α :=
  2 * pi

end

section

variable {α : Type} [OfNat α 0] [LT α] [DecidableLT α]

def magnitude [Neg α] (x : α) : α :=
  if x < 0 then -x else x

/-- The larger of two numbers; if they are not comparable, a number comparable with nothing. -/
def maximum [Add α] [LE α] [DecidableLE α] (x y : α) : α :=
  if x < y then y
  else if y ≤ x then x
  else x + y

/-- Remainder of the floored division; it has the sign of the divisor. -/
def floorMod [Elementary α] [Add α] (x y : α) : α :=
  let r := remainder x y
  if (r < 0 ∧ 0 < y) ∨ (0 < r ∧ y < 0) then r + y else r

end

end Elementary

namespace Number

/-- The double `± mantissa · 2 ^ exponent`; exact whenever that is a double. -/
def ofExact (e : Exact) : Float :=
  let x := (Float.ofNat e.mantissa).scaleB e.exponent
  if e.negative then -x else x

/-- Remainder of the truncated division of doubles, computed exactly. -/
def remainderFloat (x y : Float) : Float :=
  match Exact.ofFloat? x, Exact.ofFloat? y with
  | some a, some b =>
    if b.mantissa = 0 then 0 / 0
    else
      let low := min a.exponent b.exponent
      let num := a.mantissa * Nat.pow 2 (a.exponent - low).toNat
      let den := b.mantissa * Nat.pow 2 (b.exponent - low).toNat
      ofExact ⟨a.negative, num % den, low⟩
  | some _, none => if y.isNaN then y else x
  | none, _ => 0 / 0

/-- Length of a hypotenuse in doubles, without overflow of the squares. -/
def hypotFloat (x y : Float) : Float :=
  let a := x.abs
  let b := y.abs
  if a.isInf || b.isInf then 1 / 0
  else if a.isNaN || b.isNaN then 0 / 0
  else
    let top := if a < b then b else a
    if top == 0 then 0
    else
      let (_, shift) := top.frExp
      let a := a.scaleB (-shift)
      let b := b.scaleB (-shift)
      (Float.sqrt (a * a + b * b)).scaleB shift

end Number

instance : Elementary Float where
  pi := 3.141592653589793
  sin := Float.sin
  cos := Float.cos
  sqrt := Float.sqrt
  log10 := Float.log10
  angle := Float.atan2
  hypot := Number.hypotFloat
  remainder := Number.remainderFloat
  floor? x := (Number.Exact.ofFloat? x).map Number.Exact.floor
  round? x := (Number.Exact.ofFloat? x).map Number.Exact.round
  infinite := Float.isInf

end Flowgraph
