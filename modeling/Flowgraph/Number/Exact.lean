/-!
# Exact values of doubles

A finite double is `± mantissa · 2 ^ exponent`.  Everything that is printed,
compared or rounded exactly goes through this form and natural-number
arithmetic, never through another double.
-/

namespace Flowgraph

namespace Number

/-- The quotient `num / den` rounded to the nearest integer, a half going to the even neighbour. -/
def roundDiv (num den : Nat) : Nat :=
  let quotient := num / den
  let twice := 2 * (num % den)
  if twice < den then quotient
  else if den < twice then quotient + 1
  else if quotient % 2 = 0 then quotient
  else quotient + 1

def digitCount (n : Nat) : Nat :=
  (Nat.toDigits 10 n).length

/-- Sign, integer mantissa and power of two of a finite double. -/
structure Exact where
  negative : Bool
  mantissa : Nat
  exponent : Int
deriving DecidableEq, Repr

namespace Exact

/-- The exact value of `x`, or `none` for infinities and NaN. -/
def ofFloat? (x : Float) : Option Exact :=
  let bits := x.toBits.toNat
  let biased : Nat := bits / Nat.pow 2 52 % Nat.pow 2 11
  let fraction : Nat := bits % Nat.pow 2 52
  let negative := decide (Nat.pow 2 63 ≤ bits)
  if biased = 2047 then none
  else if biased = 0 then some ⟨negative, fraction, -1074⟩
  else some ⟨negative, Nat.pow 2 52 + fraction, (biased : Int) - 1075⟩

def num (x : Exact) : Nat :=
  x.mantissa * Nat.pow 2 x.exponent.toNat

def den (x : Exact) : Nat :=
  Nat.pow 2 (-x.exponent).toNat

/-- The magnitude times `10 ^ places`, rounded to an integer with halves to even. -/
def scaled (x : Exact) (places : Int) : Nat :=
  roundDiv (x.num * Nat.pow 10 places.toNat) (x.den * Nat.pow 10 (-places).toNat)

/-- Exponent of the leading decimal digit of a nonzero value. -/
def leading (x : Exact) : Int :=
  let whole := x.num / x.den
  if whole = 0 then -(digitCount (x.den / x.num) : Int)
  else (digitCount whole : Int) - 1

def floor (x : Exact) : Int :=
  let signed : Int := if x.negative then -(x.num : Int) else x.num
  signed / (x.den : Int)

def truncate (x : Exact) : Int :=
  let whole : Int := (x.num / x.den : Nat)
  if x.negative then -whole else whole

/-- The nearest integer; a half goes to the even neighbour. -/
def round (x : Exact) : Int :=
  let whole : Int := roundDiv x.num x.den
  if x.negative then -whole else whole

def isWhole (x : Exact) : Bool :=
  x.num % x.den = 0

def compareInt (x : Exact) (n : Int) : Ordering :=
  let signed : Int := if x.negative then -(x.num : Int) else x.num
  compare signed (n * (x.den : Int))

end Exact

/-- `x` with exactly `places` decimals, halves to even. -/
def fixed (x : Float) (places : Nat) : String :=
  match Exact.ofFloat? x with
  | none => if x.isNaN then "nan" else if x < 0 then "-inf" else "inf"
  | some e =>
    let n := e.scaled places
    let whole := n / Nat.pow 10 places
    let rest := toString (n % Nat.pow 10 places)
    let padded := String.ofList (List.replicate (places - rest.length) '0') ++ rest
    let point := if places = 0 then "" else "." ++ padded
    (if e.negative then "-" else "") ++ toString whole ++ point

end Number

end Flowgraph
