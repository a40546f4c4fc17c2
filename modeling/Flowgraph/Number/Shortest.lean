import Flowgraph.Number.Exact

/-!
# Shortest decimals

The fewest decimal digits that read back as the same double, and among those
the nearest to it.  For each digit count the two neighbours of the value on
that decimal grid are tested against the interval of reals that round to the
double; the first grid with a hit wins.
-/

namespace Flowgraph

namespace Number

structure Decimal where
  digits : Nat
  exponent : Int
deriving DecidableEq, Repr

namespace Exact

/--
Whether `digits · 10 ^ exponent` rounds to `x`.  The interval around `x` is
half a spacing wide on each side, a quarter below a power of two, and contains
its ends exactly when the mantissa is even.
-/
def covers (x : Exact) (d : Decimal) : Bool :=
  let below := if x.mantissa = Nat.pow 2 52 ∧ -1074 < x.exponent then 1 else 2
  let unit : Int := x.exponent - 2
  let low := (4 * x.mantissa - below) * Nat.pow 2 unit.toNat
  let high := (4 * x.mantissa + 2) * Nat.pow 2 unit.toNat
  let bits := Nat.pow 2 (-unit).toNat
  let tens := Nat.pow 10 (-d.exponent).toNat
  let point := d.digits * Nat.pow 10 d.exponent.toNat * bits
  if x.mantissa % 2 = 0 then low * tens ≤ point && point ≤ high * tens
  else low * tens < point && point < high * tens

/-- The better of the two grid neighbours of `x` at `10 ^ exponent` that round to `x`. -/
def neighbour? (x : Exact) (exponent : Int) : Option Decimal :=
  let num := x.num * Nat.pow 10 (-exponent).toNat
  let den := x.den * Nat.pow 10 exponent.toNat
  let down := num / den
  let nearest := roundDiv num den
  let other := if nearest = down then down + 1 else down
  if x.covers ⟨nearest, exponent⟩ then some ⟨nearest, exponent⟩
  else if x.covers ⟨other, exponent⟩ then some ⟨other, exponent⟩
  else none

/-- The first decimal grid with a hit, starting from one digit; seventeen always suffice. -/
def shortestFrom (x : Exact) (leading : Int) : Nat → Decimal
  | 0 => ⟨x.scaled (16 - leading), leading - 16⟩
  | fuel + 1 =>
    match x.neighbour? (leading - (16 - fuel : Nat)) with
    | some d => d
    | none => shortestFrom x leading fuel

/-- The shortest decimal that reads back as the nonzero value `x`. -/
def shortest (x : Exact) : Decimal :=
  x.shortestFrom x.leading 17

end Exact

def dropZeros (digits : List Char) : List Char :=
  (digits.reverse.dropWhile (· == '0')).reverse

/--
Text of a double: shortest digits, positional while the leading exponent lies
in `-4 … 15`, otherwise one digit before the point and an exponent of at least
two digits with its sign.
-/
def text (x : Float) : String :=
  match Exact.ofFloat? x with
  | none => if x.isNaN then "nan" else if x < 0 then "-inf" else "inf"
  | some e =>
    let sign := if e.negative then "-" else ""
    if e.mantissa = 0 then sign ++ "0.0"
    else
      let d := e.shortest
      let all := Nat.toDigits 10 d.digits
      let leading : Int := d.exponent + (all.length : Int) - 1
      let digits := dropZeros all
      let body :=
        if leading < -4 ∨ 15 < leading then
          let mantissa := match digits with
            | first :: second :: rest => String.ofList (first :: '.' :: second :: rest)
            | short => String.ofList short
          let size := toString leading.natAbs
          let padded := if size.length < 2 then "0" ++ size else size
          mantissa ++ "e" ++ (if leading < 0 then "-" else "+") ++ padded
        else if leading < 0 then
          "0." ++ String.ofList (List.replicate (leading.natAbs - 1) '0' ++ digits)
        else
          let whole := leading.toNat + 1
          let filled := digits ++ List.replicate (whole - digits.length) '0'
          let fraction := filled.drop whole
          String.ofList (filled.take whole) ++ "." ++
            (if fraction.isEmpty then "0" else String.ofList fraction)
      sign ++ body

end Number

end Flowgraph
