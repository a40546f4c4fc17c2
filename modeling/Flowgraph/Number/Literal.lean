import Flowgraph.Number.Basic
import Flowgraph.Text.Blank
import Flowgraph.Text.Digit

/-!
# Numerals

Reading numbers out of text.  Blanks around a numeral are skipped, digits may
come from any script, and a single underscore may stand between two digits.
-/

namespace Flowgraph

namespace Number

/-- An integer numeral that is read or written may have at most this many digits. -/
def maxDigits : Nat := 4300

def isWritable (n : Int) : Bool := (Nat.toDigits 10 n.natAbs).length ≤ maxDigits

/-- Value of a digit string, most significant first. -/
def ofDigits (digits : List Nat) : Nat :=
  digits.foldl (fun acc d => 10 * acc + d) 0

def splitSign : List Char → Bool × List Char
  | '-' :: rest => (true, rest)
  | '+' :: rest => (false, rest)
  | cs => (false, cs)

def prepend (d : Nat) (read : List Nat × List Char) : List Nat × List Char :=
  (d :: read.1, read.2)

/-- The digits a numeral starts with and what follows; an underscore is refused elsewhere
than between two digits. -/
def numeral : List Char → Option (List Nat × List Char)
  | [] => some ([], [])
  | '_' :: _ => none
  | c :: rest =>
    match Text.digit? c, rest with
    | none, _ => some ([], c :: rest)
    | some d, '_' :: next :: more =>
      if (Text.digit? next).isSome then (numeral (next :: more)).map (prepend d) else none
    | some d, rest => (numeral rest).map (prepend d)

/-- Read an integer numeral; too many digits count as such whatever follows them. -/
def readInt (s : String) : Except Fault Int :=
  let (negative, body) := splitSign (Text.trim s.toList)
  match numeral body with
  | none => .error (.unreadableInteger s)
  | some (digits, rest) =>
    if maxDigits < digits.length then .error (.tooManyDigits digits.length)
    else if digits.isEmpty || !rest.isEmpty then .error (.unreadableInteger s)
    else
      let n : Int := ofDigits digits
      .ok (if negative then -n else n)

/--
The double nearest to `mantissa · 10 ^ exponent`.  Magnitudes far outside the
range of doubles are settled without forming the power.
-/
def nearest (mantissa : Nat) (exponent : Int) : Float :=
  if mantissa = 0 then 0
  else
    let top : Int := (digitCount mantissa : Int) + exponent
    if 310 < top then 1 / 0
    else if top < -330 then 0
    else Float.ofScientific mantissa (exponent < 0) exponent.natAbs

def spanDigits (cs : List Char) : List Nat × List Char :=
  ((cs.takeWhile Char.isDigit).map (·.toNat - '0'.toNat), cs.dropWhile Char.isDigit)

/-- An exponent part: nothing, or `e` with an optional sign and at least one digit. -/
def readExponent : List Char → Option Int
  | [] => some 0
  | c :: rest =>
    if c = 'e' ∨ c = 'E' then
      let (negative, body) := splitSign rest
      match spanDigits body with
      | ([], _) => none
      | (digits, []) =>
        let n : Int := ofDigits digits
        some (if negative then -n else n)
      | _ => none
    else none

/-- An unsigned decimal in ASCII: digits, an optional fraction, an optional exponent. -/
def readDecimal (cs : List Char) : Option Float :=
  let (whole, rest) := spanDigits cs
  let (fraction, rest) :=
    match rest with
    | '.' :: more => spanDigits more
    | _ => ([], rest)
  if whole.isEmpty && fraction.isEmpty then none
  else (readExponent rest).map fun e =>
    nearest (ofDigits (whole ++ fraction)) (e - fraction.length)

def dropUnderscores : (previous : Char) → List Char → Option (List Char)
  | previous, [] => if previous = '_' then none else some []
  | previous, c :: rest =>
    if c = '_' then
      if previous.isDigit then dropUnderscores c rest else none
    else if previous = '_' ∧ ¬ c.isDigit then none
    else (dropUnderscores c rest).map (c :: ·)

def asciiDigit (c : Char) : Char :=
  match Text.digit? c with
  | some d => Char.ofNat ('0'.toNat + d)
  | none => c

/-- Read a real numeral: a decimal, an infinity or a NaN. -/
def readFloat (s : String) : Except Fault Float :=
  let clean := dropUnderscores ' ' ((Text.trim s.toList).map asciiDigit)
  match clean.map splitSign with
  | none => .error (.unreadableReal s)
  | some (negative, body) =>
    let word := String.ofList (body.map Char.toLower)
    let magnitude :=
      if word = "inf" ∨ word = "infinity" then some (1 / 0)
      else if word = "nan" then some (0 / 0)
      else readDecimal body
    match magnitude with
    | none => .error (.unreadableReal s)
    | some x => .ok (if negative then -x else x)

end Number

end Flowgraph
