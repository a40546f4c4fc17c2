import Flowgraph.Text.Printable
import Flowgraph.Text.Surrogate

/-!
# Quoted text

How a string is shown inside a message: between single quotes, or between
double quotes when it holds a single quote and no double quote.  The quote, the
backslash and everything unprintable is escaped.
-/

namespace Flowgraph

namespace Text

/-- `n` in lower-case hexadecimal, padded with zeros to `width` digits. -/
def hex (width n : Nat) : List Char :=
  let digits := Nat.toDigits 16 n
  List.replicate (width - digits.length) '0' ++ digits

/-- One character between quotes `quote`. -/
def escapeChar (quote c : Char) : List Char :=
  if c = quote ∨ c = '\\' then ['\\', c]
  else if c = '\n' then ['\\', 'n']
  else if c = '\r' then ['\\', 'r']
  else if c = '\t' then ['\\', 't']
  else if isPrintable c then [c]
  else if c.toNat < 0x100 then '\\' :: 'x' :: hex 2 c.toNat
  else if c.toNat < 0x10000 then '\\' :: 'u' :: hex 4 c.toNat
  else '\\' :: 'U' :: hex 8 c.toNat

def escape (quote : Char) : CodePoint → List Char
  | .char c => escapeChar quote c
  | .half n => '\\' :: 'u' :: hex 4 n

def quoted (s : String) : String :=
  let cs := s.toList
  let quote := if cs.contains '\'' && !cs.contains '"' then '"' else '\''
  String.ofList (quote :: (codePoints cs).flatMap (escape quote) ++ [quote])

def padRight (s : String) (width : Nat) : String :=
  s ++ String.ofList (List.replicate (width - (codePoints s.toList).length) ' ')

end Text

end Flowgraph
