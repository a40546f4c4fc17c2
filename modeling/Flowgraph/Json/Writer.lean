import Flowgraph.Number.Shortest
import Flowgraph.Text.Quoted
import Flowgraph.Value

/-!
# Writing JSON

Two layouts: everything on one line, or one entry per line with two spaces of
indentation per level.  Characters outside ASCII are escaped by their UTF-16
code units, and doubles that are not numbers are written as constants.
-/

namespace Flowgraph

namespace Json

def unitEscape (n : Nat) : List Char :=
  '\\' :: 'u' :: Text.hex 4 n

def escapeChar (c : Char) : List Char :=
  if c = '"' ∨ c = '\\' then ['\\', c]
  else if c = '\n' then ['\\', 'n']
  else if c = '\r' then ['\\', 'r']
  else if c = '\t' then ['\\', 't']
  else if c.toNat = 8 then ['\\', 'b']
  else if c.toNat = 12 then ['\\', 'f']
  else if c.toNat < 0x20 then unitEscape c.toNat
  else if c.toNat < 0x7f then [c]
  else if c.toNat < 0x10000 then unitEscape c.toNat
  else
    let n := c.toNat - 0x10000
    unitEscape (0xd800 + n / 0x400) ++ unitEscape (0xdc00 + n % 0x400)

def escape : Text.CodePoint → List Char
  | .char c => escapeChar c
  | .half n => unitEscape n

def quote (s : String) : String :=
  String.ofList ('"' :: (Text.codePoints s.toList).flatMap escape ++ ['"'])

/-- A double; infinities and NaN are constants. -/
def float (x : Float) : String :=
  if x.isNaN then "NaN"
  else if x.isInf then (if x < 0 then "-Infinity" else "Infinity")
  else Number.text x

/-- The name of an entry: other keys than texts are spelled out. -/
def keyText : Key → String
  | .null => "null"
  | .bool b => if b then "true" else "false"
  | .int n => toString n
  | .float x => float x
  | .text s => s

def newline (level : Nat) : String :=
  String.ofList ('\n' :: List.replicate (2 * level) ' ')

mutual

/-- A value with one entry per line, starting at `level`. -/
def pretty (level : Nat) : Value → String
  | .null => "null"
  | .bool b => if b then "true" else "false"
  | .int n => toString n
  | .float x => float x
  | .text s => quote s
  | .list [] => "[]"
  | .list items =>
    "[" ++ ",".intercalate (prettyItems (level + 1) items) ++ newline level ++ "]"
  | .object [] => "\x7b\x7d"
  | .object entries =>
    "\x7b" ++ ",".intercalate (prettyEntries (level + 1) entries) ++ newline level ++ "\x7d"

def prettyItems (level : Nat) : List Value → List String
  | [] => []
  | v :: rest => (newline level ++ pretty level v) :: prettyItems level rest

def prettyEntries (level : Nat) : List (Key × Value) → List String
  | [] => []
  | (key, v) :: rest =>
    (newline level ++ quote (keyText key) ++ ": " ++ pretty level v) :: prettyEntries level rest

end

mutual

def compact : Value → String
  | .null => "null"
  | .bool b => if b then "true" else "false"
  | .int n => toString n
  | .float x => float x
  | .text s => quote s
  | .list items => "[" ++ ",".intercalate (compactItems items) ++ "]"
  | .object entries => "\x7b" ++ ",".intercalate (compactEntries entries) ++ "\x7d"

def compactItems : List Value → List String
  | [] => []
  | v :: rest => compact v :: compactItems rest

def compactEntries : List (Key × Value) → List String
  | [] => []
  | (key, v) :: rest => (quote (keyText key) ++ ":" ++ compact v) :: compactEntries rest

end

end Json

end Flowgraph
