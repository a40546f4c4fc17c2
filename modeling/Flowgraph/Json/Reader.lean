import Flowgraph.Number.Literal
import Flowgraph.Text.Surrogate
import Flowgraph.Value

/-!
# Reading JSON

A reader for JSON texts that also takes the constants `NaN`, `Infinity` and
`-Infinity`.  Integers keep all their digits; a repeated key overwrites the
earlier entry.  Readers return what they read
and the unread rest; an error is placed by the number of characters still
unread, which `parse` turns into line, column and offset.
-/

namespace Flowgraph

namespace Json

inductive Stop where
  | problem (text : String) (remaining : Nat)
  | unterminated
  | fault (cause : Fault)

/-- Arrays and objects may be nested this deep. -/
def maxDepth : Nat := 985

def isSpace (c : Char) : Bool :=
  c = ' ' || c = '\t' || c = '\n' || c = '\r'

def skip (cs : List Char) : List Char :=
  cs.dropWhile isSpace

def stop {α : Type} (text : String) (rest : List Char) : Except Stop α :=
  .error (.problem text rest.length)

def hexDigit? (c : Char) : Option Nat :=
  if c.isDigit then some (c.toNat - '0'.toNat)
  else if 'a' ≤ c ∧ c ≤ 'f' then some (c.toNat - 'a'.toNat + 10)
  else if 'A' ≤ c ∧ c ≤ 'F' then some (c.toNat - 'A'.toNat + 10)
  else none

def hex4? (a b c d : Char) : Option Nat := do
  let a ← hexDigit? a
  let b ← hexDigit? b
  let c ← hexDigit? c
  let d ← hexDigit? d
  return ((a * 16 + b) * 16 + c) * 16 + d

/-- The character after a backslash, when it names one by itself. -/
def simpleEscape? (c : Char) : Option Char :=
  if c = '"' ∨ c = '\\' ∨ c = '/' then some c
  else if c = 'b' then some (Char.ofNat 8)
  else if c = 'f' then some (Char.ofNat 12)
  else if c = 'n' then some '\n'
  else if c = 'r' then some '\r'
  else if c = 't' then some '\t'
  else none

def prepend (p : Text.CodePoint) (read : List Char × List Char) : List Char × List Char :=
  (p.kept ++ read.1, read.2)

/-- The characters of a string up to its closing quote. -/
def stringBody : List Char → Except Stop (List Char × List Char)
  | [] => .error .unterminated
  | '"' :: rest => .ok ([], rest)
  | ['\\'] => .error .unterminated
  | '\\' :: 'u' :: a :: b :: c :: d :: e :: rest =>
    match hex4? a b c d with
    | none => stop "Invalid \\uXXXX escape" ('u' :: a :: b :: c :: d :: e :: rest)
    | some n =>
      match Text.isHighSurrogate n, _tail : e :: rest with
      | true, '\\' :: 'u' :: f :: g :: h :: i :: j :: more =>
        match hex4? f g h i with
        | none => stop "Invalid \\uXXXX escape" ('u' :: f :: g :: h :: i :: j :: more)
        | some low =>
          if Text.isLowSurrogate low then (stringBody (j :: more)).map (prepend (.ofPair n low))
          else (stringBody (e :: rest)).map (prepend (.ofUnit n))
      | _, _ => (stringBody (e :: rest)).map (prepend (.ofUnit n))
  | '\\' :: 'u' :: rest => stop "Invalid \\uXXXX escape" ('u' :: rest)
  | '\\' :: c :: rest =>
    match simpleEscape? c with
    | some escaped => (stringBody rest).map (prepend (.char escaped))
    | none => stop "Invalid \\escape" ('\\' :: c :: rest)
  | c :: rest =>
    if c.toNat ≤ 0x1f then stop "Invalid control character at" (c :: rest)
    else (stringBody rest).map (prepend (.char c))
termination_by cs => cs.length
decreasing_by
  all_goals simp only [List.length_cons]
  any_goals omega
  have := congrArg List.length _tail
  simp only [List.length_cons] at this
  omega

/-- A string whose opening quote has been read. -/
def string (cs : List Char) : Except Stop (String × List Char) :=
  match stringBody cs with
  | .ok (body, rest) => .ok (String.ofList body, rest)
  | .error .unterminated => .error (.problem "Unterminated string starting at" (cs.length + 1))
  | .error other => .error other

/-- An optional fraction: a point followed by at least one digit. -/
def fraction (cs : List Char) : List Nat × List Char :=
  match cs with
  | '.' :: d :: rest => if d.isDigit then Number.spanDigits (d :: rest) else ([], cs)
  | _ => ([], cs)

/-- An optional exponent: `e`, a sign and at least one digit. -/
def exponent? (cs : List Char) : Option Int × List Char :=
  match cs with
  | c :: rest =>
    if c = 'e' ∨ c = 'E' then
      let (negative, body) := Number.splitSign rest
      match Number.spanDigits body with
      | ([], _) => (none, cs)
      | (digits, rest) =>
        let n : Int := Number.ofDigits digits
        (some (if negative then -n else n), rest)
    else (none, cs)
  | [] => (none, cs)

/-- The digits before the point: a lone zero, or digits that start with another one. -/
def wholePart (cs : List Char) : List Nat × List Char :=
  match cs with
  | '0' :: rest => ([0], rest)
  | _ => Number.spanDigits cs

/-- A numeral; without fraction and exponent it is an integer. -/
def number (cs : List Char) : Except Stop (Value × List Char) :=
  let (negative, body) :=
    match cs with
    | '-' :: rest => (true, rest)
    | _ => (false, cs)
  let (whole, rest) := wholePart body
  let (decimals, rest') := fraction rest
  let (power, rest'') := exponent? rest'
  if whole.isEmpty then stop "Expecting value" cs
  else if decimals.isEmpty && power.isNone then
    if Number.maxDigits < whole.length then .error (.fault (.tooManyDigits whole.length))
    else
      let n : Int := Number.ofDigits whole
      .ok (.int (if negative then -n else n), rest'')
  else
    let x := Number.nearest (Number.ofDigits (whole ++ decimals)) (power.getD 0 - decimals.length)
    .ok (.float (if negative then -x else x), rest'')

def constant? (cs : List Char) : Option (Value × List Char) :=
  match cs with
  | 'n' :: 'u' :: 'l' :: 'l' :: rest => some (.null, rest)
  | 't' :: 'r' :: 'u' :: 'e' :: rest => some (.bool true, rest)
  | 'f' :: 'a' :: 'l' :: 's' :: 'e' :: rest => some (.bool false, rest)
  | 'N' :: 'a' :: 'N' :: rest => some (.float (0 / 0), rest)
  | 'I' :: 'n' :: 'f' :: 'i' :: 'n' :: 'i' :: 't' :: 'y' :: rest => some (.float (1 / 0), rest)
  | '-' :: 'I' :: 'n' :: 'f' :: 'i' :: 'n' :: 'i' :: 't' :: 'y' :: rest =>
    some (.float (-1 / 0), rest)
  | _ => none

mutual

def value : (fuel depth : Nat) → List Char → Except Stop (Value × List Char)
  | 0, _, cs => stop "Expecting value" cs
  | fuel + 1, depth, cs =>
    match cs with
    | '"' :: rest => do
      let (s, rest) ← string rest
      return (.text s, rest)
    | '[' :: rest =>
      if maxDepth < depth + 1 then .error (.fault .nestedTooDeep)
      else
        match skip rest with
        | ']' :: rest => .ok (.list [], rest)
        | rest => do
          let (items, rest) ← items fuel (depth + 1) rest
          return (.list items, rest)
    | '\x7b' :: rest =>
      if maxDepth < depth + 1 then .error (.fault .nestedTooDeep)
      else
        match skip rest with
        | '\x7d' :: rest => .ok (.object [], rest)
        | rest => do
          let (entries, rest) ← entries fuel (depth + 1) rest
          return (.object (Params.ofEntries entries), rest)
    | cs =>
      match constant? cs with
      | some found => .ok found
      | none => number cs

def items : (fuel depth : Nat) → List Char → Except Stop (List Value × List Char)
  | 0, _, cs => stop "Expecting value" cs
  | fuel + 1, depth, cs => do
    let (v, rest) ← value fuel depth cs
    match skip rest with
    | ']' :: rest => return ([v], rest)
    | ',' :: rest =>
      let (more, rest) ← items fuel depth (skip rest)
      return (v :: more, rest)
    | rest => stop "Expecting ',' delimiter" rest

def entries : (fuel depth : Nat) → List Char → Except Stop (List (Key × Value) × List Char)
  | 0, _, cs => stop "Expecting value" cs
  | fuel + 1, depth, cs =>
    match cs with
    | '"' :: rest => do
      let (key, rest) ← string rest
      match skip rest with
      | ':' :: rest =>
        let (v, rest) ← value fuel depth (skip rest)
        match skip rest with
        | '\x7d' :: rest => return ([(.text key, v)], rest)
        | ',' :: rest =>
          let (more, rest) ← entries fuel depth (skip rest)
          return ((.text key, v) :: more, rest)
        | rest => stop "Expecting ',' delimiter" rest
      | rest => stop "Expecting ':' delimiter" rest
    | cs => stop "Expecting property name enclosed in double quotes" cs

end

/-- Place a problem that leaves `remaining` characters unread in line, column and offset. -/
def place (cs : List Char) (problem : String) (remaining : Nat) : Fault :=
  let before := cs.take (cs.length - remaining)
  let line := before.count '\n' + 1
  let column := (before.reverse.takeWhile (· ≠ '\n')).length + 1
  .syntaxError problem line column before.length

def document (cs : List Char) : Except Stop Value := do
  match cs with
  | c :: _ =>
    if c.toNat = 0xfeff then stop "Unexpected UTF-8 BOM (decode using utf-8-sig)" cs
  | [] => pure ()
  let (v, rest) ← value (2 * cs.length + 2) 0 (skip cs)
  match skip rest with
  | [] => return v
  | rest => stop "Extra data" rest

def parse (text : String) : Except Fault Value :=
  let cs := text.toList
  match document cs with
  | .ok v => .ok v
  | .error (.problem problem remaining) => .error (place cs problem remaining)
  | .error .unterminated => .error (place cs "Unterminated string starting at" 0)
  | .error (.fault cause) => .error cause

end Json

end Flowgraph
