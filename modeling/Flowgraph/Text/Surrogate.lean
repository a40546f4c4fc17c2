/-!
# Lone surrogates

A text may name one half of a surrogate pair without the other.  Such a code
unit is no character, so a private character of the last plane, with the same
last four hexadecimal digits, stands for it.  Where that character itself is
meant, the last character of all is put in front of it, and so it is in front
of its own.
-/

namespace Flowgraph

namespace Text

def isHighSurrogate (n : Nat) : Bool := 0xd800 ≤ n && n < 0xdc00

def isLowSurrogate (n : Nat) : Bool := 0xdc00 ≤ n && n < 0xe000

def isSurrogate (n : Nat) : Bool := isHighSurrogate n || isLowSurrogate n

/-- What a text is made of. -/
inductive CodePoint where
  | char (c : Char)
  /-- One half of a surrogate pair. -/
  | half (unit : Nat)

def CodePoint.ofUnit (n : Nat) : CodePoint :=
  if isSurrogate n then .half n else .char (Char.ofNat n)

def CodePoint.ofPair (high low : Nat) : CodePoint :=
  .char (Char.ofNat (0x10000 + (high - 0xd800) * 0x400 + (low - 0xdc00)))

/-- The character that takes away the meaning of the one behind it. -/
def plainMark : Char := Char.ofNat 0x10ffff

/-- The code unit that a character stands for. -/
def standsFor? (c : Char) : Option Nat :=
  if 0x10d800 ≤ c.toNat && c.toNat < 0x10e000 then some (c.toNat - 0x100000) else none

/-- The characters that a code point is kept as. -/
def CodePoint.kept : CodePoint → List Char
  | char c => if c = plainMark ∨ (standsFor? c).isSome then [plainMark, c] else [c]
  | half n => [Char.ofNat (0x100000 + n)]

/-- What a character means without a mark in front of it. -/
def CodePoint.ofChar (c : Char) : CodePoint :=
  match standsFor? c with
  | some n => .half n
  | none => .char c

/-- The code points that are kept as some characters. -/
def codePoints : List Char → List CodePoint
  | [] => []
  | [c] => [.ofChar c]
  | c :: d :: rest =>
    if c = plainMark then .char d :: codePoints rest else .ofChar c :: codePoints (d :: rest)

/-- The texts of one code point that a text is made of. -/
def characters (s : String) : List String :=
  (codePoints s.toList).map fun p => String.ofList p.kept

/-- A text that is given by its characters alone. -/
def ofPlain (s : String) : String :=
  String.ofList (s.toList.flatMap fun c => (CodePoint.char c).kept)

end Text

end Flowgraph
