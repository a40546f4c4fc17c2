import Flowgraph.Fault
import Flowgraph.Text.Surrogate

/-!
# UTF-8

Byte strings to texts.  A malformed byte string is refused with the position
of the first bytes that cannot start or continue a character.  A text with a
lone surrogate has no bytes.
-/

namespace Flowgraph

namespace Text

/-- Number of bytes that follow a first byte, and the payload of the first byte. -/
def lead? (b : Nat) : Option (Nat × Nat) :=
  if b < 0x80 then some (0, b)
  else if b < 0xc2 then none
  else if b < 0xe0 then some (1, b - 0xc0)
  else if b < 0xf0 then some (2, b - 0xe0)
  else if b < 0xf5 then some (3, b - 0xf0)
  else none

/-- Bounds of the second byte of a character, which rule out overlong forms and surrogates. -/
def secondBounds (first : Nat) : Nat × Nat :=
  if first = 0xe0 then (0xa0, 0xbf)
  else if first = 0xed then (0x80, 0x9f)
  else if first = 0xf0 then (0x90, 0xbf)
  else if first = 0xf4 then (0x80, 0x8f)
  else (0x80, 0xbf)

def malformed (first position count : Nat) (reason : String) : Fault :=
  if count = 1 then .malformedByte first position reason
  else .malformedBytes position (position + count - 1) reason

/--
The rest of a character whose first `seen` bytes start at `position` and carry
`payload`: its code point, the unread bytes and the number of bytes read.
-/
def continueChar (first position : Nat) :
    (missing seen payload : Nat) → List UInt8 → Except Fault (Nat × List UInt8)
  | 0, _, payload, rest => .ok (payload, rest)
  | _ + 1, seen, _, [] => .error (malformed first position seen "unexpected end of data")
  | missing + 1, seen, payload, b :: rest =>
    let (low, high) := if seen = 1 then secondBounds first else (0x80, 0xbf)
    if low ≤ b.toNat ∧ b.toNat ≤ high then
      continueChar first position missing (seen + 1) (payload * 64 + (b.toNat - 0x80)) rest
    else .error (malformed first position seen "invalid continuation byte")

theorem length_continueChar {first position missing seen payload : Nat} {bytes : List UInt8}
    {code : Nat} {rest : List UInt8}
    (h : continueChar first position missing seen payload bytes = .ok (code, rest)) :
    rest.length ≤ bytes.length := by
  fun_induction continueChar first position missing seen payload bytes with
  | case1 => simp at h; simp [h]
  | case2 => simp at h
  | case3 missing seen payload b tail low high _ _ ih =>
    have := ih h
    simp only [List.length_cons]
    omega
  | case4 => simp at h

def decodeFrom (position : Nat) (bytes : List UInt8) : Except Fault (List Char) :=
  match bytes with
  | [] => .ok []
  | b :: rest =>
    match lead? b.toNat with
    | none => .error (.malformedByte b.toNat position "invalid start byte")
    | some (missing, payload) =>
      match h : continueChar b.toNat position missing 1 payload rest with
      | .error fault => .error fault
      | .ok (code, rest') => do
        let more ← decodeFrom (position + missing + 1) rest'
        return Char.ofNat code :: more
termination_by bytes.length
decreasing_by
  have := length_continueChar h
  simp only [List.length_cons]
  omega

def decode (bytes : List UInt8) : Except Fault String :=
  (decodeFrom 0 bytes).map String.ofList

/-- The fault of code points that start with `count` halves of surrogate pairs, `unit` first. -/
def loneFault (unit position count : Nat) : Fault :=
  if count = 1 then .loneSurrogate unit position
  else .loneSurrogates position (position + count - 1)

def CodePoint.isHalf : CodePoint → Bool
  | char _ => false
  | half _ => true

/-- The characters of code points, the first of which is at `position`. -/
def plainFrom (position : Nat) : List CodePoint → Except Fault (List Char)
  | [] => .ok []
  | .char c :: rest => (plainFrom (position + 1) rest).map (c :: ·)
  | .half n :: rest =>
    .error (loneFault n position (rest.takeWhile CodePoint.isHalf).length.succ)

/-- The text as characters alone, which is what its bytes are made of. -/
def toPlain (s : String) : Except Fault String :=
  (plainFrom 0 (codePoints s.toList)).map String.ofList

/-- Print a text to a terminal that takes the bytes of UTF-8, if the text has any. -/
def printPlain (s : String) : Except Fault Unit :=
  (toPlain s).map fun _ => ()

/-- Line ends of every convention become line feeds. -/
def unifyLines : List Char → List Char
  | '\r' :: '\n' :: rest => '\n' :: unifyLines rest
  | '\r' :: rest => '\n' :: unifyLines rest
  | c :: rest => c :: unifyLines rest
  | [] => []

end Text

end Flowgraph
