import Flowgraph.Audio.LittleEndian
import Flowgraph.Fault

/-!
# RIFF files

A file is a header followed by chunks, each with a tag of four letters and a
size.  A scan over the chunks finds the format of the samples and where they
are.  It tolerates chunks it does not know and sizes that reach beyond the end
of the file, and looks for the next tag where it meets something else.
-/

namespace Flowgraph

namespace Audio

def tag (name : String) : List UInt8 :=
  name.toList.map fun c => UInt8.ofNat c.toNat

inductive ByteOrder where
  | little
  | big
deriving DecidableEq, Repr

def ByteOrder.ofTag? (bytes : List UInt8) : Option ByteOrder :=
  if bytes = tag "RIFF" then some .little
  else if bytes = tag "RIFX" then some .big
  else none

def ByteOrder.arrange (order : ByteOrder) (bytes : List UInt8) : List UInt8 :=
  match order with
  | .little => bytes
  | .big => bytes.reverse

def field (order : ByteOrder) (bytes : List UInt8) (offset width : Nat) : Nat :=
  let found := (bytes.drop offset).take width
  if found.length < width then 0 else ofBytes (order.arrange found)

inductive Numeric where
  | integer
  | real
deriving DecidableEq, Repr

structure Format where
  numeric : Numeric
  width : Nat
  channels : Nat
  rate : Nat
deriving Repr

namespace Format

/-- The numbers that an identifier of sixteen bytes stands for. -/
def ofIdentifier? (code first second : Nat) (last : List UInt8) : Option Numeric :=
  let plain := first = 0 ∧ second = 0x10 ∧ last = [0x80, 0, 0, 0xaa, 0, 0x38, 0x9b, 0x71]
  let ambisonic := first = 0x721 ∧ second = 0x11d3 ∧ last = [0x86, 0x44, 0xc8, 0xc1, 0xca, 0, 0, 0]
  if plain ∨ ambisonic then
    match code with
    | 1 => some .integer
    | 3 => some .real
    | _ => none
  else none

/-- The numbers that the chunk behind `bytes` stores; the long form names them by an identifier. -/
def numericOf (order : ByteOrder) (bytes : List UInt8) (size : Nat) : Except Undecodable Numeric :=
  match field order bytes 0 2 with
  | 1 => .ok .integer
  | 3 => .ok .real
  | 0xfffe =>
    match ofIdentifier? (field order bytes 24 4) (field order bytes 28 2) (field order bytes 30 2)
        ((bytes.drop 32).take 8) with
    | none => .error .unknownEncoding
    | some numeric => if size < 40 then .error .shortFormat else .ok numeric
  | _ => .error .malformedFormat

def ofBytes (order : ByteOrder) (bytes : List UInt8) (size : Nat) : Except Undecodable Format := do
  if size < 16 ∨ Nat.pow 2 31 ≤ size then throw .shortFormat
  let numeric ← numericOf order bytes size
  return {
    numeric
    width := (field order bytes 14 2 + 7) / 8
    channels := field order bytes 2 2
    rate := field order bytes 4 4 }

end Format

/--
What a scan has found: the format, the offset of the samples, and where they
end if something follows them.
-/
structure Survey where
  format : Option Format
  start : Option Nat
  stop : Option Nat
deriving Repr

/--
How a scan goes on behind the header of a chunk: `ahead` bytes behind the
fifth byte of the header, after `reached` bytes of the file were read.
-/
inductive Course where
  | finish
  | resume (ahead reached size : Nat) (found : Survey)

def isLetter (b : UInt8) : Bool :=
  0x20 ≤ b.toNat && b.toNat < 0x7f

def peaksSize (channels : Nat) : Nat :=
  8 + 8 * channels

/--
Note where samples are.  A chunk without a size takes all there is if the file
was left unfinished, that is, if it announces no more than one empty chunk.
-/
def noteData (file : List UInt8) (announced here size : Nat) (found : Survey) : Course :=
  let rest := file.length - here
  let unfinished := size = 0 ∧ announced = 8 ∧ 44 < file.length
  let length := if unfinished then rest else min size rest
  let stop := if here + length < file.length then some (here + length) else found.stop
  let skipped := length + size % 2
  .resume (3 + skipped) (here + skipped) 0 { found with start := some here, stop }

/-- Read the header of the chunk at `start` and decide how to go on. -/
def visit (order : ByteOrder) (file : List UInt8) (announced start : Nat) (found : Survey) :
    Except Undecodable Course :=
  let name := (file.drop start).take 4
  let size := field order file (start + 4) 4
  let here := min (start + 8) file.length
  let pass (n : Nat) (found : Survey) : Course :=
    .resume (3 + n) (min (here + n) file.length) size found
  if name = [0, 0, 0, 0] then .ok .finish
  else if (ByteOrder.ofTag? name).isSome then .error .repeatedHeader
  else if name = tag "fmt " then
    match found.format with
    | some _ => .ok (pass 0 found)
    | none =>
      (Format.ofBytes order (file.drop here) size).map fun format =>
        pass size { found with format := some format }
  else if name = tag "data" then
    match found.format with
    | none => .error .noData
    | some _ => .ok (noteData file announced here size found)
  else if name = tag "PEAK" then
    match found.format with
    | none => .error .earlyPeaks
    | some format =>
      if size = peaksSize format.channels then .ok (pass size found) else .error .malformedPeaks
  else if name = tag "fact" then .ok (pass (max 4 size) found)
  else if name.all isLetter then .ok (pass size found)
  else if here % 4 ≠ 0 then .ok (.resume 0 here size found)
  else .ok .finish

/-- Scan the chunks from `position` on; a chunk of odd size is followed by a byte of padding. -/
def scan (order : ByteOrder) (file : List UInt8) (announced position : Nat) (padded : Bool)
    (found : Survey) : Except Undecodable Survey :=
  let start := if padded then position + 1 else position
  if _h : file.length < start + 4 then .ok found
  else
    match visit order file announced start found with
    | .error reason => .error reason
    | .ok .finish => .ok found
    | .ok (.resume ahead reached size found) =>
      if file.length ≤ size ∨ file.length ≤ reached + 4 then .ok found
      else scan order file announced (start + 5 + ahead) (size % 2 = 1) found
termination_by file.length - position
decreasing_by
  have : position ≤ start := by simp only [start]; split <;> omega
  omega

def survey (file : List UInt8) : Except Undecodable (ByteOrder × Survey) :=
  match ByteOrder.ofTag? (file.take 4) with
  | none => .error .unrecognised
  | some order =>
    if (file.drop 8).take 4 ≠ tag "WAVE" then .error .unrecognised
    else
      (scan order file (field order file 4 4) 12 false ⟨none, none, none⟩).map fun found =>
        (order, found)

end Audio

end Flowgraph
