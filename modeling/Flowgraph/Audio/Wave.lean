import Flowgraph.Audio.Level
import Flowgraph.Audio.LittleEndian
import Flowgraph.Audio.Riff
import Flowgraph.Audio.Source

/-!
# Wave files

Reading 16-bit integer and 32-bit floating point samples out of a RIFF file,
and writing 16-bit mono files.
-/

namespace Flowgraph

namespace Audio

inductive Encoding where
  | integer16
  | float32
deriving DecidableEq, Repr

namespace Encoding

def width : Encoding → Nat
  | integer16 => 2
  | float32 => 4

def sample : Encoding → List UInt8 → Float
  | integer16, bytes => Float.ofInt (ofSigned bytes) / 32768
  | float32, bytes => (Float32.ofBits (UInt32.ofNat (ofBytes bytes))).toFloat

/-- The encoding of a format; reals of an odd width are only refused later on. -/
def ofFormat (f : Format) : Except Undecodable Encoding :=
  match f.numeric, f.width with
  | .integer, 2 => .ok .integer16
  | .integer, _ => .error .unknownEncoding
  | .real, 8 => .error .unknownEncoding
  | .real, _ => .ok .float32

end Encoding

def frames (n : Nat) : (count : Nat) → List UInt8 → List (List UInt8)
  | 0, _ => []
  | count + 1, bytes => bytes.take n :: frames n count (bytes.drop n)

def samplesOf (order : ByteOrder) (encoding : Encoding) : (channels : Nat) → List UInt8 → List Float
  | 0, _ => []
  | channels + 1, bytes =>
    encoding.sample (order.arrange (bytes.take encoding.width)) ::
      samplesOf order encoding channels (bytes.drop encoding.width)

@[simp]
theorem length_samplesOf (order : ByteOrder) (encoding : Encoding) (channels : Nat)
    (bytes : List UInt8) : (samplesOf order encoding channels bytes).length = channels := by
  induction channels generalizing bytes with
  | zero => rfl
  | succ channels ih => simp [samplesOf, ih]

/-- What samples begin with when they are compressed. -/
def packings : List (List UInt8) := [tag "wvpk", tag "OggS"]

def maxChannels : Nat := 1024

/--
Bytes of samples from `start` on in a file of `total` bytes.  They end where
other chunks were seen to go on; that may be before the start.
-/
def extent (total start : Nat) (stop : Option Nat) : Int :=
  if start < total then (stop.getD total : Int) - start else 0

/-- Read the samples of a format from `start` on; `stop` is where other chunks go on. -/
def decodeSamples (order : ByteOrder) (f : Format) (file : List UInt8)
    (start : Nat) (stop : Option Nat) : Except Undecodable Sound := do
  if packings.contains ((file.drop start).take 4) then throw .packed
  let encoding ← Encoding.ofFormat f
  if f.channels = 0 then throw .inconsistent
  let n := f.channels * encoding.width
  let length := extent file.length start stop
  let count := length.tdiv n
  if f.rate = 0 ∨ Nat.pow 2 31 ≤ f.rate ∨ count < 0 ∨ maxChannels < f.channels then throw .incomplete
  if length < 0 ∨ f.width ≠ encoding.width then throw .inconsistent
  return {
    rate := f.rate
    channels := f.channels
    frames := (frames n count.toNat (file.drop start)).map (samplesOf order encoding f.channels)
    frames_length := by simp }

def decode (file : List UInt8) : Except Undecodable Sound := do
  let (order, found) ← survey file
  match found.format, found.start with
  | some format, some start => decodeSamples order format file start found.stop
  | _, _ => throw .noData

def readWave (path : String) (file : List UInt8) : Except Fault Sound :=
  (decode file).mapError (Fault.undecodable path)

def encode (rate : Nat) (levels : List Int) : List UInt8 :=
  let data := levels.flatMap (toSigned 2)
  tag "RIFF" ++ toBytes 4 (36 + data.length) ++ tag "WAVE" ++
    tag "fmt " ++ toBytes 4 16 ++ toBytes 2 1 ++ toBytes 2 1 ++ toBytes 4 rate ++
    toBytes 4 (2 * rate) ++ toBytes 2 2 ++ toBytes 2 16 ++
    tag "data" ++ toBytes 4 data.length ++ data

/-- What a field of four bytes is too small for. -/
def fieldLimit : Nat := Nat.pow 2 32

variable {α : Type} [Elementary α] [OfNat α 0] [Add α] [Mul α] [Div α] [Neg α]
  [LT α] [DecidableLT α] [LE α] [DecidableLE α] [OfNat α 1] [OfScientific α] [OfNat α 32767]

/--
The wave file of some samples at a rate read from a value.  Its header has to
hold the size of the file and the number of bytes in a second.
-/
def write (samples : List α) (rate : Value) : Except Fault (List UInt8) :=
  match rate.toInt with
  | .error _ => .error .waveRate
  | .ok n =>
    if n ≤ 0 then .error .waveRate
    else if fieldLimit ≤ 2 * n ∨ fieldLimit ≤ 36 + 2 * samples.length then .error .waveHeader
    else .ok (encode n.toNat (levels samples))

end Audio

end Flowgraph
