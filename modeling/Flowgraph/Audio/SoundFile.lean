import Flowgraph.Machine

/-!
# Sound files

Files are decoded by the sound library of the machine; the first channel is kept.
-/

namespace Flowgraph

namespace Audio

structure Recording where
  source : Source
  channels : Nat
deriving Repr

def maxFileSize : Int := 100 * 1024 * 1024

def mebibyte : Nat := 1024 * 1024

def limitText : Number → String
  | .int n => toString (n / mebibyte)
  | .float x => Number.text (x / Float.ofNat mebibyte).floor

def directorySize : Nat := 4096

def checkSize (limit : Number) (path : String) (size : Nat) : Except Fault Unit :=
  if limit.lt (.int size) then
    .error (.fileTooLarge (Path.name path) size
      (Number.fixed (Float.ofNat size / 1024 / 1024) 1) (limitText limit))
  else .ok ()

/-- Open the sound file at a path, unless it is larger than `limit`; a directory holds no sound. -/
def openFile (machine : Machine) (limit : Number) (path : String) : Except Fault Recording :=
  match machine.files.read path with
  | .error (.isDirectory _) => do
    checkSize limit path directorySize
    throw (.undecodable path .unrecognised)
  | .error fault => .error fault
  | .ok content => do
    checkSize limit path content.length
    let sound ← machine.decode path content
    let samples ← sound.first
    let source ← Source.ofSamples samples sound.rate (Path.name path)
    return ⟨source, sound.channels⟩

end Audio

end Flowgraph
