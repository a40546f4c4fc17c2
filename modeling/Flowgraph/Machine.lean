import Flowgraph.Audio.Source
import Flowgraph.Files

/-!
# The machine

What a run depends on beside its arguments: the files, the memory, the library
that decodes sound files, and the terminal.
-/

namespace Flowgraph

/-- What a program sees of the machine that it runs on. -/
structure Machine where
  files : Files
  memory : Memory
  /-- The sound in the content of the file at a path. -/
  decode : String → List UInt8 → Except Fault Audio.Sound
  /-- Write a text to the terminal, which may not have bytes for it. -/
  print : String → Except Fault Unit

/-- A machine with 64 GiB and nothing else: no file, no kind of sound, and every text is printed. -/
def Machine.bare : Machine where
  files := fun _ => .missing
  memory := ⟨Nat.pow 2 36, by decide, by decide⟩
  decode := fun path _ => .error (.undecodable path .unrecognised)
  print := fun _ => .ok ()

end Flowgraph
