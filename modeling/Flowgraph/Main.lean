import Flowgraph.CommandLine.Run

/-!
# The executable

Reads the files that a command line refers to, runs the program on them, and
prints and writes what it reports.
-/

namespace Flowgraph

namespace Main

def probe (path : String) : IO Entry := do
  let .ok path := Text.toPlain path | return .missing
  try
    let content ← IO.FS.readBinFile path
    return .file content.toList
  catch
    | .inappropriateType _ code _ => return if code = 20 then .notDirectory else .directory
    | .invalidArgument _ 36 _ => return .tooLong
    | _ => return .missing

/-- Paths of the audio files that the nodes of a configuration play. -/
def audioPaths (c : Configuration) : List String :=
  c.graph.nodes.filterMap fun n =>
    match n.params.get "path" with
    | .text path => some (Path.normalize path)
    | _ => none

/-- The files at some paths; everything else is missing. -/
def snapshot (paths : List String) : IO Files := do
  let entries ← paths.mapM fun path => return (path, ← probe path)
  return fun path => (entries.lookup path).getD .missing

/-- The machine with some files, wave files as its sound files and a terminal that takes UTF-8. -/
def machine (files : Files) : Machine :=
  { Machine.bare with
    files := files
    decode := Audio.readWave
    print := Text.printPlain }

def filesFor (args : List String) : IO Files := do
  match CommandLine.parse args with
  | none => return fun _ => .missing
  | some options =>
    let config := options.config.toList
    let files ← snapshot config
    match CommandLine.configure files options with
    | .error _ => return files
    | .ok c =>
      let known ← snapshot (config ++ audioPaths c)
      return fun path =>
        if some path = options.output then .file [] else known path

end Main

end Flowgraph

def main (args : List String) : IO UInt32 := do
  let args := args.map Flowgraph.Text.ofPlain
  let files ← Flowgraph.Main.filesFor args
  match Flowgraph.CommandLine.run (Flowgraph.Main.machine files) args with
  | .error fault =>
    (← IO.getStderr).putStrLn fault.message
    return 1
  | .ok report =>
    for text in report.printed do
      if let .ok plain := Flowgraph.Text.toPlain text then IO.println plain
    if let some (path, content) := report.written then
      if let .ok path := Flowgraph.Text.toPlain path then
        IO.FS.writeBinFile path (ByteArray.mk content.toArray)
    return UInt32.ofNat report.exit.number
