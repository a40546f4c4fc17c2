import Flowgraph.Application
import Flowgraph.Audio.Wave
import Flowgraph.CommandLine.Options
import Flowgraph.Fault.Kind

/-!
# The command line program

Load a configuration, describe its graph, check its parameters, run it and
write one sink as a wave file.
-/

namespace Flowgraph

namespace CommandLine

inductive ExitCode where
  | ok
  | invalidGraph
  | runtimeError
deriving DecidableEq, Repr

/-- The number of an exit code; refused arguments share the last one. -/
def ExitCode.number : ExitCode → Nat
  | ok => 0
  | invalidGraph => 1
  | runtimeError => 2

/-- What the program printed, wrote and returned. -/
structure Report where
  exit : ExitCode
  printed : List String
  written : Option (String × List UInt8)

/-- How the program ends: with an exit code, and with a file if it wrote one. -/
structure Ending where
  exit : ExitCode
  written : Option (String × List UInt8) := none

/--
What the program prints, in order, and how it ends behind that.  A text is
formed when its turn comes, and fails if a number in it cannot be written.
-/
structure Script where
  texts : List (Except Fault String)
  ending : Except Fault Ending

/-- Print texts one after another; the first one that fails ends it. -/
def printAll (print : String → Except Fault Unit) :
    List (Except Fault String) → Except Fault (List String)
  | [] => .ok []
  | text :: rest => do
    let text ← text
    print text
    let more ← printAll print rest
    return text :: more

namespace Script

def exits (texts : List (Except Fault String)) (exit : ExitCode) : Script :=
  ⟨texts, .ok { exit }⟩

def perform (machine : Machine) (s : Script) : Except Fault Report := do
  let printed ← printAll machine.print s.texts
  let ending ← s.ending
  return ⟨ending.exit, printed, ending.written⟩

end Script

def typeText : Option SignalType → String
  | none => "-"
  | some type => type.name

def blockLine (catalog : Catalog) (d : Block.Descriptor) : Except Fault String := do
  let signals := catalog.signalsFor d.id
  let input ← signals.input
  let output ← signals.output
  let shape := s!"{typeText input} -> {typeText output}"
  return s!"  {Text.padRight d.id 20} {Text.padRight shape 18} {d.summary}"

def listing (catalog : Catalog) : List (Except Fault String) :=
  catalog.groupView.flatMap fun (g, members) => .ok g.name :: members.map (blockLine catalog)

/-- The settings after the overrides of the command line. -/
def overrideSettings (o : Options) (settings : Settings) : Except Fault Settings :=
  match o.sampleRate, o.bufferSize with
  | none, none => .ok settings
  | rate, size => Settings.ofInts (rate.getD settings.sampleRate) (size.getD settings.bufferSize)

def override (o : Options) (c : Configuration) : Except Fault Configuration := do
  let settings ← overrideSettings o c.settings
  match o.cycles with
  | none => return { c with settings }
  | some n =>
    if n ≤ 0 then throw .cyclesOption
    return { c with settings, cycles := n.toNat }

def configure (files : Files) (o : Options) : Except Fault Configuration := do
  let c ← match o.config with
    | none => pure Configuration.standard
    | some path => Configuration.load files path
  override o c

/-- The samples of the sink to write: the one asked for, or the first real one. -/
def selectSink (outputs : Application.Recording) (sink : Option String) :
    Option (String × List Float) :=
  let real (entry : String × Signal) : Option (String × List Float) :=
    match entry.2 with
    | .real g => some (entry.1, g.cells)
    | _ => none
  match sink with
  | some id => (outputs.lookup id).bind fun data => real (id, data)
  | none => outputs.findSome? real

def noSinkText (o : Options) : String :=
  let suffix :=
    match o.sink with
    | some id => if id = "" then "" else s!" for '{id}'"
    | none => ""
  "No real-valued sink output to write" ++ suffix

/-- Write the chosen sink behind some texts, if a file is asked for. -/
def writeOutput (files : Files) (o : Options) (settings : Settings)
    (outputs : Application.Recording) (texts : List (Except Fault String)) : Script :=
  match o.output with
  | none => .exits texts .ok
  | some path =>
    match selectSink outputs o.sink with
    | none => .exits (texts ++ [.ok (noSinkText o)]) .invalidGraph
    | some (id, samples) =>
      match files.checkWritable path >>= fun _ => Audio.write samples (.int settings.sampleRate) with
      | .error fault => ⟨texts, .error fault⟩
      | .ok content =>
        ⟨texts ++ [.ok s!"Wrote {samples.length} samples from '{id}' to {path}"],
          .ok ⟨.ok, some (path, content)⟩⟩

def complaintTexts (complaints : List (String × List String)) : List String :=
  complaints.flatMap fun (id, messages) =>
    messages.map fun message => s!"Parameter error in '{id}': {message}"

def statistics (e : Engine) : Except Fault String := do
  let cycles ← Value.toText (.int e.cycles)
  let samples ← Value.toText (.int e.samples)
  return s!"Rendered {cycles} cycles ({samples} samples per node)"

def execute (machine : Machine) (o : Options) (app : Application) : Script :=
  let summary := app.summary
  match app.checkParams with
  | .error fault => ⟨[summary], .error fault⟩
  | .ok complaints =>
    if !complaints.isEmpty then
      .exits (summary :: (complaintTexts complaints).map .ok) .invalidGraph
    else
      match app.compiled with
      | .error _ => .exits [summary] .invalidGraph
      | .ok _ =>
        match app.run machine .null with
        | (_, .error fault, _) =>
          .exits [summary, .ok s!"Runtime error: {fault.message}"] .runtimeError
        | (app, .ok outputs, _) =>
          writeOutput machine.files o app.configuration.settings outputs
            [summary, statistics app.engine]

/-- What the program does on understood options. -/
def runOptions (machine : Machine) (o : Options) : Script :=
  if o.listBlocks then .exits (listing .builtin) .ok
  else
    match configure machine.files o with
    | .error fault =>
      if fault.isRefusal then
        .exits [.ok s!"Error loading configuration: {fault.message}"] .invalidGraph
      else ⟨[], .error fault⟩
    | .ok c =>
      match Application.ofConfiguration .builtin c with
      | (_, .error fault) => ⟨[], .error fault⟩
      | (app, .ok _) => execute machine o app

/-- What the program does on some arguments. -/
def script (machine : Machine) (args : List String) : Script :=
  match parse args with
  | none => .exits [] .runtimeError
  | some o => if o.help then .exits [] .ok else runOptions machine o

def run (machine : Machine) (args : List String) : Except Fault Report :=
  (script machine args).perform machine

end CommandLine

end Flowgraph
