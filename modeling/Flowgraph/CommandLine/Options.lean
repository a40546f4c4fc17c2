import Flowgraph.Number.Literal
import Flowgraph.Files
import Flowgraph.Text.Case

/-!
# Command line options

Options are written out, shortened to an unambiguous beginning, or joined with
their value by an equals sign.  Arguments are first sorted into options and
values, then taken from left to right.
-/

namespace Flowgraph

namespace CommandLine

inductive Flag where
  | help
  | config
  | cycles
  | sampleRate
  | bufferSize
  | output
  | sink
  | listBlocks
  | trace
  | logLevel
deriving DecidableEq, Repr

def spellings : List (String × Flag) := [
  ("-h", .help),
  ("--help", .help),
  ("--config", .config),
  ("--cycles", .cycles),
  ("--sample-rate", .sampleRate),
  ("--buffer-size", .bufferSize),
  ("--output", .output),
  ("--sink", .sink),
  ("--list-blocks", .listBlocks),
  ("--trace", .trace),
  ("--log-level", .logLevel)]

def Flag.takesValue : Flag → Bool
  | help | listBlocks | trace => false
  | _ => true

structure Options where
  config : Option String := none
  cycles : Option Int := none
  sampleRate : Option Int := none
  bufferSize : Option Int := none
  output : Option String := none
  sink : Option String := none
  listBlocks : Bool := false
  trace : Bool := false
  logLevel : String := "WARNING"
  help : Bool := false
deriving Repr

def logLevels : List String := ["DEBUG", "INFO", "WARNING", "ERROR"]

inductive Token where
  | value (text : String)
  | separator
  | known (flag : Flag) (text : Option String)
  | unknown
deriving Repr

def splitEquals (arg : String) : Option (String × String) :=
  let cs := arg.toList
  match cs.dropWhile (· ≠ '=') with
  | [] => none
  | _ :: rest => some (String.ofList (cs.takeWhile (· ≠ '=')), String.ofList rest)

/-- Whether characters are nothing but the end of an argument; a line feed may close it. -/
def isEnd (cs : List Char) : Bool :=
  cs = [] || cs = ['\n']

def isNegativeNumber (arg : String) : Bool :=
  match arg.toList with
  | '-' :: rest =>
    let isDigit (c : Char) : Bool := (Text.digit? c).isSome
    let behind := rest.dropWhile isDigit
    match behind with
    | '.' :: decimals =>
      (decimals.head?.any isDigit) && isEnd (decimals.dropWhile isDigit)
    | _ => (rest.head?.any isDigit) && isEnd behind
  | _ => false

def candidates (arg : String) : List (Flag × Option String) :=
  if arg.startsWith "--" then
    let (name, text) :=
      match splitEquals arg with
      | some (name, text) => (name, some text)
      | none => (arg, none)
    (spellings.filter fun s => s.1.startsWith name).map fun s => (s.2, text)
  else
    (spellings.filter fun s =>
      s.1 = String.ofList (arg.toList.take 2) || s.1.startsWith arg).map fun s =>
        if s.1 = String.ofList (arg.toList.take 2) then
          (s.2, some (String.ofList (arg.toList.drop 2)))
        else (s.2, none)

/-- Sort an argument that precedes every separator; one that may be short for several is refused. -/
def classify (arg : String) : Option Token :=
  if !arg.startsWith "-" then some (.value arg)
  else
    match spellings.lookup arg with
    | some flag => some (.known flag none)
    | none =>
      if arg.length = 1 then some (.value arg)
      else
        match (splitEquals arg).bind fun p => (spellings.lookup p.1).map (·, p.2) with
        | some (flag, text) => some (.known flag (some text))
        | none =>
          match candidates arg with
          | _ :: _ :: _ => none
          | [(flag, text)] => some (.known flag text)
          | [] =>
            if isNegativeNumber arg || arg.toList.contains ' ' then some (.value arg)
            else some .unknown

/-- Sort all arguments; behind a separator everything is a value. -/
def classifyAll : List String → Option (List Token)
  | [] => some []
  | arg :: rest =>
    if arg = "--" then some (.separator :: rest.map .value)
    else do
      let token ← classify arg
      let more ← classifyAll rest
      return token :: more

def readInt (text : String) : Option Int :=
  (Number.readInt text).toOption

def setValue (o : Options) (flag : Flag) (text : String) : Option Options :=
  match flag with
  | .config => some { o with config := some (Path.normalize text) }
  | .cycles => (readInt text).map fun n => { o with cycles := some n }
  | .sampleRate => (readInt text).map fun n => { o with sampleRate := some n }
  | .bufferSize => (readInt text).map fun n => { o with bufferSize := some n }
  | .output => some { o with output := some (Path.normalize text) }
  | .sink => some { o with sink := some text }
  | .logLevel =>
    let level := Text.upper text
    if logLevels.contains level then some { o with logLevel := level } else none
  | .help | .listBlocks | .trace => none

def setSwitch (o : Options) : Flag → Option Options
  | .help => some { o with help := true }
  | .listBlocks => some { o with listBlocks := true }
  | .trace => some { o with trace := true }
  | _ => none

/-- Take the tokens from left to right; leftovers are only refused at the end. -/
def takeTokens (o : Options) (leftovers : Bool) : List Token → Option Options
  | [] => if leftovers then none else some o
  | .value _ :: rest => takeTokens o true rest
  | .separator :: rest => takeTokens o true rest
  | .unknown :: rest => takeTokens o true rest
  | .known flag (some text) :: rest =>
    match setValue o flag text with
    | none => none
    | some o => takeTokens o leftovers rest
  | .known flag none :: rest =>
    if flag.takesValue then
      match rest with
      | .value text :: rest =>
        match setValue o flag text with
        | none => none
        | some o => takeTokens o leftovers rest
      | _ => none
    else
      match setSwitch o flag with
      | none => none
      | some o => if o.help then some o else takeTokens o leftovers rest

/-- The options of a command line, if it is understood. -/
def parse (args : List String) : Option Options := do
  let tokens ← classifyAll args
  takeTokens {} false tokens

end CommandLine

end Flowgraph
