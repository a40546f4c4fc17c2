import Flowgraph.Audio.SoundFile
import Flowgraph.Block.Transfer
import Flowgraph.Oscillator

/-!
# Generator blocks
-/

namespace Flowgraph

namespace Block

/--
The waveform of an oscillator: a fixed one, or the one that its parameters
name.  Every name but one means cosine.
-/
def waveOf (fixedWave : Option Waveform) (params : Params) : Except Fault Waveform :=
  match fixedWave with
  | some wave => .ok wave
  | none =>
    (params.getD "signalType" (.text "sine")).toText.map fun name =>
      if name = "sine" then .sine else .cosine

def toneRequest (ctx : Context) : Except Fault (Float × Float) := do
  let frequency ← (ctx.params.getD "frequency" (.float 1000)).toFloat
  let amplitude ← (ctx.params.getD "amplitude" (.float 1)).toFloat
  return (frequency, amplitude)

/--
One buffer of an oscillation from the carried phase on.  An unset phase is
first set to `start`, and stays so if the rest fails.
-/
def oscillatorStep (memory : Memory) (wave : Except Fault Waveform) (frequency amplitude : Float)
    (rate size : Value) (start : Except Fault Float) (phase : Option Float) :
    Option Float × Except Fault (List Float) :=
  let started : Except Fault Float :=
    match phase with
    | some phase => .ok phase
    | none => start
  match started with
  | .error fault => (phase, .error fault)
  | .ok phase =>
    match wave.bind fun wave =>
        Tone.generate memory wave (.float frequency) (.float amplitude) rate size (.float phase) with
    | .error fault => (some phase, .error fault)
    | .ok output =>
      match Tone.advancePhase (.float phase) (.float frequency) rate size with
      | .error fault => (some phase, .error fault)
      | .ok after => (some after, .ok output)

def oscillatorRecord? : Record → Option (Option Float)
  | .oscillator phase => some phase
  | _ => none

/--
Oscillators, of a fixed waveform or of the waveform their parameters name; the
phase they start from may be a parameter.
-/
def oscillator (fixedWave : Option Waveform) (startParam : Bool) : Transfer := fun ctx record =>
  match toneRequest ctx with
  | .error fault => (record, .error fault)
  | .ok (frequency, amplitude) =>
    let start : Except Fault Float :=
      if startParam then (ctx.params.getD "phase" (.float 0)).toFloat else .ok 0
    let wave := waveOf fixedWave ctx.params
    let (record, result) := onRecord oscillatorRecord? .oscillator "phase" record
      (oscillatorStep ctx.machine.memory wave frequency amplitude ctx.rate ctx.size start)
    (record, result.map line)

def chosenMedium (ctx : Context) : Except Fault (Option Audio.Medium) :=
  match ctx.params.get "source" with
  | .null =>
    let data := (ctx.params.get "audioData").entries?.getD []
    match data.get "samples" with
    | .null =>
      let path := ctx.params.get "path"
      if path.isGiven then do
        let path ← Path.ofValue path
        let recording ← Audio.openFile ctx.machine (.int Audio.maxFileSize) path
        return some (.source recording.source)
      else .ok none
    | samples => do
      let rate ← (data.getD "sampleRate" ctx.rate).toInt
      let source ← Audio.Source.ofValues samples (.int rate) ""
      return some (.source source)
  | other => .ok (some (.other other))

/-- Play a source into a buffer that has one axis; an empty source leaves any buffer silent. -/
def playSource (loop : Bool) (size : Value) (silence : Signal) (source : Audio.Source)
    (offset : Nat) : Nat × Except Fault Signal :=
  if source.samples.isEmpty then (offset, .ok silence)
  else
    match size with
    | .int n =>
      let (output, offset) := Audio.Playback.fill source.samples loop offset n.toNat
      (offset, .ok (line output))
    | v => (offset, .error (.incomparable "<" "int" v.kind))

def playMedium (memory : Memory) (loop : Bool) (size : Value) (p : Audio.Playback) :
    Audio.Playback × Except Fault Signal :=
  match Signal.silence memory size with
  | .error fault => (p, .error fault)
  | .ok silence =>
    match p.medium with
    | none => (p, .ok silence)
    | some (.other v) => (p, .error (.noAttribute v.kind "frame_count"))
    | some (.source source) =>
      let (offset, result) := playSource loop size silence source p.offset
      (⟨offset, p.medium⟩, result)

/-- One buffer of playback; the first buffer chooses the medium. -/
def playbackStep (ctx : Context) (p : Audio.Playback) :
    Audio.Playback × Except Fault Signal :=
  let chosen : Except Fault (Option Audio.Medium) :=
    match p.medium with
    | some medium => .ok (some medium)
    | none => chosenMedium ctx
  match chosen with
  | .error fault => (p, .error fault)
  | .ok medium =>
    playMedium ctx.machine.memory (ctx.params.getD "loop" (.bool false)).isGiven ctx.size
      ⟨p.offset, medium⟩

def playbackRecord? : Record → Option Audio.Playback
  | .playback p => some p
  | _ => none

def audioFile : Transfer := fun ctx record =>
  onRecord playbackRecord? .playback "source" record (playbackStep ctx)

end Block

end Flowgraph
