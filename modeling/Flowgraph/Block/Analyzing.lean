import Flowgraph.Block.Filtering
import Flowgraph.Detector
import Flowgraph.Oscillator
import Flowgraph.Spectrum.Sliding

/-!
# Analysis and detector blocks
-/

namespace Flowgraph

namespace Block

def transform : Transfer := stateless fun ctx => do
  let size ← ((ctx.params.get "fftSize").orElse ctx.size).toInt
  match ctx.first with
  | none => Signal.origin ctx.machine.memory (.int (size / 2 + 1))
  | some input =>
    let buffer ← realGrid input
    let samples ← buffer.line?
    let bins ← Spectrum.transform ctx.machine.memory samples (.int size)
    return pointLine bins

def slidingTransform : Transfer := stateless fun ctx =>
  match ctx.first with
  | none => .ok (.frames [])
  | some input => do
    let window ← (ctx.params.getD "windowSize" (.int 1024)).toInt
    let overlap ← (ctx.params.getD "overlap" (.int 512)).toInt
    let size ← (ctx.params.getD "fftSize" (.int 1024)).toInt
    let buffer ← realGrid input
    let frames ← Spectrum.slide ctx.machine.memory buffer (.int window) (.int (window - overlap))
      (.int size)
    return .frames frames

def pointGrid? : Signal → Option (Grid (Point Float))
  | .complex g => some g
  | _ => none

/-- Compare one buffer with the carried reference phase and advance that phase. -/
def phaseDetectorStep (points : Grid (Point Float)) (frequency : Float) (rate : Value)
    (phase : Float) : Float × Except Fault (Grid Float) :=
  match Detector.phaseErrors points (.float frequency) rate (.float phase) with
  | .error fault => (phase, .error fault)
  | .ok output =>
    match Tone.advancePhase (.float phase) (.float frequency) rate
        (.int ((points.shape.head?).getD 0)) with
    | .error fault => (phase, .error fault)
    | .ok after => (after, .ok output)

def phaseRecord? : Record → Option Float
  | .phaseReference phase => some phase
  | _ => none

def phaseDetector : Transfer := fun ctx record =>
  match ctx.first.bind pointGrid? with
  | none => (record, ctx.silence)
  | some points =>
    match (ctx.params.getD "referenceFrequency" (.float 1000)).toFloat with
    | .error fault => (record, .error fault)
    | .ok frequency =>
      let (record, result) := onRecord phaseRecord? .phaseReference "phase" record
        (phaseDetectorStep points frequency ctx.rate)
      (record, result.map .real)

def frequencyDetector : Transfer := stateless fun ctx =>
  match ctx.first.bind pointGrid? with
  | none => ctx.silence
  | some points => (Detector.frequencyTrack points ctx.rate).map line

end Block

end Flowgraph
