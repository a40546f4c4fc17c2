import Flowgraph.Block.Analyzing
import Flowgraph.Block.Combining
import Flowgraph.Block.Filtering
import Flowgraph.Block.Generating
import Flowgraph.Catalog.Registry

/-!
# Built-in block types
-/

namespace Flowgraph

namespace Catalog

namespace Builtin

open Block

def numeric (name label : String) (default minimum maximum step : Value) : Hint :=
  .field { name, label, default, minimum, maximum, step }

def choice (name label : String) (default : Value) (options : List Value) : Hint :=
  .field { name, label, kind := "select", default, options }

def switch (name label : String) : Hint :=
  .field { name, label, kind := "checkbox", default := .bool false }

def order (label : String) : Hint :=
  numeric "order" label (.int 64) (.int 1) (.int Validator.maxOrder) (.int 1)

def cutoff (name label : String) (default : Int) : Hint :=
  numeric name label (.int default) (.int 1) (.int 24000) (.int 10)

def frequency : Hint :=
  numeric "frequency" "Frequency (Hz)" (.int 1000) (.int 1) (.int 20000) (.int 10)

def amplitude : Hint :=
  numeric "amplitude" "Amplitude" (.float 1.0) (.float 0.1) (.int 10) (.float 0.1)

def phase : Hint :=
  numeric "phase" "Phase (rad)" (.int 0) (.int 0) (.float 6.28) (.float 0.01)

def realToReal : Signals := .declared ⟨some .real, some .real⟩

def realToComplex : Signals := .declared ⟨some .real, some .complex⟩

def complexToReal : Signals := .declared ⟨some .complex, some .real⟩

def noneToReal : Signals := .declared ⟨none, some .real⟩

def starts (record : Record) : Option (Handler (Option Record)) :=
  some (.function (some record))

def checks (validator : Validator) : Option (Handler Validator) :=
  some (.function validator)

def phasedDefaults : Params :=
  [("frequency", .int 1000), ("amplitude", .float 1.0), ("phase", .int 0)]

def filters : List Descriptor := [
  { id := "FIR_FILTER", name := "FIR Filter", icon := "filter_alt", group := "filters"
    signals := realToReal, description := "FIR filter (lowpass or highpass)", groupOrder := 0
    defaults := [("order", .int 64), ("cutoff", .int 1000), ("filterType", .text "lowpass")]
    hints := [order "Filter order", cutoff "cutoff" "Cutoff frequency (Hz)" 1000,
      choice "filterType" "Filter type" (.text "lowpass") [.text "lowpass", .text "highpass"]]
    validate := checks Validator.fir, newRecord := starts (.filter .fresh)
    process := fir none },
  { id := "BANDPASS_FIR", name := "Bandpass FIR", icon := "tune", group := "filters"
    signals := realToReal, description := "Bandpass FIR filter", groupOrder := 1
    defaults := [("order", .int 64), ("lowCutoff", .int 1000), ("highCutoff", .int 3000)]
    hints := [order "Filter order", cutoff "lowCutoff" "Lower cutoff (Hz)" 1000,
      cutoff "highCutoff" "Upper cutoff (Hz)" 3000]
    validate := checks Validator.bandpass, newRecord := starts (.bandpass .fresh .fresh)
    process := bandpass },
  { id := "HIGHPASS_FIR", name := "Highpass FIR", icon := "trending_up", group := "filters"
    signals := realToReal, description := "Highpass FIR filter", groupOrder := 2
    defaults := [("order", .int 64), ("cutoff", .int 1000)]
    hints := [order "Filter order", cutoff "cutoff" "Cutoff frequency (Hz)" 1000]
    validate := checks Validator.fir, newRecord := starts (.filter .fresh)
    process := fir (some "highpass") },
  { id := "LOWPASS_FIR", name := "Lowpass FIR", icon := "trending_down", group := "filters"
    signals := realToReal, description := "Lowpass FIR filter", groupOrder := 3
    defaults := [("order", .int 64), ("cutoff", .int 1000)]
    hints := [order "Filter order", cutoff "cutoff" "Cutoff frequency (Hz)" 1000]
    validate := checks Validator.fir, newRecord := starts (.filter .fresh)
    process := fir (some "lowpass") },
  { id := "HILBERT_TRANSFORMER", name := "Hilbert Transformer", icon := "transform"
    group := "filters", signals := realToComplex
    description := "Hilbert transformer producing an analytic signal", groupOrder := 4
    defaults := [("order", .int 64)]
    hints := [order "Transformer order"]
    validate := checks Validator.transformer, newRecord := starts (.filter .fresh)
    process := transformer },
  { id := "GOERTZEL_FILTER", name := "Goertzel Filter", icon := "psychology", group := "filters"
    signals := realToReal, description := "Single-bin Goertzel detector", groupOrder := 5
    defaults := [("targetFrequency", .int 1000), ("N", .int 256)]
    hints := [cutoff "targetFrequency" "Target frequency (Hz)" 1000,
      numeric "N" "Block size (N)" (.int 256) (.int 16) (.int 4096) (.int 16)]
    validate := checks Validator.goertzel
    process := goertzel }]

def generators : List Descriptor := [
  { id := "AUDIO_FILE", name := "Audio File", icon := "audio_file", group := "generators"
    signals := noneToReal, description := "Plays back a decoded audio file", groupOrder := 0
    defaults := [("path", .text ""), ("loop", .bool false), ("source", .null)]
    hints := [switch "loop" "Loop playback"]
    validate := checks Validator.audioFile, newRecord := starts (.playback .fresh)
    process := audioFile },
  { id := "INPUT_SIGNAL", name := "Input Signal", icon := "network_ping", group := "generators"
    signals := noneToReal, description := "Sine or cosine test signal", groupOrder := 1
    defaults := [("frequency", .int 1000), ("amplitude", .float 1.0),
      ("signalType", .text "sine")]
    hints := [frequency, amplitude,
      choice "signalType" "Signal type" (.text "sine") [.text "sine", .text "cosine"]]
    validate := checks Validator.inputSignal, newRecord := starts (.oscillator none)
    process := oscillator none false },
  { id := "SINE_GEN", name := "Sine Generator", icon := "waves", group := "generators"
    signals := noneToReal, description := "Sine wave generator", groupOrder := 2
    defaults := phasedDefaults
    hints := [frequency, amplitude, phase]
    validate := checks Validator.generator, newRecord := starts (.oscillator none)
    process := oscillator (some .sine) true },
  { id := "REF_COSINE_GEN", name := "Cosine Generator", icon := "graphic_eq"
    group := "generators", signals := noneToReal, description := "Reference cosine generator"
    groupOrder := 3
    defaults := phasedDefaults
    hints := [frequency, amplitude, phase]
    validate := checks Validator.generator, newRecord := starts (.oscillator none)
    process := oscillator (some .cosine) true }]

def display (id name icon group description : String) (signals : Signals) (groupOrder : Int)
    (defaults : Params) (visualization : String) : Descriptor :=
  { id, name, icon, group, signals, description, groupOrder, defaults
    visualization := .text visualization
    process := passFirst }

def analyzers : List Descriptor := [
  { id := "SLIDING_FFT", name := "Sliding FFT", icon := "show_chart", group := "fft-blocks"
    signals := .declared ⟨some .real, none⟩
    description := "Overlapping windowed FFT frames for waterfall displays", groupOrder := 0
    defaults := [("windowSize", .int 1024), ("overlap", .int 512), ("fftSize", .int 1024)]
    hints := [numeric "windowSize" "Window size" (.int 1024) (.int 64) (.int 8192) (.int 64),
      numeric "overlap" "Overlap (samples)" (.int 512) (.int 0) (.int 8191) (.int 64),
      numeric "fftSize" "FFT size" (.int 1024) (.int 64) (.int Validator.largestTransform)
        (.int 64)]
    validate := checks Validator.slidingTransform, visualization := .text "waterfall"
    process := slidingTransform },
  { id := "FFT", name := "FFT", icon := "multiline_chart", group := "fft-blocks"
    signals := realToComplex, description := "FFT (power-of-two size)", groupOrder := 1
    defaults := [("fftSize", .int 1024)]
    hints := [choice "fftSize" "FFT size" (.int 1024)
      ([256, 512, 1024, 2048, 4096, 8192, 16384].map .int)]
    validate := checks Validator.transform
    process := transform },
  display "SPECTRUM_ANALYZER" "Spectrum Analyzer" "analytics" "fft-blocks"
    "Spectrum analysis display" realToReal 2
    [("fftSize", .int 2048), ("dBScale", .bool true), ("averaging", .int 5)] "spectrum",
  { id := "PHASE_DETECTOR", name := "Phase Detector", icon := "speed", group := "detectors"
    signals := complexToReal, description := "Phase error against a reference oscillator"
    groupOrder := 0
    defaults := [("referenceFrequency", .int 1000)]
    hints := [cutoff "referenceFrequency" "Reference frequency (Hz)" 1000]
    validate := checks Validator.phaseDetector, newRecord := starts (.phaseReference 0)
    process := phaseDetector },
  { id := "FREQUENCY_DETECTOR", name := "Frequency Detector", icon := "timeline"
    group := "detectors", signals := complexToReal
    description := "Instantaneous frequency detector", groupOrder := 1
    process := frequencyDetector }]

def arithmetic : List Descriptor := [
  { id := "INTEGRATOR", name := "Integrator", icon := "functions", group := "math-blocks"
    signals := realToReal, description := "Running-sum integrator", groupOrder := 0
    defaults := [("resetOnOverflow", .bool false), ("maxValue", .int 1000)]
    hints := [switch "resetOnOverflow" "Reset on overflow",
      numeric "maxValue" "Overflow limit" (.int 1000) (.int 0) .null .null]
    validate := checks Validator.integrator, newRecord := starts (.integrator 0)
    process := integrator },
  { id := "SUMMER", name := "Summer", icon := "add", group := "math-blocks"
    signals := realToReal, description := "Sum of all inputs", groupOrder := 1
    process := summer },
  { id := "MULTIPLIER", name := "Multiplier", icon := "close", group := "math-blocks"
    signals := realToReal, description := "Product of all inputs", groupOrder := 2
    process := multiplier }]

def displays : List Descriptor := [
  display "OSCILLOSCOPE" "Oscilloscope" "show_chart" "visualization"
    "Time-domain signal display" (.declared ⟨some .real, none⟩) 0
    [("timeWindow", .int 10), ("channels", .int 1)] "oscilloscope",
  display "CONSTELLATION" "Constellation" "star" "visualization"
    "IQ constellation display" (.declared ⟨some .complex, none⟩) 1
    [("symbolRate", .int 1000)] "constellation"]

/-- The built-in block types in order of registration. -/
def blocks : List Descriptor :=
  filters ++ generators ++ analyzers ++ arithmetic ++ displays

def groups : List Group := [
  ⟨"filters", "Filters", 0⟩,
  ⟨"generators", "Generators", 1⟩,
  ⟨"fft-blocks", "FFT / Analysis", 2⟩,
  ⟨"detectors", "Detectors", 3⟩,
  ⟨"math-blocks", "Math", 4⟩,
  ⟨"visualization", "Visualization", 5⟩]

end Builtin

/-- The frozen catalog of all built-in block types. -/
def builtin : Catalog where
  byId := Builtin.blocks.map fun d => (d.id, d)
  byName := Builtin.blocks.map fun d => (d.name, d)
  groups := Builtin.groups.map fun g => (g.id, g)
  frozen := true

end Catalog

end Flowgraph
