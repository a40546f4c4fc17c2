import Flowgraph.Text.Quoted

/-!
# Faults

Every way in which reading, compiling or running a graph can go wrong, one
constructor per cause.  The wording is in `Fault.message` alone.
-/

namespace Flowgraph

/-- Shape of a rectangular array as it is shown in messages: `(2, 3)`, `(4,)`, `()`. -/
def shapeText : List Nat → String
  | [] => "()"
  | [n] => s!"({n},)"
  | shape => "(" ++ ", ".intercalate (shape.map toString) ++ ")"

inductive Undecodable where
  /-- The first bytes are those of no known format. -/
  | unrecognised
  /-- There is no sample data behind a description of it. -/
  | noData
  | shortFormat
  | malformedFormat
  | unknownEncoding
  /-- A chunk of peaks does not belong to the format, or precedes it. -/
  | malformedPeaks
  | earlyPeaks
  | repeatedHeader
  | packed
  /-- The format describes no samples that could be stored. -/
  | inconsistent
  | incomplete
deriving DecidableEq, Repr

namespace Undecodable

def message : Undecodable → String
  | unrecognised => "Format not recognised."
  | noData => "Error in WAV file. No 'data' chunk marker."
  | shortFormat => "Error in WAV/W64/RF64 file. Short 'fmt ' chunk."
  | malformedFormat => "Error in WAV/W64/RF64 file. Malformed 'fmt ' chunk."
  | unknownEncoding => "File contains data in an unimplemented format."
  | malformedPeaks => "Error in WAV file. Bad 'PEAK' chunk."
  | earlyPeaks => "Error in WAV file. 'PEAK' chunk found before 'fmt ' chunk."
  | repeatedHeader => "Error in WAV file. No 'RIFF' chunk marker."
  | packed => "Error in WAV file. Data is in WAVPACK format."
  | inconsistent => "Unspecified internal error."
  | incomplete => "Internal error : SF_INFO struct incomplete."

end Undecodable

inductive Fault where
  -- Reading a number out of a value
  | unreadableInteger (text : String)
  | unreadableReal (text : String)
  | tooManyDigits (count : Nat)
  | integerTooLong
  | notInteger (kind : String)
  | notReal (kind : String)
  | infiniteInteger
  | undefinedInteger
  | integerTooLarge
  -- Arithmetic on values
  | incomparable (relation left right : String)
  | notMultipliable (kind : String)
  | divisionByZero
  | outsideDomain
  -- Reading a mapping or a sequence out of a value
  | noAttribute (kind name : String)
  | notIterable (kind : String)
  | pairExpected (index : Nat)
  | pairLength (index length : Nat)
  | unhashable (kind : String)
  | noLength (kind : String)
  -- Arrays
  | ragged (shape : List Nat)
  | tooManyAxes
  | rank (found : Nat)
  | noAxis
  | noColumn
  | planes (real imaginary : List Nat)
  | negativeLength
  | lengthNotInteger (kind : String)
  | shapesDiffer (left right : List Nat)
  -- Memory
  | rangeTooLong
  | axisTooLong
  | arrayTooLarge
  | outOfMemory (size : String) (shape : List Nat)
  -- Kernels
  | filterOrder (order : String)
  | filterRate
  | filterKind (kind : String)
  | degenerateFilter (cutoff : String)
  | transformerOrder (order : String)
  | transformSize (size : String)
  | windowSize
  | hopSize
  | goertzelBlock
  -- Sample sources and files
  | sourceRank (found : Nat)
  | sourceRate
  | blockSize
  | fileTooLarge (name : String) (size : Nat) (mebibytes limit : String)
  | noSuchFile (path : String)
  | isDirectory (path : String)
  | notDirectory (path : String)
  | nameTooLong (path : String)
  | nullInPath
  | pathKind (kind : String)
  | malformedByte (byte position : Nat) (reason : String)
  | malformedBytes (first last : Nat) (reason : String)
  | loneSurrogate (unit position : Nat)
  | loneSurrogates (first last : Nat)
  | undecodable (path : String) (reason : Undecodable)
  | waveRate
  | waveHeader
  -- Catalog
  | unknownSignal (text : String)
  | missingField (block field : String)
  | handlerNotCallable (block : String)
  | notCallable (kind : String)
  | nameTaken (name : String)
  | idTaken (id : String)
  | frozenRegister (label : String)
  | frozenGroup
  -- Configuration
  | syntaxError (problem : String) (line column offset : Nat)
  | nestedTooDeep
  | sampleRateNotPositive
  | bufferSizeNotPositive
  | nodeWithoutId (index : Nat)
  | nodeWithoutType (index : Nat) (id : String)
  | edgeWithout (index : Nat) (key : String)
  | noNodes
  | cyclesNotPositive
  | cyclesOption
  -- Running
  | missingOutput (node : String)
  | notCompiled
  | cycleCount (count : String)
  | unknownLevel (name : String)
  | levelKind (kind : String)
deriving DecidableEq, Repr

namespace Fault

/-- As much of an unreadable integer is shown, its quote included. -/
def shownNumeral : Nat := 200

def message : Fault → String
  | unreadableInteger text =>
    "invalid literal for int() with base 10: " ++
      String.ofList ((Text.quoted text).toList.take shownNumeral)
  | unreadableReal text => s!"could not convert string to float: {Text.quoted text}"
  | tooManyDigits count =>
    s!"Exceeds the limit (4300 digits) for integer string conversion: value has {count} digits; " ++
      "use sys.set_int_max_str_digits() to increase the limit"
  | integerTooLong =>
    "Exceeds the limit (4300 digits) for integer string conversion; " ++
      "use sys.set_int_max_str_digits() to increase the limit"
  | notInteger kind =>
    s!"int() argument must be a string, a bytes-like object or a real number, not '{kind}'"
  | notReal kind => s!"float() argument must be a string or a real number, not '{kind}'"
  | infiniteInteger => "cannot convert float infinity to integer"
  | undefinedInteger => "cannot convert float NaN to integer"
  | integerTooLarge => "int too large to convert to float"
  | incomparable relation left right =>
    s!"'{relation}' not supported between instances of '{left}' and '{right}'"
  | notMultipliable kind => s!"unsupported operand type(s) for *: 'float' and '{kind}'"
  | divisionByZero => "float division by zero"
  | outsideDomain => "math domain error"
  | noAttribute kind name => s!"'{kind}' object has no attribute '{name}'"
  | notIterable kind => s!"'{kind}' object is not iterable"
  | pairExpected index =>
    s!"cannot convert dictionary update sequence element #{index} to a sequence"
  | pairLength index length =>
    s!"dictionary update sequence element #{index} has length {length}; 2 is required"
  | unhashable kind => s!"unhashable type: '{kind}'"
  | noLength kind => s!"object of type '{kind}' has no len()"
  | ragged shape =>
    "setting an array element with a sequence. The requested array has an inhomogeneous shape " ++
      s!"after {shape.length} dimensions. The detected shape was {shapeText shape} " ++
      "+ inhomogeneous part."
  | tooManyAxes =>
    "setting an array element with a sequence. The requested array would exceed the maximum " ++
      "number of dimension of 64."
  | rank found => s!"expected a 1-D buffer, got rank {found}"
  | noAxis => "tuple index out of range"
  | noColumn => "index 0 is out of bounds for axis 1 with size 0"
  | planes real imaginary =>
    s!"real/imag planes differ in shape: {shapeText real} vs {shapeText imaginary}"
  | negativeLength => "negative dimensions are not allowed"
  | lengthNotInteger kind => s!"'{kind}' object cannot be interpreted as an integer"
  | shapesDiffer left right =>
    s!"operands could not be broadcast together with shapes {shapeText left} {shapeText right} "
  | rangeTooLong => "Maximum allowed size exceeded"
  | axisTooLong => "Maximum allowed dimension exceeded"
  | arrayTooLarge =>
    "array is too big; `arr.size * arr.dtype.itemsize` is larger than the maximum possible size."
  | outOfMemory size shape =>
    s!"Unable to allocate {size} for an array with shape {shapeText shape} " ++
      "and data type float64"
  | filterOrder order => s!"FIR order must be at least 1, got {order}"
  | filterRate => "sample rate must be positive"
  | filterKind kind => s!"unsupported FIR filter type '{kind}'"
  | degenerateFilter cutoff => s!"cutoff {cutoff} Hz yields a degenerate lowpass prototype"
  | transformerOrder order => s!"Hilbert order must be at least 1, got {order}"
  | transformSize size => s!"FFT size must be a power of two, got {size}"
  | windowSize => "window size must be positive"
  | hopSize => "hop size must be positive (overlap must be smaller than the window)"
  | goertzelBlock => "Goertzel block size must be positive"
  | sourceRank found => s!"samples must be 1-D or (frames, channels), got rank {found}"
  | sourceRate => "sample rate must be positive"
  | blockSize => "block size must be positive"
  | fileTooLarge name _ mebibytes limit =>
    s!"{name}: file too large ({mebibytes} MiB, limit {limit} MiB)"
  | noSuchFile path => s!"[Errno 2] No such file or directory: {Text.quoted path}"
  | isDirectory path => s!"[Errno 21] Is a directory: {Text.quoted path}"
  | notDirectory path => s!"[Errno 20] Not a directory: {Text.quoted path}"
  | nameTooLong path => s!"[Errno 36] File name too long: {Text.quoted path}"
  | nullInPath => "embedded null byte"
  | pathKind kind => s!"expected str, bytes or os.PathLike object, not {kind}"
  | malformedByte byte position reason =>
    let digits := String.ofList (Text.hex 2 byte)
    s!"'utf-8' codec can't decode byte 0x{digits} in position {position}: {reason}"
  | malformedBytes first last reason =>
    s!"'utf-8' codec can't decode bytes in position {first}-{last}: {reason}"
  | loneSurrogate unit position =>
    let digits := String.ofList (Text.hex 4 unit)
    s!"'utf-8' codec can't encode character '\\u{digits}' in position {position}: " ++
      "surrogates not allowed"
  | loneSurrogates first last =>
    s!"'utf-8' codec can't encode characters in position {first}-{last}: surrogates not allowed"
  | undecodable path reason => s!"Error opening {Text.quoted path}: {reason.message}"
  | waveRate => "bad frame rate"
  | waveHeader => "'L' format requires 0 <= number <= 4294967295"
  | unknownSignal text => s!"{Text.quoted text} is not a valid SignalType"
  | missingField block field => s!"Block '{block}' missing required field: {field}"
  | handlerNotCallable block => s!"Block '{block}' process handler is not callable"
  | notCallable kind => s!"'{kind}' object is not callable"
  | nameTaken name => s!"Block with name '{name}' already registered"
  | idTaken id => s!"Block with id '{id}' already registered"
  | frozenRegister label => s!"Catalog is frozen; cannot register block '{label}'"
  | frozenGroup => "Catalog is frozen"
  | syntaxError problem line column offset =>
    s!"{problem}: line {line} column {column} (char {offset})"
  | nestedTooDeep => "maximum recursion depth exceeded while decoding a JSON document"
  | sampleRateNotPositive => "sample_rate must be a positive integer"
  | bufferSizeNotPositive => "buffer_size must be a positive integer"
  | nodeWithoutId index => s!"graph.nodes[{index}] has no id"
  | nodeWithoutType index id => s!"graph.nodes[{index}] ('{id}') has no blockType"
  | edgeWithout index key => s!"graph.edges[{index}] has no {key}"
  | noNodes => "graph.nodes must contain at least one node definition"
  | cyclesNotPositive => "cycles must be a positive integer"
  | cyclesOption => "--cycles must be a positive integer"
  | missingOutput node => Text.quoted node
  | notCompiled => "graph did not compile; nothing to run"
  | cycleCount count => s!"cycles must be a positive integer, got {count}"
  | unknownLevel name => s!"unknown log level '{name}'"
  | levelKind kind => s!"Level not an integer or a valid string: {kind}"

end Fault

/-- A computation made of parts gives a result only if each part gives one. -/
theorem of_bind_eq_ok {α β : Type} {x : Except Fault α} {f : α → Except Fault β} {b : β}
    (h : x >>= f = .ok b) : ∃ a, x = .ok a ∧ f a = .ok b := by
  cases x with
  | error fault => cases h
  | ok a => exact ⟨a, rfl, h⟩

theorem of_map_eq_ok {α β : Type} {x : Except Fault α} {f : α → β} {b : β}
    (h : x.map f = .ok b) : ∃ a, x = .ok a ∧ b = f a := by
  cases x with
  | error fault => cases h
  | ok a =>
    cases h
    exact ⟨a, rfl, rfl⟩

theorem of_mapM_eq_ok {α β : Type} {f : α → Except Fault β} {P : β → Prop} {xs : List α}
    {ys : List β} (h : xs.mapM f = .ok ys) (each : ∀ x ∈ xs, ∀ y, f x = .ok y → P y) :
    ys.length = xs.length ∧ ∀ y ∈ ys, P y := by
  induction xs generalizing ys with
  | nil =>
    cases h
    simp
  | cons x rest ih =>
    rw [List.mapM_cons] at h
    obtain ⟨y, first, h⟩ := of_bind_eq_ok h
    obtain ⟨more, later, h⟩ := of_bind_eq_ok h
    cases h
    obtain ⟨count, all⟩ := ih later fun x mem => each x (List.mem_cons_of_mem _ mem)
    refine ⟨by simp [count], List.forall_mem_cons.mpr ⟨?_, all⟩⟩
    exact each x List.mem_cons_self y first

end Flowgraph
