import Flowgraph.Fault

/-!
# Kinds of faults

Callers that recover from a fault do so by its kind, not by its cause.
-/

namespace Flowgraph

namespace Fault

inductive Kind where
  /-- A value of the right type is out of range or malformed. -/
  | value
  /-- A value has the wrong type. -/
  | type
  | attribute
  | overflow
  | zeroDivision
  | position
  | lookup
  | nesting
  | usage
  | catalog
  | document
  | decoding
  | encoding
  | file
  | audio
  | wave
  | header
  | memory
deriving DecidableEq, Repr

def kind : Fault → Kind
  | notInteger _ | notReal _ | incomparable .. | notMultipliable _ | notIterable _
  | pairExpected _ | unhashable _ | noLength _ | lengthNotInteger _ | pathKind _
  | notCallable _ | levelKind _ => .type
  | infiniteInteger | integerTooLarge => .overflow
  | divisionByZero => .zeroDivision
  | noAttribute .. => .attribute
  | noAxis | noColumn => .position
  | missingOutput _ => .lookup
  | nestedTooDeep => .nesting
  | notCompiled => .usage
  | missingField .. | handlerNotCallable _ | nameTaken _ | idTaken _ | frozenRegister _
  | frozenGroup => .catalog
  | syntaxError .. => .document
  | malformedByte .. | malformedBytes .. => .decoding
  | loneSurrogate .. | loneSurrogates .. => .encoding
  | noSuchFile _ | isDirectory _ | notDirectory _ | nameTooLong _ => .file
  | undecodable .. => .audio
  | waveRate => .wave
  | waveHeader => .header
  | outOfMemory .. => .memory
  | unreadableInteger _ | unreadableReal _ | tooManyDigits _ | integerTooLong | undefinedInteger
  | outsideDomain | pairLength .. | ragged _ | tooManyAxes | rank _ | planes .. | negativeLength
  | shapesDiffer .. | rangeTooLong | axisTooLong | arrayTooLarge | filterOrder _ | filterRate
  | filterKind _ | degenerateFilter _ | transformerOrder _ | transformSize _ | windowSize | hopSize
  | goertzelBlock | sourceRank _ | sourceRate | blockSize | fileTooLarge .. | nullInPath | unknownSignal _
  | sampleRateNotPositive | bufferSizeNotPositive | nodeWithoutId _ | nodeWithoutType ..
  | edgeWithout .. | noNodes | cyclesNotPositive | cyclesOption | cycleCount _
  | unknownLevel _ => .value

/-- Whether a fault says that a file or what stands in it is unacceptable. -/
def isRefusal (fault : Fault) : Bool :=
  match fault.kind with
  | .value | .catalog | .document | .decoding | .encoding | .file => true
  | _ => false

end Fault

end Flowgraph
