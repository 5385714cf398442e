import HandleBench.Decimal.Layout
import HandleBench.PayloadKind
import HandleBench.Tag
import HandleBench.Text.Digits
import HandleBench.Text.Utf8

/-!
# Failures

Everything that can be refused, one constructor for each cause. A failure belongs to a kind, which
fixes the code that callers outside the library see: bad arguments and bad settings leave the
caller free to try again, a critical failure does not, and a backend may choose a code of its own.
The wording of all causes is in one place.
-/

namespace HandleBench

/-- The code that an exported call returns. -/
abbrev ReturnCode := Int32

namespace ReturnCode

/-- The call succeeded. -/
def success : ReturnCode := 0

/-- The input was malformed or missing; the caller may retry with corrected input. -/
def invalidArgs : ReturnCode := 2147483646

/-- The failure is final; the caller must release its handles and stop. -/
def critical : ReturnCode := 2147483647

end ReturnCode

/-- How serious a failure is, and who is to blame. -/
inductive FailureKind where
  /-- The caller passed something unusable. -/
  | invalidArgs
  /-- Work cannot go on. -/
  | critical
  /-- A backend failed with a code of its own. -/
  | backend (code : ReturnCode)
  /-- A settings text was refused. -/
  | settings
  /-- Something outside the library went wrong. -/
  | other
  deriving DecidableEq, Repr

/-- The code of a kind of failure. -/
def FailureKind.code : FailureKind → ReturnCode
  | .invalidArgs => .invalidArgs
  | .settings => .invalidArgs
  | .critical => .critical
  | .other => .critical
  | .backend code => code

/-- Why an operation was refused. -/
inductive Failure where
  /-- A failure that a caller or a backend put into words itself. -/
  | worded (kind : FailureKind) (message : String)
  /-- A pointer argument is null. -/
  | nullArgument (name : String)
  /-- An array of host data is null but announced with elements. -/
  | nullArray (name : String) (count : UInt64)
  /-- No pack is at the position. -/
  | noPack (position : UInt64)
  /-- Fewer parameters than the workload needs. -/
  | tooFewParams (required received : Nat)
  /-- The parameter at the index is not an unsigned integer. -/
  | paramNotUnsigned (index : Nat)
  /-- The counts in a generic parameter list do not fit into a word. -/
  | arityOverflow
  /-- No parameter type has the code. -/
  | unknownParamType (code : Int32)
  /-- No member of the named enumeration has the code. -/
  | unknownMember (enumeration : String) (code : Int32)
  /-- A default set differs in size from those before it. -/
  | mixedArity (received existing : Nat)
  /-- The count of descriptor slots is not the size of the catalog. -/
  | slotCount (expected received : Nat)
  /-- No name is registered for the scheme. -/
  | schemeNotFound (id : Int32)
  /-- No name is registered for the security level. -/
  | securityNotFound (id : Int32)
  /-- As many benchmarks are live as the settings allow. -/
  | benchmarkLimit (limit : Nat)
  /-- The catalog has no entry at the index. -/
  | benchmarkIndex (index registered : Nat)
  /-- The requested version is not two numbers. -/
  | malformedVersion (requested : String)
  /-- The engine settings are not a text. -/
  | settingsNotText (defect : Text.Utf8.Defect)
  /-- The file of engine settings cannot be read. -/
  | engineSettingsUnreadable (path reason : String)
  /-- The count of elements does not fill the matrix. -/
  | matrixSize (rows cols given : Nat)
  /-- The shapes of two factors do not meet. -/
  | matrixShapes (leftRows leftCols rightRows rightCols : Nat)
  /-- A matrix dimension is zero. -/
  | zeroDimension (name : String)
  /-- A matrix would not fit into memory of 2^64 octets. -/
  | dimensionOverflow
  /-- The count of packs is not the count of operands. -/
  | packCount (expected received : Nat)
  /-- An operand has no sample, or an empty one. -/
  | emptySample
  /-- A sample has fewer octets than its matrix. -/
  | shortSample (held rows cols needed : Nat)
  /-- A selection leaves the samples of its operand. -/
  | selectionRange (start count : UInt64) (operand samples : Nat)
  /-- Fewer selections than operands. -/
  | selectionCount (expected received : Nat)
  /-- A latency benchmark takes one sample, the first. -/
  | latencySelection
  /-- The count of handles to load is not one. -/
  | handleCount (expected received : Nat)
  /-- A concrete descriptor is for another workload or category. -/
  | descriptorMismatch
  /-- There is no handle to load. -/
  | nothingToLoad
  /-- The byte carrier was told to fail in `operate`. -/
  | operateRefused
  /-- A run without measured iterations. -/
  | noMeasuredIterations
  /-- A run of another workload than a matrix product. -/
  | notMatrixProduct (title : String)
  /-- The benchmark has no default set at the index. -/
  | defaultSetNotFound (index available : Nat)
  /-- A tag carries reserved bits. -/
  | reservedTag (tag : Tag)
  /-- The tag is not that of an object. -/
  | notObject (tag : Tag)
  /-- The tag lacks some of the required bits. -/
  | missingBits (tag required : Tag)
  /-- An object handle is null. -/
  | emptyObject
  /-- The object belongs to another session. -/
  | foreignObject
  /-- The object holds a payload of another kind. -/
  | payloadKind (expected : PayloadKind)
  /-- The error code has a description already. -/
  | codeTaken (code : Int32)
  /-- The scheme has a name already. -/
  | schemeTaken (id : Int32)
  /-- The security level has a name already. -/
  | securityTaken (id : Int32)
  /-- The tag is not that of a catalog entry. -/
  | notDescriptor (tag : Tag)
  /-- The catalog entry does not exist. -/
  | descriptorNotMatched
  /-- A slot is shorter than the default set it is for. -/
  | slotTooShort (index : Nat)
  /-- The tag is not that of a benchmark. -/
  | notBenchmark (tag : Tag)
  /-- A benchmark handle is null. -/
  | emptyBenchmark
  /-- The benchmark belongs to another session. -/
  | foreignBenchmark
  /-- The tag is of no known class. -/
  | unknownTag (tag : Tag)
  /-- The workload needs parameters and got none. -/
  | noParams
  /-- Loaded data has the wrong count of operands. -/
  | componentCount (held expected : Nat)
  /-- The handle is not that of an engine. -/
  | notEngine (tag : Tag)
  /-- The slot for a new engine is null. -/
  | noEngineSlot
  /-- The slot for a descriptor is null. -/
  | noDescriptorSlot
  /-- A backend panicked inside the named call. -/
  | panicked (call message : String)
  /-- The host expects another version of the calls. -/
  | versionMismatch (major minor : Nat)
  /-- No iteration left a result. -/
  | noResult
  /-- The decoded results are not the expected ones. -/
  | resultsDiffer (maxError : Binary64)
  /-- A settings text was refused. -/
  | settingsRefused
  /-- The file of run settings cannot be read. -/
  | runSettingsUnreadable (path : String)
  /-- The file of a report cannot be read. -/
  | reportUnreadable (path : String)
  /-- The text of a report was refused. -/
  | reportRefused
  /-- The directory of a report cannot be made. -/
  | directoryNotMade (path : String)
  /-- The file of a report cannot be written. -/
  | reportNotWritten (path : String)
  deriving DecidableEq, Repr

namespace Failure

/-- The kind of a failure. -/
def kind : Failure → FailureKind
  | .worded kind _ => kind
  | .nullArgument _ | .nullArray .. | .noPack _ | .tooFewParams .. | .paramNotUnsigned _
  | .arityOverflow | .unknownParamType _ | .unknownMember .. | .mixedArity .. | .slotCount ..
  | .schemeNotFound _ | .securityNotFound _ | .benchmarkLimit _ | .benchmarkIndex ..
  | .malformedVersion _ | .settingsNotText _ | .engineSettingsUnreadable .. | .matrixSize ..
  | .matrixShapes .. | .zeroDimension _ | .dimensionOverflow | .packCount .. | .emptySample
  | .shortSample .. | .selectionRange .. | .selectionCount .. | .latencySelection
  | .handleCount .. | .descriptorMismatch | .nothingToLoad | .operateRefused
  | .noMeasuredIterations | .notMatrixProduct _ | .defaultSetNotFound .. => .invalidArgs
  | .reservedTag _ | .notObject _ | .missingBits .. | .emptyObject | .foreignObject
  | .payloadKind _ | .codeTaken _ | .schemeTaken _ | .securityTaken _ | .notDescriptor _
  | .descriptorNotMatched | .slotTooShort _ | .notBenchmark _ | .emptyBenchmark
  | .foreignBenchmark | .unknownTag _ | .noParams | .componentCount .. | .notEngine _
  | .noEngineSlot | .noDescriptorSlot | .panicked .. | .versionMismatch .. | .noResult
  | .resultsDiffer _ => .critical
  | .settingsRefused => .settings
  | .runSettingsUnreadable _ | .reportUnreadable _ | .reportRefused | .directoryNotMade _
  | .reportNotWritten _ => .other

/-- The code that callers outside the library see. -/
def code (failure : Failure) : ReturnCode := failure.kind.code

/-- The failure carries the code of critical failures. -/
def isCritical (failure : Failure) : Bool := failure.code == .critical

/-- The sentence that describes a failure. -/
def message : Failure → String
  | .worded .settings message => s!"invalid engine configuration: {message}"
  | .worded _ message => message
  | .nullArgument name => s!"invalid null pointer argument '{name}'"
  | .nullArray name count => s!"invalid null array '{name}' with {count} elements"
  | .noPack position => s!"DataPack for component {position} not found"
  | .tooFewParams required received =>
    s!"workload requires, at least, {required} parameters; {received} received"
  | .paramNotUnsigned index => s!"data type for workload parameter {index} must be UInt64"
  | .arityOverflow => "generic workload arity overflows"
  | .unknownParamType code => s!"invalid workload parameter data type {code}"
  | .unknownMember enumeration code => s!"invalid {enumeration} value {code}"
  | .mixedArity received existing =>
    s!"size of new default set of arguments ({received}) differs from existing default sets " ++
      s!"({existing})"
  | .slotCount expected received =>
    s!"invalid size parameter 'count': expected {expected}, but {received} received"
  | .schemeNotFound id => s!"scheme {id} not found"
  | .securityNotFound id => s!"security {id} not found"
  | .benchmarkLimit limit => s!"maximum number of live benchmarks reached ({limit})"
  | .benchmarkIndex index registered =>
    s!"benchmark {index} not found; {registered} registered"
  | .malformedVersion requested => s!"malformed api_version '{requested}'"
  | .settingsNotText defect => "engine config is not UTF-8: " ++ defect.message
  | .engineSettingsUnreadable path reason => s!"reading {path}: {reason}"
  | .matrixSize rows cols given =>
    s!"matrix {rows}x{cols} needs {rows * cols} elements, {given} given"
  | .matrixShapes leftRows leftCols rightRows rightCols =>
    s!"cannot multiply {leftRows}x{leftCols} by {rightRows}x{rightCols}"
  | .zeroDimension name => s!"invalid workload parameters: {name} must be non-zero"
  | .dimensionOverflow => "matrix dimensions overflow"
  | .packCount expected received =>
    s!"invalid number of parameters in parameter pack: expected {expected}, got {received}"
  | .emptySample => "invalid empty samples detected in parameter pack"
  | .shortSample held rows cols needed =>
    s!"sample holds {held} bytes; a {rows}x{cols} matrix needs {needed}"
  | .selectionRange start count operand samples =>
    s!"parameter indexer \x7b{start}, {count}\x7d out of range for operand {operand} with " ++
      s!"{samples} samples"
  | .selectionCount expected received =>
    s!"expected {expected} parameter indexers, got {received}"
  | .latencySelection => "invalid parameter indexer: expected index 0 and batch size of 1"
  | .handleCount expected received =>
    s!"invalid number of handles: expected {expected}, got {received}"
  | .descriptorMismatch => "concrete descriptor does not match this benchmark"
  | .nothingToLoad => "no local handles to load"
  | .operateRefused => "mock operate failed"
  | .noMeasuredIterations => "measured iterations must be at least 1"
  | .notMatrixProduct title => s!"the driver runs matrix multiplication only, not {title}"
  | .defaultSetNotFound index available =>
    s!"default parameter set {index} not found; {available} available"
  | .reservedTag tag =>
    "invalid tag " ++ Text.hex tag.toNat ++ ": most significant 8 bits of tags are reserved"
  | .notObject tag => "invalid tag " ++ Text.hex tag.toNat ++ ": expected an engine object"
  | .missingBits tag required =>
    "invalid tag " ++ Text.hex tag.toNat ++ ": expected bits " ++ Text.hex required.toNat
  | .emptyObject => "invalid empty object"
  | .foreignObject => "invalid handle: handle was not created by invoked engine"
  | .payloadKind expected => "handle payload is not of type " ++ expected.label
  | .codeTaken code => s!"error code {code} already specified"
  | .schemeTaken id => s!"scheme {id} already specified"
  | .securityTaken id => s!"security type {id} already specified"
  | .notDescriptor tag =>
    "invalid benchmark descriptor handle (tag " ++ Text.hex tag.toNat ++ ")"
  | .descriptorNotMatched => "invalid benchmark descriptor not matched"
  | .slotTooShort index =>
    s!"insufficient space allocated for default set of parameters: {index}"
  | .notBenchmark tag =>
    "invalid handle not matching benchmark type (tag " ++ Text.hex tag.toNat ++ ")"
  | .emptyBenchmark => "invalid empty benchmark handle"
  | .foreignBenchmark => "invalid handle: benchmark was not created by invoked engine"
  | .unknownTag tag => "invalid tag in handle: " ++ Text.hex tag.toNat
  | .noParams =>
    "invalid empty workload parameters: this workload requires flexible parameters"
  | .componentCount held expected => s!"loaded data has {held} components, expected {expected}"
  | .notEngine tag => "invalid handle not matching engine type (tag " ++ Text.hex tag.toNat ++ ")"
  | .noEngineSlot => "invalid null engine handle output"
  | .noDescriptorSlot => "invalid null benchmark descriptor output"
  | .panicked call message => s!"panic in {call}: {message}"
  | .versionMismatch major minor =>
    s!"API version mismatch: host expects {major}.{minor}, backend provides 1.0"
  | .noResult => "operate produced no result"
  | .resultsDiffer maxError =>
    "decoded results differ from the reference (max abs error " ++
      Decimal.Layout.scientific.writeAny maxError ++ ")"
  | .settingsRefused => "invalid engine configuration"
  | .runSettingsUnreadable path => s!"reading run config {path}"
  | .reportUnreadable path => s!"reading {path}"
  | .reportRefused => "parsing run report"
  | .directoryNotMade path => s!"creating {path}"
  | .reportNotWritten path => s!"writing {path}"

end Failure

end HandleBench
