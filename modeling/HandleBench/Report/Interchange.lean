import HandleBench.Json.Number
import HandleBench.Json.Reader
import HandleBench.Json.Writer
import HandleBench.Report
import HandleBench.Text.Utf8

/-!
# Reports in the interchange format

A report is written as one object with an object for each group of facts. Facts that are not known
are left out, and so is an empty description. Reading takes the members in any order, ignores those
it does not know (though not among the settings of the run) and refuses a text in which a fact is
missing, repeated or of the wrong kind. It is told what a written number is `worth`, of which the
grammar says nothing.
-/

namespace HandleBench

/-! ### Writing -/

/-- A member whose value may not be known. -/
def Json.optionalMember {α : Type} (name : String) (write : α → Json) :
    Option α → List (String × Json)
  | none => []
  | some value => [(name, write value)]

open Json (ofBinary64 ofNat ofString ofMembers optionalMember)

namespace RunSettings

/-- The names of the members of settings. -/
def names : List String :=
  ["descriptor", "default_set", "warmup_iterations", "measured_iterations", "seed"]

/-- The members of settings. -/
def members (s : RunSettings) : List (String × Json) := [
  ("descriptor", ofNat s.descriptor.toNat), ("default_set", ofNat s.defaultSet.toNat),
  ("warmup_iterations", ofNat s.warmups.toNat), ("measured_iterations", ofNat s.measured.toNat),
  ("seed", ofNat s.seed.toNat)]

/-- The settings of a run as an object. -/
def toJson (s : RunSettings) : Json := ofMembers s.members

end RunSettings

namespace Timing

/-- The names of the members of times. -/
def names : List String :=
  ["iterations", "mean_ms", "median_ms", "stddev_ms", "min_ms", "max_ms", "p95_ms"]

/-- The members of times. -/
def members (t : Timing) : List (String × Json) :=
  [("iterations", ofNat t.iterations.toNat), ("mean_ms", ofBinary64 t.mean)] ++
  optionalMember "median_ms" ofBinary64 t.median ++
  optionalMember "stddev_ms" ofBinary64 t.deviation ++
  [("min_ms", ofBinary64 t.least), ("max_ms", ofBinary64 t.greatest)] ++
  optionalMember "p95_ms" ofBinary64 t.percentile95

/-- Times as an object. -/
def toJson (t : Timing) : Json := ofMembers t.members

end Timing

namespace Verification

/-- The names of the members of an outcome. -/
def names : List String := ["passed", "result_samples", "max_abs_error"]

/-- The members of an outcome. -/
def members (v : Verification) : List (String × Json) := [
  ("passed", .bool v.passed), ("result_samples", ofNat v.samples.toNat),
  ("max_abs_error", ofBinary64 v.maxError)]

/-- The outcome of a comparison as an object. -/
def toJson (v : Verification) : Json := ofMembers v.members

end Verification

namespace HostInfo

/-- The names of the members of a host. -/
def names : List String := ["cpu_model", "cpu_cores", "total_ram_bytes", "os", "arch", "hostname"]

/-- The members of a host. -/
def members (h : HostInfo) : List (String × Json) :=
  optionalMember "cpu_model" ofString h.processor ++
  optionalMember "cpu_cores" (fun n => ofNat n.toNat) h.cores ++
  optionalMember "total_ram_bytes" (fun n => ofNat n.toNat) h.memory ++
  [("os", ofString h.system), ("arch", ofString h.architecture)] ++
  optionalMember "hostname" ofString h.name

/-- A host as an object. -/
def toJson (h : HostInfo) : Json := ofMembers h.members

end HostInfo

namespace NamedValues

/-- Named values as an object. -/
def toJson (v : NamedValues) : Json := ofMembers (v.rows.map fun row => (row.1, ofNat row.2.toNat))

end NamedValues

namespace Report

/-- The names of the members of a backend. -/
def backendNames : List String := ["name", "version"]

/-- The members of a backend. -/
def backendMembers (r : Report) : List (String × Json) :=
  ("name", ofString r.backendName) :: optionalMember "version" ofString r.backendVersion

/-- The names of the members of a report. -/
def names : List String :=
  ["schema_version", "timestamp", "backend", "workload", "category", "scheme", "security",
    "description", "workload_params", "config", "operate", "verification", "env"]

/-- The members of a report. -/
def members (r : Report) : List (String × Json) :=
  [("schema_version", ofNat r.layoutVersion.toNat), ("timestamp", ofString r.timestamp),
    ("backend", ofMembers r.backendMembers),
    ("workload", ofString r.workload), ("category", ofString r.category),
    ("scheme", ofString r.scheme), ("security", ofString r.security)] ++
  (if r.description = "" then [] else [("description", ofString r.description)]) ++
  [("workload_params", r.params.toJson), ("config", r.settings.toJson),
    ("operate", r.timing.toJson), ("verification", r.verification.toJson),
    ("env", r.host.toJson)]

/-- A report as an object. -/
def toJson (r : Report) : Json := ofMembers r.members

/-- A report as a text. -/
def write (r : Report) : String := r.toJson.write

end Report

/-! ### Reading -/

section Reading

variable (worth : Decimal.Parts → Option Binary64)

namespace RunSettings

/-- The settings of a record. What is left out keeps its standard. -/
def ofRecord? (r : Json.Record) : Option RunSettings := do
  return {
    descriptor := ← r.defaulted "descriptor" standard.descriptor Json.word64?
    defaultSet := ← r.defaulted "default_set" standard.defaultSet Json.word64?
    warmups := ← r.defaulted "warmup_iterations" standard.warmups Json.word32?
    measured := ← r.defaulted "measured_iterations" standard.measured Json.word32?
    seed := ← r.defaulted "seed" standard.seed Json.word64? }

/-- The settings of a run, with nothing else among them. -/
def ofJson? (value : Json) : Option RunSettings := value.record? names true >>= ofRecord?

end RunSettings

namespace Timing

/-- The times of a record. -/
def ofRecord? (r : Json.Record) : Option Timing := do
  return {
    iterations := ← r.required "iterations" Json.word32?
    mean := ← r.required "mean_ms" (Json.binary64? worth)
    median := ← r.optional "median_ms" (Json.binary64? worth)
    deviation := ← r.optional "stddev_ms" (Json.binary64? worth)
    least := ← r.required "min_ms" (Json.binary64? worth)
    greatest := ← r.required "max_ms" (Json.binary64? worth)
    percentile95 := ← r.optional "p95_ms" (Json.binary64? worth) }

/-- Times. -/
def ofJson? (value : Json) : Option Timing := value.record? names false >>= ofRecord? worth

end Timing

namespace Verification

/-- The outcome of a record. -/
def ofRecord? (r : Json.Record) : Option Verification := do
  return {
    passed := ← r.required "passed" Json.bool?
    samples := ← r.required "result_samples" Json.word64?
    maxError := ← r.required "max_abs_error" (Json.binary64? worth) }

/-- The outcome of a comparison. -/
def ofJson? (value : Json) : Option Verification := value.record? names false >>= ofRecord? worth

end Verification

namespace HostInfo

/-- The host of a record. -/
def ofRecord? (r : Json.Record) : Option HostInfo := do
  return {
    processor := ← r.optional "cpu_model" Json.string?
    cores := ← r.optional "cpu_cores" Json.word32?
    memory := ← r.optional "total_ram_bytes" Json.word64?
    system := ← r.required "os" Json.string?
    architecture := ← r.required "arch" Json.string?
    name := ← r.optional "hostname" Json.string? }

/-- A host. -/
def ofJson? (value : Json) : Option HostInfo := value.record? names false >>= ofRecord?

end HostInfo

namespace NamedValues

/-- Named values. Of a repeated name the last value stays. -/
def ofJson? : Json → Option NamedValues
  | .object members => do
    let rows ← members.mapM fun (name, value) => return (← name, ← value.word64?)
    return ofList rows
  | _ => none

end NamedValues

namespace Report

/-- The name and the version of a backend. -/
def backendOfJson? (value : Json) : Option (String × Option String) := do
  let r ← value.record? backendNames false
  return (← r.required "name" Json.string?, ← r.optional "version" Json.string?)

/-- The report of a record. -/
def ofRecord? (r : Json.Record) : Option Report := do
  let (backendName, backendVersion) ← r.required "backend" backendOfJson?
  return {
    layoutVersion := ← r.required "schema_version" Json.word32?
    timestamp := ← r.required "timestamp" Json.string?
    backendName, backendVersion
    workload := ← r.required "workload" Json.string?
    category := ← r.required "category" Json.string?
    scheme := ← r.required "scheme" Json.string?
    security := ← r.required "security" Json.string?
    description := ← r.defaulted "description" "" Json.string?
    params := ← r.required "workload_params" NamedValues.ofJson?
    settings := ← r.required "config" RunSettings.ofJson?
    timing := ← r.required "operate" (Timing.ofJson? worth)
    verification := ← r.required "verification" (Verification.ofJson? worth)
    host := ← r.required "env" HostInfo.ofJson? }

/-- A report. -/
def ofJson? (value : Json) : Option Report := value.record? names false >>= ofRecord? worth

/-- The report in a text. -/
def readBy (text : String) : Except Failure Report :=
  match Json.read? text >>= ofJson? worth with
  | some report => .ok report
  | none => .error .reportRefused

/-- The report in a file: its octets, or nothing if it cannot be read. A file that is no text counts
as unreadable. -/
def ofFileBy (path : String) (octets : Option Octets) : Except Failure Report :=
  match octets.map Text.Utf8.decode with
  | some (.ok text) => readBy worth text
  | _ => .error (.reportUnreadable path)

end Report

end Reading

namespace Report

/-- The report in a text, its numbers worth what they usually are. -/
def read : String → Except Failure Report := readBy Decimal.Parts.binary64?

/-- The report in a file, its numbers worth what they usually are. -/
def ofFile : String → Option Octets → Except Failure Report := ofFileBy Decimal.Parts.binary64?

/-- Equality of reports, numbers compared by what they are worth. -/
def same (a b : Report) : Bool :=
  let sameOption : Option Binary64 → Option Binary64 → Bool
    | none, none => true
    | some x, some y => x.sameNumber y
    | _, _ => false
  let sameTiming (s t : Timing) : Bool :=
    s.iterations == t.iterations && s.mean.sameNumber t.mean && sameOption s.median t.median &&
      sameOption s.deviation t.deviation && s.least.sameNumber t.least &&
      s.greatest.sameNumber t.greatest && sameOption s.percentile95 t.percentile95
  let sameVerification (v w : Verification) : Bool :=
    v.passed == w.passed && v.samples == w.samples && v.maxError.sameNumber w.maxError
  sameTiming a.timing b.timing && sameVerification a.verification b.verification &&
    { a with timing := b.timing, verification := b.verification } == b

end Report

end HandleBench
