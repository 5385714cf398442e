import HandleBench.Failure
import HandleBench.Settings.Entries
import HandleBench.Text.Blank

/-!
# Engine settings

What a host may set when it opens an engine: the version of the calls it was built against, a limit
on live benchmarks, and a filter for log lines. Every setting may be left out, an empty or blank
text leaves out all of them, and a text with any other entry is refused.
-/

namespace HandleBench

/-- The settings of an engine. -/
structure EngineSettings where
  /-- The version of the calls that the host expects, as `major.minor`. -/
  version : Option String
  /-- The greatest count of live benchmarks; without it there is no limit. -/
  maxLive : Option Nat
  /-- The filter for log lines. -/
  logFilter : Option String
  deriving DecidableEq, Repr

/-- The major version of the calls. -/
def versionMajor : UInt64 := 1

/-- The minor version of the calls. -/
def versionMinor : UInt64 := 0

/-- The revision of the calls. -/
def versionRevision : UInt64 := 0

namespace EngineSettings

/-- Nothing set. -/
def unset : EngineSettings := ⟨none, none, none⟩

instance : Inhabited EngineSettings := ⟨unset⟩

/-- The settings with one more entry, if the entry is one of theirs. -/
def add (s : EngineSettings) : String × Settings.Value → Option EngineSettings
  | ("api_version", .text version) => some { s with version := some version }
  | ("max_live_benchmarks", .integer n) =>
    if 0 ≤ n then some { s with maxLive := some n.toNat } else none
  | ("log_filter", .text filter) => some { s with logFilter := some filter }
  | _ => none

/-- The settings of a list of entries, each with a key of its own. -/
def ofEntries (found : List (String × Settings.Value)) : Option EngineSettings :=
  if Settings.distinctKeys found then found.foldlM add unset else none

/-- The text without the zero characters at its end. -/
def dropZeros (text : String) : String :=
  String.ofList (text.toList.reverse.dropWhile (· == '\x00')).reverse

/-- The settings in a text. -/
def ofText (text : String) : Except Failure EngineSettings :=
  let text := dropZeros text
  if Text.allBlank text then .ok unset
  else
    match Settings.entries text >>= ofEntries with
    | some settings => .ok settings
    | none => .error .settingsRefused

/-- The settings in a sequence of octets, which must be a text. -/
def ofOctets (octets : Octets) : Except Failure EngineSettings :=
  match Text.Utf8.decode octets with
  | .ok text => ofText text
  | .error defect => .error (.settingsNotText defect)

/-- The major and the minor version that a text asks for: the numbers before and behind its first
point, blanks at either end left out. Whatever follows a second point does not count. -/
def requested? (version : String) : Option (Nat × Nat) := do
  let numbers := (Text.splitAt '.' (Text.trimBlank version.toList)).map fun part =>
    Text.readNat? UInt64.size (String.ofList part)
  match numbers with
  | some major :: some minor :: _ => some (major, minor)
  | _ => none

/-- The settings ask for no version, or for that of the calls. -/
def checkVersion (s : EngineSettings) : Except Failure Unit :=
  match s.version with
  | none => .ok ()
  | some version =>
    match requested? version with
    | none => .error (.malformedVersion version)
    | some (major, minor) =>
      if major = versionMajor.toNat ∧ minor = versionMinor.toNat then .ok ()
      else .error (.versionMismatch major minor)

end EngineSettings

end HandleBench
