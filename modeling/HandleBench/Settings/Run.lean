import HandleBench.Failure
import HandleBench.Settings.Entries

/-!
# Run settings

What a run measures: the catalog entry, one of its default parameter sets, how many iterations are
done before and while measuring, and the seed of the operands. Settings that are left out keep
their defaults.
-/

namespace HandleBench

/-- The settings of a run. -/
structure RunSettings where
  /-- The index of the benchmark in the catalog. -/
  descriptor : UInt64
  /-- The index of the default parameter set. -/
  defaultSet : UInt64
  /-- The iterations before measuring. -/
  warmups : UInt32
  /-- The measured iterations. -/
  measured : UInt32
  /-- The seed of the operands. -/
  seed : UInt64
  deriving DecidableEq, Repr

namespace RunSettings

/-- The settings of a run for which nothing is said. -/
def standard : RunSettings := ⟨0, 0, 1, 5, 1⟩

instance : Inhabited RunSettings := ⟨standard⟩

/-- The integer as a 64-bit word. -/
def word64? (n : Int) : Option UInt64 :=
  if 0 ≤ n ∧ n.toNat < UInt64.size then some (.ofNat n.toNat) else none

/-- The integer as a 32-bit word. -/
def word32? (n : Int) : Option UInt32 :=
  if 0 ≤ n ∧ n.toNat < UInt32.size then some (.ofNat n.toNat) else none

/-- The settings with the named one changed, if there is one of the name and the value fits. -/
def change (s : RunSettings) (name : String) (n : Int) : Option RunSettings :=
  match name with
  | "descriptor" => (word64? n).map fun v => { s with descriptor := v }
  | "default_set" => (word64? n).map fun v => { s with defaultSet := v }
  | "warmup_iterations" => (word32? n).map fun v => { s with warmups := v }
  | "measured_iterations" => (word32? n).map fun v => { s with measured := v }
  | "seed" => (word64? n).map fun v => { s with seed := v }
  | _ => none

/-- The settings with one more entry, if the entry is one of theirs. -/
def add (s : RunSettings) : String × Settings.Value → Option RunSettings
  | (name, .integer n) => s.change name n
  | (_, .text _) => none

/-- The settings of a list of entries, each with a key of its own. -/
def ofEntries (found : List (String × Settings.Value)) : Option RunSettings :=
  if Settings.distinctKeys found then found.foldlM add standard else none

/-- The settings in the text of a file. -/
def ofText (text : String) : Except Failure RunSettings :=
  match Settings.entries text >>= ofEntries with
  | some settings => .ok settings
  | none => .error .settingsRefused

/-- The settings in a file: its octets, or nothing if it cannot be read. A file that is no text
counts as unreadable. -/
def ofFile (path : String) (octets : Option Octets) : Except Failure RunSettings :=
  match octets.map Text.Utf8.decode with
  | some (.ok text) => ofText text
  | _ => .error (.runSettingsUnreadable path)

end RunSettings

end HandleBench
