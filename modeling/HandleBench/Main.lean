import HandleBench.Program
import Std.Time.Format

/-!
# The executable

Reads the files that the command line names, takes the times, and does what the program decides.
-/

namespace HandleBench

open CommandLine

/-- The number of an error and what it is called, as far as they are known. -/
def detailsOf : IO.Error → Option (UInt32 × String)
  | .noFileOrDirectory _ code details | .interrupted _ code details
  | .alreadyExists _ code details | .invalidArgument _ code details
  | .permissionDenied _ code details | .resourceExhausted _ code details
  | .inappropriateType _ code details | .noSuchThing _ code details
  | .otherError code details | .resourceBusy code details | .resourceVanished code details
  | .unsupportedOperation code details | .hardwareFault code details
  | .unsatisfiedConstraints code details | .illegalOperation code details
  | .protocolError code details | .timeExpired code details => some (code, details)
  | _ => none

/-- Why a file cannot be read, in the words of the operating system. Numbers of errors count
downwards from zero for some calls. -/
def reasonOf (error : IO.Error) : String :=
  match detailsOf error with
  | none => toString error
  | some (code, details) =>
    let number := if code < 0x80000000 then code else 0 - code
    match FileFault.all.find? (·.number == number) with
    | some fault => fault.message
    | none => s!"{details.capitalize} (os error {number})"

/-- The octets of a file, or why it cannot be read. -/
def readOctets (path : String) : IO (Except String Octets) := do
  try return .ok (← IO.FS.readBinFile path).toList
  catch error => return .error (reasonOf error)

/-- The files that an invocation names. -/
def filesOf (i : Invocation) : IO Program.Files := do
  let config := match i.request with
    | .run options => options.config
    | _ => none
  let mut known : List (String × Except String Octets) := []
  for path in [i.engineConfig, config].filterMap id do
    known := (path, ← readOctets path) :: known
  let found := known
  return fun path => (found.lookup path).getD (.error "not read")

/-- The durations of all iterations, in milliseconds. -/
def timesOf (files : Program.Files) (i : Invocation) : IO (Array Binary64) := do
  match Program.timedStep? files i with
  | none => return #[]
  | some (settings, step, world) =>
    let mut times := #[]
    for _ in [0:settings.warmups.toNat + settings.measured.toNat] do
      let start ← IO.monoNanosNow
      match step world with
      | (.ok _, _) =>
        let stop ← IO.monoNanosNow
        times := times.push (.ofFloat ((stop - start).toFloat / 1000000))
      | _ => return times
    return times

/-- The host, as far as it is known. -/
def thisHost : IO HostInfo := do
  let name ← try pure (some (← IO.FS.readFile "/etc/hostname").trimAscii.toString)
    catch _ => pure none
  return ⟨none, none, none, "linux", "x86_64", name⟩

/-- The present time in universal time. -/
def timestamp : IO String := do
  let now ← Std.Time.Timestamp.now
  let utc := Std.Time.DateTime.ofTimestampWithZone now .UTC
  return utc.format "uuuu-MM-dd'T'HH:mm:ss.SSSSSSSSS'Z'"

/-- Saves a text in a file, after making the directory for it. -/
def save (path text : String) : IO (Option Failure) := do
  let made ← match Path.directory? path with
    | none => pure none
    | some directory =>
      try
        IO.FS.createDirAll directory
        pure none
      catch _ => pure (some (.directoryNotMade directory))
  match made with
  | some failure => return some failure
  | none =>
    try
      IO.FS.writeFile path text
      return none
    catch _ => return some (.reportNotWritten path)

/-- Shows a failure. -/
def complain (failure : Failure) : IO UInt32 := do
  IO.eprintln (Program.failureText failure)
  return 1

/-- Does what the program has decided, and yields the exit code. -/
def finish (outcome : Program.Outcome) : IO UInt32 := do
  let unsaved ← match outcome.save with
    | none => pure none
    | some (path, text) => save path text
  match unsaved with
  | some failure => complain failure
  | none =>
    IO.print outcome.output
    match outcome.failure with
    | some failure => complain failure
    | none => return 0

/-- Serves one command line, and yields the exit code. -/
def serve (args : List String) : IO UInt32 := do
  match parse args with
  | .misuse =>
    IO.eprint (Program.lines (helpLines .program))
    return 2
  | .help topic =>
    IO.print (Program.lines (helpLines topic))
    return 0
  | .invocation i =>
    let files ← filesOf i
    let times ← timesOf files i
    let host ← thisHost
    let now ← timestamp
    finish (Program.outcome files (fun _ => ⟨fun n => times.getD n .zero, now, host⟩) i)

end HandleBench

/-- The program. -/
def main (args : List String) : IO UInt32 := HandleBench.serve args
