import HandleBench.CommandLine
import HandleBench.Files.Tree
import HandleBench.Report.Interchange
import HandleBench.Report.Markdown
import HandleBench.Run

/-!
# The program

What the program answers to a request. Files are read before: a file is its octets, or the reason
why it cannot be read. The answer is a text, perhaps a report to be saved before the text is shown,
and perhaps a failure to be shown after it. What comes of an answer is also said for a file tree.
-/

namespace HandleBench.Program

open CommandLine (Invocation Request RunOptions)

/-- The files that the program can see. -/
abbrev Files := String → Except String Octets

/-- What the program does in the end. -/
structure Outcome where
  /-- A text to be saved first, with the name of its file. -/
  save : Option (String × String)
  /-- The text to be shown. -/
  output : String
  /-- What went wrong. -/
  failure : Option Failure
  deriving DecidableEq

/-- A failure and nothing else. -/
def Outcome.refused (failure : Failure) : Outcome := ⟨none, "", some failure⟩

/-- Lines, each of them ended. -/
def lines (texts : List String) : String := String.join (texts.map (· ++ "\n"))

/-- The settings of the engine. -/
def engineSettings (files : Files) : Option String → Except Failure EngineSettings
  | none => .ok .unset
  | some path =>
    match files path with
    | .ok octets => EngineSettings.ofOctets octets
    | .error reason => .error (.engineSettingsUnreadable path reason)

/-- Starts the engine of the built-in backend. -/
def startEngine (settings : EngineSettings) : Act World Engine := do
  let h ← Engine.start .matrixProduct settings
  return (← Engine.resolve h).2

/-- One line for each benchmark. -/
def listing (e : Engine) : Except Failure (List String) :=
  (List.range e.catalog.length).mapM fun i => do
    let (h, descriptor, _) ← e.describeAt i
    let scheme ← e.schemeName descriptor.scheme
    let security ← e.securityName descriptor.security
    let text ← e.text h none
    return s!"[{i}] {descriptor.workload.title} | {descriptor.category.label} | {scheme} | "
      ++ security ++ text

/-- A parameter with its value. -/
def assignment (p : Param) : String := s!"{p.nameText}={p.bits}"

/-- The lines that describe a benchmark. -/
def description (e : Engine) (index : Nat) : Except Failure (List String) := do
  let (h, descriptor, sets) ← e.describeAt index
  let setLines ← sets.zipIdx.mapM fun (set, i) => do
    let text ← e.text h (some set)
    return s!"  default set {i}: " ++ ", ".intercalate (set.map assignment) ++ text
  return [s!"{descriptor.workload.title} ({descriptor.category.label})",
    s!"  data type: {descriptor.dataType.label}",
    "  cipher mask: " ++ Text.hex descriptor.cipherMask.toNat] ++ setLines

/-- The settings of a run: those of its file, if it has one, with the options put over them. -/
def runSettings (files : Files) (o : RunOptions) : Except Failure RunSettings := do
  let base ← match o.config with
    | none => pure RunSettings.standard
    | some path => RunSettings.ofFile path (files path).toOption
  return {
    descriptor := o.descriptor.getD base.descriptor
    defaultSet := o.defaultSet.getD base.defaultSet
    warmups := o.warmups.getD base.warmups
    measured := o.measured.getD base.measured
    seed := o.seed.getD base.seed }

/-- The outcome of a run. A run whose results are wrong is reported like any other and counts as a
failure. -/
def reported (saveTo : Option String) (report : Report) : Outcome where
  save := saveTo.map fun path => (path, report.write)
  output := report.markdown ++ "\n"
  failure :=
    if report.verification.passed then none
    else some (.resultsDiffer report.verification.maxError)

/-- The outcome of a request to an engine. -/
def answer (files : Files) (around : RunSettings → Run.Surroundings) (e : Engine) :
    Request → Act World Outcome
  | .list => do
    let texts ← Act.ofExcept (listing e)
    return ⟨none, lines texts, none⟩
  | .describe index => do
    let texts ← Act.ofExcept (description e index.toNat)
    return ⟨none, lines texts, none⟩
  | .run options => do
    let settings ← Act.ofExcept (runSettings files options)
    let report ← Run.run e .matrixProduct settings (around settings)
    return reported options.report report

/-- What the program does with an invocation, told about its surroundings. -/
def outcome (files : Files) (around : RunSettings → Run.Surroundings) (i : Invocation) :
    Outcome :=
  let act : Act World Outcome := do
    let settings ← Act.ofExcept (engineSettings files i.engineConfig)
    let e ← startEngine settings
    answer files around e i.request
  match act .empty with
  | (.ok outcome, _) => outcome
  | (.error (.refused failure), _) => .refused failure
  | (.error _, _) => .refused (.worded .critical "")

/-- The step that an invocation asks to be timed and the world in which it is taken, if the
invocation gets as far as that. -/
def timedStep? (files : Files) (i : Invocation) :
    Option (RunSettings × Act World Handle × World) :=
  match i.request with
  | .run options =>
    match engineSettings files i.engineConfig, runSettings files options with
    | .ok engine, .ok settings =>
      match startEngine engine .empty with
      | (.ok e, w) =>
        (Run.timedStep? e settings w).map fun (step, w) => (settings, step, w)
      | _ => none
    | _, _ => none
  | _ => none

/-- The text that shows a failure. -/
def failureText (failure : Failure) : String :=
  "error (code " ++ Text.hex failure.code.toUInt32.toNat ++ "): " ++ failure.message

/-! ### In a file tree -/

/-- The files of a tree. -/
def filesIn (t : FileTree) : Files := fun path => (t.read path).mapError FileFault.message

/-- The tree after a text has been saved in a file. The directory of the file is made first, with
those above it. -/
def saveIn (t : FileTree) (path text : String) : Except Failure FileTree := do
  let t ← match Path.directory? path with
    | none => pure t
    | some directory =>
      (t.makeDirectories directory).mapError fun _ => .directoryNotMade directory
  (t.write path (Text.Utf8.encode text)).mapError fun _ => .reportNotWritten path

/-- What has come of an outcome: the files, what is shown, and what went wrong. -/
structure Ending where
  /-- The files afterwards. -/
  files : FileTree
  /-- The text that is shown. -/
  output : String
  /-- What went wrong. -/
  failure : Option Failure
  deriving DecidableEq

/-- Carries an outcome out in a tree. Nothing is shown if the text cannot be saved. -/
def Outcome.carryOut (o : Outcome) (t : FileTree) : Ending :=
  match o.save with
  | none => ⟨t, o.output, o.failure⟩
  | some (path, text) =>
    match saveIn t path text with
    | .ok t => ⟨t, o.output, o.failure⟩
    | .error failure => ⟨t, "", some failure⟩

end HandleBench.Program
