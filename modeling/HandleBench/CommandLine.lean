import HandleBench.CommandLine.Scan
import HandleBench.Text.Digits

/-!
# The command line

The program lists the benchmarks of the built-in backend, describes one of them, or runs one. Which
flags and options there are, which values they take, and the help texts.
-/

namespace HandleBench.CommandLine

/-- What to run, where to read settings from and where to write a report. -/
structure RunOptions where
  /-- The file with the settings of the run. -/
  config : Option String
  /-- The index of the benchmark. -/
  descriptor : Option UInt64
  /-- The index of the default parameter set. -/
  defaultSet : Option UInt64
  /-- The count of measured iterations. -/
  measured : Option UInt32
  /-- The count of iterations before measuring. -/
  warmups : Option UInt32
  /-- The seed of the operands. -/
  seed : Option UInt64
  /-- The file for the report. -/
  report : Option String
  deriving DecidableEq, Repr

/-- What the program is asked to do. -/
inductive Request where
  /-- List the benchmarks. -/
  | list
  /-- Describe a benchmark. -/
  | describe (index : UInt64)
  /-- Run a benchmark. -/
  | run (options : RunOptions)
  deriving DecidableEq, Repr

/-- A request with the settings that all requests share. -/
structure Invocation where
  /-- The program shall say more about what it does. -/
  verbose : Bool
  /-- The file with the settings of the engine. -/
  engineConfig : Option String
  /-- The request. -/
  request : Request
  deriving DecidableEq, Repr

/-- What can be helped with. -/
inductive Topic where
  /-- The program. -/
  | program
  /-- The listing. -/
  | list
  /-- The description. -/
  | describe
  /-- The run. -/
  | run
  /-- The help itself. -/
  | help
  deriving DecidableEq, Repr

/-- What a command line says. -/
inductive Parsed where
  /-- It asks for help. -/
  | help (topic : Topic)
  /-- It makes no sense. -/
  | misuse
  /-- It makes a request. -/
  | invocation (invocation : Invocation)
  deriving DecidableEq, Repr

/-! ### Values -/

/-- A 64-bit natural number. -/
def word64? (text : String) : Option UInt64 := (Text.readNat? UInt64.size text).map .ofNat

/-- A 32-bit natural number. Zero may have a minus sign. -/
def word32? (text : String) : Option UInt32 :=
  match text.toList with
  | '-' :: '+' :: _ => none
  | '-' :: digits => (Text.readNat? 1 (String.ofList digits)).map .ofNat
  | _ => (Text.readNat? UInt32.size text).map .ofNat

/-- The text is a 64-bit natural number. -/
def isWord64 (text : String) : Bool := (word64? text).isSome

/-- The text is a 32-bit natural number. -/
def isWord32 (text : String) : Bool := (word32? text).isSome

/-- The text can be the name of a file. -/
def isPath (text : String) : Bool := !text.isEmpty

/-! ### Grammars -/

/-- The words before a command. -/
def programGrammar : Grammar where
  flags := ["verbose"]
  options := [("engine-config", isPath)]
  operands := []
  commands := ["list", "describe", "run", "help"]

/-- The words behind `list`. -/
def listGrammar : Grammar := ⟨[], [], [], []⟩

/-- The words behind `describe`. -/
def describeGrammar : Grammar := ⟨[], [], [isWord64], []⟩

/-- The words behind `run`. -/
def runGrammar : Grammar where
  flags := []
  options := [("config", isPath), ("descriptor", isWord64), ("default-set", isWord64),
    ("iterations", isWord32), ("warmup", isWord32), ("seed", isWord64), ("json", isPath)]
  operands := []
  commands := []

/-! ### Commands -/

/-- The topic that the words behind `help` name. -/
def topic : List String → Parsed
  | [] => .help .program
  | ["list"] => .help .list
  | ["describe"] => .help .describe
  | ["run"] => .help .run
  | ["help"] => .help .help
  | _ => .misuse

/-- The options of a run. -/
def runOptions (found : Found) : RunOptions where
  config := found.options.lookup "config"
  descriptor := (found.options.lookup "descriptor").bind word64?
  defaultSet := (found.options.lookup "default-set").bind word64?
  measured := (found.options.lookup "iterations").bind word32?
  warmups := (found.options.lookup "warmup").bind word32?
  seed := (found.options.lookup "seed").bind word64?
  report := found.options.lookup "json"

/-- The request that a command makes with the words behind it. -/
def request (name : String) (rest : List String) (done : Request → Parsed) : Parsed :=
  match name with
  | "list" =>
    match scan listGrammar (some .nothing) rest with
    | .help => .help .list
    | .words _ => done .list
    | _ => .misuse
  | "describe" =>
    match scan describeGrammar (some .nothing) rest with
    | .help => .help .describe
    | .words found =>
      match (found.operands.head?).bind word64? with
      | some index => done (.describe index)
      | none => .misuse
    | _ => .misuse
  | "run" =>
    match scan runGrammar (some .nothing) rest with
    | .help => .help .run
    | .words found => done (.run (runOptions found))
    | _ => .misuse
  | "help" => topic rest
  | _ => .misuse

/-- What a command line says. -/
def parse (args : List String) : Parsed :=
  match scan programGrammar (some .nothing) args with
  | .help => .help .program
  | .command found name rest =>
    request name rest fun request =>
      match found with
      | none => .misuse
      | some found => .invocation {
        verbose := (found.options.lookup "verbose").isSome
        engineConfig := found.options.lookup "engine-config"
        request }
  | _ => .misuse

/-! ### Help -/

/-- The help on a topic, line by line. -/
def helpLines : Topic → List String
  | .program => [
    "Drive the built-in benchmark backend through its handle protocol",
    "",
    "Usage: bench-bridge [OPTIONS] <COMMAND>",
    "",
    "Commands:",
    "  list      List the registered benchmarks",
    "  describe  Show a benchmark descriptor and its default parameter sets",
    "  run       Run one benchmark through the full pipeline and report timings",
    "  help      Print this message or the help of the given subcommand(s)",
    "",
    "Options:",
    "      --verbose                      Enable verbose logging (or set BENCH_BRIDGE_LOG)",
    "      --engine-config <engine.toml>  Engine settings (TOML) passed to the backend at init",
    "  -h, --help                         Print help"]
  | .list => [
    "List the registered benchmarks",
    "",
    "Usage: bench-bridge list",
    "",
    "Options:",
    "  -h, --help  Print help"]
  | .describe => [
    "Show a benchmark descriptor and its default parameter sets",
    "",
    "Usage: bench-bridge describe <INDEX>",
    "",
    "Arguments:",
    "  <INDEX>  Catalog index, as printed by `list`",
    "",
    "Options:",
    "  -h, --help  Print help"]
  | .run => [
    "Run one benchmark through the full pipeline and report timings",
    "",
    "Usage: bench-bridge run [OPTIONS]",
    "",
    "Options:",
    "      --config <run.toml>          Run settings (TOML); flags below override it",
    "      --descriptor <DESCRIPTOR>    Catalog index, as printed by `list`",
    "      --default-set <DEFAULT_SET>  Default parameter set to use",
    "      --iterations <ITERATIONS>    Number of measured iterations of `operate`",
    "      --warmup <WARMUP>            Number of warmup iterations before measuring",
    "      --seed <SEED>                Seed for generated operands",
    "      --json <JSON>                Write machine-readable JSON report to this file",
    "  -h, --help                       Print help"]
  | .help => [
    "Print this message or the help of the given subcommand(s)",
    "",
    "Usage: bench-bridge help [COMMAND]...",
    "",
    "Arguments:",
    "  [COMMAND]...  Print help for the subcommand(s)"]

end HandleBench.CommandLine
