import HandleBench.Engine
import HandleBench.Operands

/-!
# Runs

A run plays the host against an engine: it describes a benchmark, creates it, takes generated
operands through the whole pipeline, compares the results with a reference and reports. Whatever
handles it holds when the pipeline ends or is refused it releases, the latest first.

Time comes from outside: `elapsed i` is how long the benchmarked step takes in the iteration `i`,
those before measuring included.
-/

namespace HandleBench.Run

/-- The state of a run: the world, and the handles the run has to release, the latest first. -/
structure State where
  /-- The world. -/
  world : World
  /-- The handles to release. -/
  owned : List Handle

/-- An act on the world of a run. -/
def onWorld {α : Type} : Act World α → Act State α :=
  Act.within (fun ⟨world, owned⟩ => (world, owned)) fun (world, owned) => ⟨world, owned⟩

/-- Takes over a handle. -/
def own (h : Handle) : Act State Unit := Act.change fun s => { s with owned := h :: s.owned }

/-- Gives up the latest handle. -/
def disown : Act State Unit := Act.change fun s => { s with owned := s.owned.tail }

/-- Makes a handle and takes it over. -/
def acquire (act : Act World Handle) : Act State Handle := do
  let h ← onWorld act
  own h
  return h

/-- Repeats the benchmarked step. Each result takes the place of the one before it, which is the
latest handle to be released. What comes of it is how long each iteration has taken, those left out
that came before measuring. -/
def iterate (e : Engine) (bench loaded : Handle) (selections : List Selection) (warmups : Nat)
    (elapsed : Nat → Binary64) :
    Option Handle → List Binary64 → (done left : Nat) → Act State (List Binary64)
  | _, times, _, 0 => return times.reverse
  | previous, times, done, left + 1 => do
    let result ← onWorld (e.operate bench loaded selections)
    match previous with
    | none => own result
    | some previous =>
      disown
      onWorld (e.destroy previous)
      own result
    iterate e bench loaded selections warmups elapsed (some result)
      (if warmups ≤ done then elapsed done :: times else times) (done + 1) left

/-- Takes operands into the benchmark, ready for the benchmarked step. -/
def upload (e : Engine) (bench : Handle) (d : Descriptor) (o : Operands) : Act State Handle := do
  onWorld (e.concretize bench d)
  let encoded ← acquire (e.encode bench o.packs)
  let encrypted ← acquire (e.encrypt bench encoded)
  acquire (e.load bench [encrypted])

/-- Takes the latest result out of the benchmark, decoded. -/
def download (e : Engine) (bench : Handle) (o : Operands) : Act State (List Octets) := do
  match ← Act.look fun s : State => s.owned.head? with
  | none => Act.refuse .noResult
  | some result =>
    let slots ← onWorld (e.store bench result [.null])
    let stored := slots.headD .null
    if !stored.isNull then own stored
    let decrypted ← acquire (e.decrypt bench stored)
    let packs ← onWorld (e.decode bench decrypted [⟨0, o.blankResults⟩])
    return packs.flatMap (·.buffers)

/-- What a run gets out of the pipeline. -/
structure Output where
  /-- How long the measured iterations have taken. -/
  times : List Binary64
  /-- The decoded results. -/
  decoded : List Octets

/-- Takes operands through the whole pipeline. The counts of the warmups and of the measured
iterations have a sum of 32 bits in every run that is described here. -/
def drive (e : Engine) (bench : Handle) (d : Descriptor) (o : Operands) (settings : RunSettings)
    (elapsed : Nat → Binary64) : Act State Output := do
  let loaded ← upload e bench d o
  let times ← iterate e bench loaded o.selections settings.warmups.toNat elapsed none [] 0
    (settings.warmups.toNat + settings.measured.toNat)
  let decoded ← download e bench o
  return ⟨times, decoded⟩

/-- Releases handles; one that is refused is left alone. -/
def releaseAll (e : Engine) : List Handle → Act World Unit
  | [] => return ()
  | h :: rest => fun w =>
    match e.destroy h w with
    | (.error (.refused _), w') => releaseAll e rest w'
    | (.ok (), w') => releaseAll e rest w'
    | (.error stop, w') => (.error stop, w')

/-- Takes operands through the pipeline of a benchmark and releases the benchmark and all handles,
also when a step is refused. -/
def measure (e : Engine) (bench : Handle) (d : Descriptor) (o : Operands) (settings : RunSettings)
    (elapsed : Nat → Binary64) : Act World Output := fun w =>
  match drive e bench d o settings elapsed ⟨w, []⟩ with
  | (.ok output, s) =>
    (do releaseAll e s.owned; e.destroyBenchmark bench; return output : Act World _) s.world
  | (.error (.refused failure), s) =>
    (do releaseAll e s.owned; e.destroyBenchmark bench; Act.refuse failure : Act World _) s.world
  | (.error stop, s) => (.error stop, s.world)

/-- What a run is told about its surroundings. -/
structure Surroundings where
  /-- How long each iteration takes, in milliseconds. -/
  elapsed : Nat → Binary64
  /-- When the run is reported. -/
  timestamp : String
  /-- The host. -/
  host : HostInfo

/-- The name of a number, or the number itself. -/
def nameOr (name : Except Failure String) (id : Int32) : String :=
  match name with
  | .ok name => name
  | .error _ => toString id

/-- What the settings of a run choose. -/
structure Plan where
  /-- The handle of the catalog entry. -/
  entry : Handle
  /-- Its descriptor. -/
  descriptor : Descriptor
  /-- The chosen default parameters. -/
  params : List Param
  /-- The operands. -/
  operands : Operands

/-- The plan for the settings of a run. -/
def plan (e : Engine) (settings : RunSettings) : Except Failure Plan := do
  if settings.measured = 0 then throw .noMeasuredIterations
  let (entry, descriptor, sets) ← e.describeAt settings.descriptor.toNat
  if descriptor.workload ≠ .matrixMultiply then
    throw (.notMatrixProduct descriptor.workload.title)
  match sets[settings.defaultSet.toNat]? with
  | none => throw (.defaultSetNotFound settings.defaultSet.toNat sets.length)
  | some params =>
    let shape ← ProductShape.ofParams params
    return ⟨entry, descriptor, params, .generate descriptor shape settings.seed⟩

/-- Runs a benchmark and reports. -/
def run (e : Engine) (backend : Backend) (settings : RunSettings) (around : Surroundings) :
    Act World Report := do
  let plan ← Act.ofExcept (plan e settings)
  let bench ← e.create plan.entry (some plan.params)
  let output ← measure e bench plan.descriptor plan.operands settings around.elapsed
  let verification ← Act.ofExcept (plan.operands.verify output.decoded)
  let description ← Act.ofExcept (e.text plan.entry (some plan.params))
  return {
    layoutVersion := Report.currentLayout
    timestamp := around.timestamp
    backendName := backend.name
    backendVersion := backend.version
    workload := plan.descriptor.workload.title
    category := plan.descriptor.category.label
    scheme := nameOr (e.schemeName plan.descriptor.scheme) plan.descriptor.scheme
    security := nameOr (e.securityName plan.descriptor.security) plan.descriptor.security
    description
    params := .ofList (plan.params.map fun p => (p.nameText, p.bits))
    settings
    timing := .ofSamples output.times
    verification
    host := around.host }

/-- The benchmarked step of a run and the world in which it is taken, for whoever wants to time it;
nothing if the run is refused before it gets there. -/
def timedStep? (e : Engine) (settings : RunSettings) (w : World) :
    Option (Act World Handle × World) :=
  match plan e settings with
  | .error _ => none
  | .ok plan =>
    match e.create plan.entry (some plan.params) w with
    | (.error _, _) => none
    | (.ok bench, w) =>
      match upload e bench plan.descriptor plan.operands ⟨w, []⟩ with
      | (.error _, _) => none
      | (.ok loaded, s) => some (e.operate bench loaded plan.operands.selections, s.world)

end HandleBench.Run
