import HandleBench.Benchmark

/-!
# Engines

An engine describes the workloads of its catalog, creates benchmarks of them and takes host data
through their pipelines. Catalog entries are known by their index, so their handles need no
releasing. A benchmark or an object of another engine is refused.
-/

namespace HandleBench.Engine

/-! ### Making engines -/

/-- Makes an engine with the given settings and registrations; it gets a session of its own. -/
def make (settings : EngineSettings) (registry : Registry) : Act World Handle := do
  let session ← World.openSession registry.errors
  let address ← World.allocate
    (.engine ⟨session, settings, registry.catalog, registry.schemes, registry.securities⟩)
  return ⟨.cell address, 0, .engine⟩

/-- Starts an engine of a backend. The version that the settings ask for is checked first. An engine
whose backend cannot be registered is not made at all. -/
def start (backend : Backend) (settings : EngineSettings) : Act World Handle := do
  Act.ofExcept settings.checkVersion
  match backend.register .initial with
  | (.ok (), registry) => make settings registry
  | (.error failure, _) => Act.refuse failure

/-- Registers one thing more with the engine at an address. The texts of error codes are those of
its session. -/
def register (address : Nat) (e : Engine) : Registry.Item → Act World Unit
  | .error code text => World.addErrorText e.session code text
  | item => do
    let before : Registry := ⟨e.catalog, e.schemes, e.securities, .empty⟩
    let after ← Act.ofExcept (before.add item)
    Act.change fun w => { w with
      cells := w.cells.setIfInBounds address (.engine { e with
        catalog := after.catalog, schemes := after.schemes, securities := after.securities }) }

/-- The engine that a handle stands for, with its address. -/
def resolve (h : Handle) : Act World (Nat × Engine) := do
  if h.isNull || h.tag != Tag.engine then Act.refuse (.notEngine h.tag)
  else
    match ← World.follow h.pointer with
    | (address, .engine engine) => return (address, engine)
    | _ => Act.stop .misread

/-! ### Names and error texts -/

/-- The name of a scheme. -/
def schemeName (e : Engine) (id : Int32) : Except Failure String :=
  match e.schemes.find? id with
  | some name => .ok name
  | none => .error (.schemeNotFound id)

/-- The name of a security level. -/
def securityName (e : Engine) (id : Int32) : Except Failure String :=
  match e.securities.find? id with
  | some name => .ok name
  | none => .error (.securityNotFound id)

/-! ### The catalog -/

/-- The handles of all catalog entries. -/
def entries (e : Engine) : List Handle := (List.range e.catalog.length).map .descriptor

/-- The handles of all catalog entries in slots of the host, of which there must be as many. -/
def subscribe (e : Engine) (slots : List Handle) : Except Failure (List Handle) :=
  if slots.length = e.catalog.length then .ok e.entries
  else .error (.slotCount e.catalog.length slots.length)

/-- The catalog entry that a handle stands for. A benchmark is no catalog entry, though its tag has
the class bit of one. -/
def find (e : Engine) (h : Handle) : Except Failure Description :=
  if !h.tag.hasClass .descriptor || h.tag.hasClass .benchmark then .error (.notDescriptor h.tag)
  else
    match h.pointer.word?.bind fun index => e.catalog[index.toNat]? with
    | some description => .ok description
    | none => .error .descriptorNotMatched

/-- The size of the default sets of a catalog entry. -/
def arity (e : Engine) (h : Handle) : Except Failure Nat := return (← e.find h).arity

/-- The count of default sets of a catalog entry. -/
def setCount (e : Engine) (h : Handle) : Except Failure Nat :=
  return (← e.find h).defaultSets.length

/-- The text of a catalog entry for some parameters. -/
def text (e : Engine) (h : Handle) (params : Option (List Param)) : Except Failure String :=
  return (← e.find h).text params

/-- Memory that a description is copied into. -/
structure Outline where
  /-- The descriptor. -/
  descriptor : Descriptor
  /-- A slot for each default set that is wanted. -/
  slots : List (List Param)
  deriving DecidableEq

/-- Elements put to the front of a slot; what is behind them stays. -/
def putFront {α : Type} (elements slot : List α) : List α :=
  elements ++ slot.drop elements.length

/-- Copies default sets into slots one by one, up to the first slot that is too short for its set.
Sets and slots without a counterpart are left out. -/
def fillSlots (index : Nat) :
    List (List Param) → List (List Param) → Except Failure Unit × List (List Param)
  | slot :: slots, set :: sets =>
    if slot.length < set.length then (.error (.slotTooShort index), slot :: slots)
    else
      let (outcome, slots) := fillSlots (index + 1) slots sets
      (outcome, putFront set slot :: slots)
  | slots, _ => (.ok (), slots)

/-- Copies a catalog entry into memory: the descriptor first, then the default sets. When a slot is
too short, what was copied before it stays. -/
def describe (e : Engine) (h : Handle) (memory : Outline) : Except Failure Unit × Outline :=
  match e.find h with
  | .error failure => (.error failure, memory)
  | .ok description =>
    let (outcome, slots) := fillSlots 0 memory.slots description.defaultSets
    (outcome, ⟨description.descriptor, slots⟩)

/-- A catalog entry by its index: its handle, its descriptor and its default sets, all copied into
memory of the right size. -/
def describeAt (e : Engine) (index : Nat) :
    Except Failure (Handle × Descriptor × List (List Param)) :=
  match e.entries[index]? with
  | none => .error (.benchmarkIndex index e.catalog.length)
  | some h => do
    let arity ← e.arity h
    let count ← e.setCount h
    let blank := List.replicate count (List.replicate arity (Param.ofUInt64 "" 0))
    match e.describe h ⟨.plain, blank⟩ with
    | (.ok (), outline) => return (h, outline.descriptor, outline.slots)
    | (.error failure, _) => throw failure

/-! ### Benchmarks -/

/-- Creates a benchmark of a catalog entry. -/
def create (e : Engine) (h : Handle) (params : Option (List Param)) : Act World Handle := do
  let description ← Act.ofExcept (e.find h)
  Benchmark.create e.session e.settings.maxLive description params

/-- The benchmark of this engine that a handle stands for, with its address. -/
def own (e : Engine) (h : Handle) : Act World (Nat × Benchmark) := do
  let (address, benchmark) ← Benchmark.resolve h
  if benchmark.session = e.session then return (address, benchmark)
  else Act.refuse .foreignBenchmark

/-- Releases a benchmark; a null handle is none. -/
def destroyBenchmark (e : Engine) (h : Handle) : Act World Unit := do
  if h.isNull then return ()
  else
    let (address, benchmark) ← e.own h
    Act.change (Benchmark.release · address benchmark)

/-- Releases any handle of this engine other than its own. Null handles and those of catalog entries
stand for nothing that could be released. -/
def destroy (e : Engine) (h : Handle) : Act World Unit := do
  if h.isNull && !h.tag.hasClass .descriptor then return ()
  else if h.tag.hasClass .instanceBits then e.destroyBenchmark h
  else if h.tag.hasClass .object then Object.destroy e.session h
  else if h.tag = .descriptor then return ()
  else Act.refuse (.unknownTag h.tag)

/-! ### The pipeline -/

/-- Gives a benchmark a concrete descriptor. -/
def concretize (e : Engine) (h : Handle) (concrete : Descriptor) : Act World Unit := do
  let (address, benchmark) ← e.own h
  benchmark.concretize address concrete

/-- Copies the host's samples into a payload. -/
def encode (e : Engine) (h : Handle) (packs : List Pack) : Act World Handle := do
  (← e.own h).2.encode packs

/-- Writes a payload into the host's packs. -/
def decode (e : Engine) (h encoded : Handle) (packs : List Pack) : Act World (List Pack) := do
  (← e.own h).2.decode encoded packs

/-- Shares encoded data as encrypted data. -/
def encrypt (e : Engine) (h encoded : Handle) : Act World Handle := do
  (← e.own h).2.encrypt encoded

/-- Shares encrypted data as decrypted data. -/
def decrypt (e : Engine) (h encrypted : Handle) : Act World Handle := do
  (← e.own h).2.decrypt encrypted

/-- Shares encrypted data as loaded data. -/
def load (e : Engine) (h : Handle) (handles : List Handle) : Act World Handle := do
  (← e.own h).2.load handles

/-- Shares results through the host's slots. -/
def store (e : Engine) (h result : Handle) (slots : List Handle) : Act World (List Handle) := do
  (← e.own h).2.store result slots

/-- Runs the workload on the selected samples. -/
def operate (e : Engine) (h loaded : Handle) (selections : List Selection) :
    Act World Handle := do
  (← e.own h).2.operate loaded selections

end HandleBench.Engine
