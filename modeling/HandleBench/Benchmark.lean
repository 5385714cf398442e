import HandleBench.Pipeline

/-!
# Benchmarks

A benchmark is an instance behind a handle. Creating one takes a slot of its session, which is given
back when the backend refuses, when the backend's bits are not its own to choose, and at last when
the benchmark is released.
-/

namespace HandleBench.Benchmark

/-- The benchmark that a handle stands for, with its address. -/
def resolve (h : Handle) : Act World (Nat × Benchmark) := do
  if !h.tag.hasClass .instanceBits then Act.refuse (.notBenchmark h.tag)
  else if h.isNull then Act.refuse .emptyBenchmark
  else
    match ← World.follow h.pointer with
    | (address, .benchmark benchmark) => return (address, benchmark)
    | _ => Act.stop .misread

/-- The instance that a description makes of the host's parameters, if its bits can go into a
tag. -/
def instantiate (description : Description) (params : Option (List Param)) :
    Except Failure Instance := do
  let inst ← description.instantiate params
  requireUnreserved inst.classTag
  return inst

/-- Creates a benchmark, of which the session may have a limited number. -/
def create (session : SessionId) (limit : Option Nat) (description : Description)
    (params : Option (List Param)) : Act World Handle := do
  World.acquireSlot session limit
  match instantiate description params with
  | .ok inst =>
    let address ← World.allocate (.benchmark ⟨session, inst⟩)
    return ⟨.cell address, 0, inst.classTag ||| .instanceBits⟩
  | .error failure =>
    Act.change (·.releaseSlot session)
    Act.refuse failure

/-- The world after a benchmark is gone and has given back its slot. -/
def release (w : World) (address : Nat) (benchmark : Benchmark) : World :=
  (w.clear address).releaseSlot benchmark.session

/-- Gives the instance at an address a concrete descriptor. -/
def concretize (address : Nat) (benchmark : Benchmark) (concrete : Descriptor) :
    Act World Unit := do
  let inst ← Act.ofExcept (benchmark.inst.concretize concrete)
  Act.change fun w => { w with
    cells := w.cells.setIfInBounds address (.benchmark { benchmark with inst }) }

/-! ### The pipeline through the session of the benchmark -/

/-- Copies the host's samples into a payload. -/
def encode (b : Benchmark) : List Pack → Act World Handle := b.inst.encode b.session

/-- Writes a payload into the host's packs. -/
def decode (b : Benchmark) : Handle → List Pack → Act World (List Pack) := b.inst.decode b.session

/-- Shares encoded data as encrypted data. -/
def encrypt (b : Benchmark) : Handle → Act World Handle := b.inst.encrypt b.session

/-- Shares encrypted data as decrypted data. -/
def decrypt (b : Benchmark) : Handle → Act World Handle := b.inst.decrypt b.session

/-- Shares encrypted data as loaded data. -/
def load (b : Benchmark) : List Handle → Act World Handle := b.inst.load b.session

/-- Shares results through the host's slots. -/
def store (b : Benchmark) : Handle → List Handle → Act World (List Handle) :=
  b.inst.store b.session

/-- Runs the workload on the selected samples. -/
def operate (b : Benchmark) : Handle → List Selection → Act World Handle :=
  b.inst.operate b.session

end HandleBench.Benchmark
