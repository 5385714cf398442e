import HandleBench.Descriptor
import HandleBench.Param.Shape

/-!
# Backends and their workloads

A backend is a set of workloads. Two are built in: the matrix product in plaintext, and the byte
carrier, which takes any samples through the pipeline unchanged and can be told to fail in several
places. Each has workloads, which it describes.

A description holds the fixed part of a workload and its default parameter sets, all of the size of
the first.
-/

namespace HandleBench

/-- How a byte carrier presents itself, and where it fails. -/
structure CarrierConfig where
  /-- Its name. -/
  name : String
  /-- Its version. -/
  version : Option String
  /-- The descriptor of its workload. -/
  descriptor : Descriptor
  /-- The default parameter sets of its workload. -/
  defaultSets : List (List Param)
  /-- The bits it puts into the tags of benchmark handles. -/
  classTag : Tag
  /-- Error texts to register. -/
  errorCodes : List (Int32 × String)
  /-- Creating a benchmark fails with this code. -/
  createFailsWith : Option Int32
  /-- `operate` fails. -/
  operateFails : Bool
  /-- `operate` panics. -/
  operatePanics : Bool
  deriving DecidableEq

/-- The byte carrier of a given name with everything else as usual. -/
def CarrierConfig.named (name : String) : CarrierConfig where
  name := name
  version := some "mock-1.0.0"
  descriptor := { Descriptor.plain with
    workload := .generic, dataType := .int64, categoryParams := .latency 100 0 }
  defaultSets := [(GenericShape.ones 2 1).toParams, (GenericShape.mk [4, 4] [4]).toParams]
  classTag := 0
  errorCodes := []
  createFailsWith := none
  operateFails := false
  operatePanics := false

/-- A set of workloads. -/
inductive Backend where
  /-- The product of matrices in plaintext. -/
  | matrixProduct
  /-- Samples carried through the pipeline unchanged. -/
  | byteCarrier (config : CarrierConfig)
  deriving DecidableEq

namespace Backend

/-- The name of a backend. -/
def name : Backend → String
  | matrixProduct => "example"
  | byteCarrier config => config.name

/-- The version of a backend. -/
def version : Backend → Option String
  | matrixProduct => some "0.1.0"
  | byteCarrier config => config.version

end Backend

/-- The size of the first of some default sets, zero without any. -/
def arityOf : List (List Param) → Nat
  | [] => 0
  | first :: _ => first.length

/-- A registered workload. -/
structure Description where
  /-- What it measures. -/
  descriptor : Descriptor
  /-- Its default parameter sets. -/
  defaultSets : List (List Param)
  /-- The backend that runs it. -/
  backend : Backend
  /-- All default sets have the size of the first. -/
  uniform : ∀ set ∈ defaultSets, set.length = arityOf defaultSets
  deriving DecidableEq

namespace Description

/-- A workload without default sets. -/
def bare (descriptor : Descriptor) (backend : Backend) : Description :=
  ⟨descriptor, [], backend, by simp⟩

/-- The size of the default sets, zero without any. -/
def arity (d : Description) : Nat := arityOf d.defaultSets

/-- The workload with one more default set, which must have the size of the first. -/
def addDefaultSet (d : Description) (set : List Param) : Except Failure Description :=
  match d with
  | ⟨descriptor, [], backend, _⟩ => .ok ⟨descriptor, [set], backend, by simp [arityOf]⟩
  | ⟨descriptor, first :: sets, backend, uniform⟩ =>
    if same : set.length = first.length then
      .ok ⟨descriptor, first :: sets ++ [set], backend, by
        intro s hs
        rcases List.mem_append.mp hs with hs | hs
        · exact uniform s hs
        · rw [List.mem_singleton.mp hs, same]
          rfl⟩
    else .error (.mixedArity set.length first.length)

/-- The workload with more default sets, one after the other. -/
def addDefaultSets (d : Description) (sets : List (List Param)) : Except Failure Description :=
  sets.foldlM addDefaultSet d

/-- The matrix product as a latency benchmark: two seconds at least, one warmup. -/
def latencyProduct : Description where
  descriptor := { Descriptor.plain with categoryParams := .latency 2000 1 }
  defaultSets := [(ProductShape.mk 100 100 100).toParams, (ProductShape.mk 32 32 32).toParams]
  backend := .matrixProduct
  uniform := by simp [arityOf, ProductShape.toParams]

/-- The matrix product as an offline benchmark: two left and three right factors. -/
def offlineProduct : Description where
  descriptor := { Descriptor.plain with category := .offline, categoryParams := .offline [2, 3] }
  defaultSets := [(ProductShape.mk 10 10 10).toParams]
  backend := .matrixProduct
  uniform := by simp [arityOf]

/-- The text that a workload adds to its name, which may depend on the parameters. -/
def text (d : Description) (params : Option (List Param)) : String :=
  match d.backend with
  | .byteCarrier config => s!", {config.name} backend."
  | .matrixProduct =>
    match params.map ProductShape.ofParams with
    | some (.ok s) =>
      s!", M0 {s.rows}x{s.inner} by M1 {s.inner}x{s.cols}, example plaintext backend."
    | _ => ", Example backend implementation."

end Description

end HandleBench
