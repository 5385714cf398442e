import HandleBench.Backend

/-!
# Benchmark instances

What a description makes of the host's parameters: an instance of its workload, ready for the
pipeline. A matrix product needs three dimensions, none of them zero and none so large that one of
its matrices could not be addressed; a byte carrier takes any parameters, or none.
-/

namespace HandleBench

/-- A matrix product of fixed shape. -/
structure Product where
  /-- What it measures; the host may make it concrete. -/
  descriptor : Descriptor
  /-- The rows of the left factor. -/
  rows : Nat
  /-- The columns of the left factor and the rows of the right one. -/
  inner : Nat
  /-- The columns of the right factor. -/
  cols : Nat
  deriving DecidableEq

namespace Product

/-- The count of operands. -/
def operandCount : Nat := 2

/-- The dimension, which must not be zero. -/
def dimension (name : String) (value : UInt64) : Except Failure Nat :=
  if value = 0 then .error (.zeroDimension name) else .ok value.toNat

/-- A matrix of the shape has an address for each of its octets. -/
def requireAddressable (rows cols : Nat) : Except Failure Unit :=
  if rows * cols * 8 < UInt64.size then .ok () else .error .dimensionOverflow

/-- The product whose shape is in the parameters. -/
def ofParams (descriptor : Descriptor) (params : List Param) : Except Failure Product := do
  let shape ← ProductShape.ofParams params
  let rows ← dimension "rows_M0" shape.rows
  let inner ← dimension "cols_M0" shape.inner
  let cols ← dimension "cols_M1" shape.cols
  requireAddressable rows inner
  requireAddressable inner cols
  requireAddressable rows cols
  return ⟨descriptor, rows, inner, cols⟩

/-- The product feeds one sample at a time. -/
def isLatency (p : Product) : Bool := p.descriptor.category == .latency

/-- The product with a concrete descriptor, which must be for its workload and its category. -/
def concretize (p : Product) (concrete : Descriptor) : Except Failure Product :=
  if concrete.workload = p.descriptor.workload ∧ concrete.category = p.descriptor.category then
    .ok { p with descriptor := concrete }
  else .error .descriptorMismatch

end Product

/-- One live run of a workload. -/
inductive Instance where
  /-- A product of matrices. -/
  | product (product : Product)
  /-- A byte carrier. -/
  | carrier (config : CarrierConfig)
  deriving DecidableEq

namespace Instance

/-- The backend bits in the tag of the instance's handle. -/
def classTag : Instance → Tag
  | product _ => 0x1
  | carrier config => config.classTag

/-- The instance with a concrete descriptor; a byte carrier does not look at it. -/
def concretize : Instance → Descriptor → Except Failure Instance
  | product p, concrete => (p.concretize concrete).map product
  | carrier config, _ => .ok (carrier config)

end Instance

/-- The instance that a description makes of the host's parameters. -/
def Description.instantiate (d : Description) (params : Option (List Param)) :
    Except Failure Instance :=
  match d.backend with
  | .matrixProduct =>
    match params with
    | none => .error .noParams
    | some params => (Product.ofParams d.descriptor params).map .product
  | .byteCarrier config =>
    match config.createFailsWith with
    | some code => .error (.worded (.backend code) "mock create_benchmark failed")
    | none => .ok (.carrier config)

end HandleBench
