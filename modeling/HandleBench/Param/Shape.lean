import HandleBench.Param

/-!
# Shapes in parameter lists

A parameter list is read as the shape of a workload and a shape is written as a parameter list.
Reading goes by position and looks at no name; it asks that the entries it needs are there and are
unsigned, and it ignores whatever follows them.
-/

namespace HandleBench

/-- The first `required` parameters are there and unsigned. -/
def requireUnsigned (params : List Param) (required : Nat) : Except Failure Unit :=
  if params.length < required then .error (.tooFewParams required params.length)
  else
    match (params.take required).findIdx? (·.asUInt64?.isNone) with
    | some index => .error (.paramNotUnsigned index)
    | none => .ok ()

/-- The shape of a matrix product: `rows` by `inner` times `inner` by `cols`. -/
structure ProductShape where
  /-- The rows of the left factor. -/
  rows : UInt64
  /-- The columns of the left factor and the rows of the right one. -/
  inner : UInt64
  /-- The columns of the right factor. -/
  cols : UInt64
  deriving DecidableEq, Repr

namespace ProductShape

/-- The shape as a parameter list. -/
def toParams (s : ProductShape) : List Param :=
  [.ofUInt64 "rows_M0" s.rows, .ofUInt64 "cols_M0" s.inner, .ofUInt64 "cols_M1" s.cols]

/-- The shape in the first three parameters. -/
def ofParams (params : List Param) : Except Failure ProductShape := do
  requireUnsigned params 3
  match params with
  | rows :: inner :: cols :: _ => return ⟨rows.bits, inner.bits, cols.bits⟩
  | _ => throw (.tooFewParams 3 params.length)

end ProductShape

/-- The shape of a workload that is described by lengths alone: those of its inputs and those of
the components of its result. -/
structure GenericShape where
  /-- The lengths of the inputs. -/
  inputs : List UInt64
  /-- The lengths of the result's components. -/
  results : List UInt64
  deriving DecidableEq, Repr

namespace GenericShape

/-- The shape with `n` inputs and `m` result components of length one. -/
def ones (n m : Nat) : GenericShape := ⟨List.replicate n 1, List.replicate m 1⟩

/-- Lengths as parameters, named by `stem` and their index counted from `start`. -/
def lengthParams (stem : String) (start : Nat) : List UInt64 → List Param
  | [] => []
  | length :: rest =>
    .ofUInt64 (stem ++ toString start) length :: lengthParams stem (start + 1) rest

/-- The shape as a parameter list: both counts, then the lengths of the inputs, then those of the
result. -/
def toParams (s : GenericShape) : List Param :=
  .ofUInt64 "n" (.ofNat s.inputs.length) :: .ofUInt64 "m" (.ofNat s.results.length) ::
    (lengthParams "length_InputParam" 0 s.inputs ++
      lengthParams "length_ResultComponent" 0 s.results)

/-- The shape in a parameter list. The two counts at its front say how many lengths follow; they
must not add up to more than a word holds. -/
def ofParams (params : List Param) : Except Failure GenericShape := do
  requireUnsigned params 2
  match params with
  | n :: m :: lengths =>
    let required := n.bits.toNat + m.bits.toNat + 2
    if UInt64.size ≤ required then throw .arityOverflow
    requireUnsigned params required
    let values := lengths.map (·.bits)
    return ⟨values.take n.bits.toNat, (values.drop n.bits.toNat).take m.bits.toNat⟩
  | _ => throw (.tooFewParams 2 params.length)

end GenericShape

end HandleBench
