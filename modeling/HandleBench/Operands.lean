import HandleBench.Binary64.Octets
import HandleBench.Pipeline.Product
import HandleBench.Report

/-!
# Operands

The factors of a run. Their entries are small whole numbers that depend on a seed and on where they
stand, so all products and sums are exact and the expected results can be computed on the side. The
results of the library are compared with them entry by entry.
-/

namespace HandleBench

/-- The factors of a run. -/
structure Operands where
  /-- The rows of the left factors. -/
  rows : Nat
  /-- The columns of the left factors and the rows of the right ones. -/
  inner : Nat
  /-- The columns of the right factors. -/
  cols : Nat
  /-- The left factors. -/
  left : List (Matrix Binary64)
  /-- The right factors. -/
  right : List (Matrix Binary64)

namespace Operands

/-- The entry at a place: a whole number from -9 to 9. -/
def entry (seed : UInt64) (operand sample row col : Nat) : Binary64 :=
  let mix := (seed.toNat + 7 * operand + 13 * sample + 31 * row + 17 * col) % UInt64.size
  .ofUInt64 (.ofNat (mix % 19)) - .ofUInt64 9

/-- How many samples an operand has: one for a latency benchmark; for an offline benchmark the
count that its descriptor asks for, and one where it leaves that open. -/
def sampleCount (d : Descriptor) (operand : Nat) : Nat :=
  match d.category with
  | .latency => 1
  | .offline => max (d.categoryParams.word operand).toNat 1

/-- The factors for a seed. -/
def generate (d : Descriptor) (shape : ProductShape) (seed : UInt64) : Operands :=
  let rows := shape.rows.toNat
  let inner := shape.inner.toNat
  let cols := shape.cols.toNat
  let samples operand rows cols :=
    (List.range (sampleCount d operand)).map fun sample =>
      Matrix.ofFn rows cols (entry seed operand sample)
  ⟨rows, inner, cols, samples 0 rows inner, samples 1 inner cols⟩

/-- The packs of the factors. -/
def packs (o : Operands) : List Pack :=
  let buffers (samples : List (Matrix Binary64)) := samples.map fun m => Binary64.writeAll m.entries
  [⟨0, buffers o.left⟩, ⟨1, buffers o.right⟩]

/-- The selections of all samples. -/
def selections (o : Operands) : List Selection :=
  [⟨0, .ofNat o.left.length⟩, ⟨0, .ofNat o.right.length⟩]

/-- The count of results. -/
def resultCount (o : Operands) : Nat := o.left.length * o.right.length

/-- Buffers for all results, filled with zeros. -/
def blankResults (o : Operands) : List Octets :=
  List.replicate o.resultCount (List.replicate (o.rows * o.cols * 8) 0)

/-- The expected results. -/
def expected (o : Operands) : Except Failure (List (Matrix Binary64)) :=
  Product.allProducts o.left o.right

/-- The greatest difference that counts as none: 1e-9. -/
def tolerance : Binary64 := ⟨0x3E112E0BE826D695⟩

/-- The greatest difference between expected results and decoded ones, and `start`. -/
def maxError (start : Binary64) (expected : List (Matrix Binary64)) (decoded : List Octets) :
    Binary64 :=
  (expected.zip decoded).foldl (fun worst (m, octets) =>
    (m.entries.zip (Binary64.readAll octets)).foldl (fun worst (x, y) =>
      worst.maxNumber (x - y).abs) worst) start

/-- The comparison of decoded results with the expected ones. -/
def verify (o : Operands) (decoded : List Octets) : Except Failure Verification := do
  let expected ← o.expected
  let worst := maxError .zero expected decoded
  return ⟨expected.length == decoded.length && worst.le tolerance, .ofNat decoded.length, worst⟩

end Operands

end HandleBench
