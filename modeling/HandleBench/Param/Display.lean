import HandleBench.Decimal.Layout
import HandleBench.Param
import HandleBench.Text.Quoted

/-!
# Parameters for people

A parameter as one line: its name in quotes and its value at its type. A type that is not known is
given by its number, with the bits of the value.
-/

namespace HandleBench.Param

/-- The value of a parameter behind the name of its type. -/
def valueText (p : Param) : String :=
  match p.type with
  | .ok .int64 => s!"i64: {p.bits.toInt64}"
  | .ok .uint64 => s!"u64: {p.bits}"
  | .ok .float64 => "f64: " ++ Decimal.Layout.parameter.writeAny ⟨p.bits⟩
  | .error _ => s!"data_type: {p.typeCode}, bits: {p.bits}"

/-- A parameter as one line. -/
def display (p : Param) : String :=
  "WorkloadParam \x7b name: " ++ Text.quoted p.nameText ++ ", " ++ p.valueText ++ " \x7d"

end HandleBench.Param
