import HandleBench.Matrix
import HandleBench.Pack

/-!
# Payloads

The values that objects hold. A payload knows its kind, and its value is handed out only at that
kind.
-/

namespace HandleBench

/-- The values of a kind of payload. -/
def PayloadKind.Value : PayloadKind → Type
  | .octet => UInt8
  | .word => UInt64
  | .text => String
  | .words => List UInt32
  | .matrices => List (List (Matrix Binary64))
  | .samples => List Pack

/-- A value together with its kind. -/
structure Payload where
  /-- The kind of the value. -/
  kind : PayloadKind
  /-- The value. -/
  value : kind.Value

/-- The value of a payload at the expected kind. -/
def Payload.as? (p : Payload) (expected : PayloadKind) : Option expected.Value :=
  if h : p.kind = expected then some (h ▸ p.value) else none

/-- A payload gives its value at its own kind. -/
@[simp] theorem Payload.as?_kind (p : Payload) : p.as? p.kind = some p.value := by
  simp [as?]

/-- A payload gives nothing at another kind. -/
theorem Payload.as?_eq_none {p : Payload} {expected : PayloadKind} (h : p.kind ≠ expected) :
    p.as? expected = none := by
  simp [as?, h]

end HandleBench
