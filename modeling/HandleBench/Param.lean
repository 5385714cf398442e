import HandleBench.Failure
import HandleBench.Text.Terminated

/-!
# Workload parameters

The shape of a workload is passed as a list of named 64-bit values. A parameter carries the number
of its type, which a host may have set to anything, a name field, and the bits of its value. The
value is read at a type only if the parameter carries the number of that type. Two parameters are
the same if type, bits and *name* agree; what stands behind the terminator of the name field does
not count.
-/

namespace HandleBench

open Text (NameField)

/-- The type of a parameter's value. -/
inductive ParamType where
  /-- A signed integer. -/
  | int64
  /-- An unsigned integer. -/
  | uint64
  /-- A double-precision number. -/
  | float64
  deriving DecidableEq, Repr

namespace ParamType

/-- The number that stands for a type. -/
def code : ParamType → Int32
  | int64 => 0
  | uint64 => 1
  | float64 => 2

/-- The name of a type. -/
def label : ParamType → String
  | int64 => "Int64"
  | uint64 => "UInt64"
  | float64 => "Float64"

/-- The type with the given number. -/
def ofCode (raw : Int32) : Except Failure ParamType :=
  if raw = 0 then .ok int64
  else if raw = 1 then .ok uint64
  else if raw = 2 then .ok float64
  else .error (.unknownParamType raw)

end ParamType

/-- One named parameter. -/
structure Param where
  /-- The number of the type, not checked. -/
  typeCode : Int32
  /-- The field with the name. -/
  name : NameField
  /-- The bits of the value. -/
  bits : UInt64
  deriving DecidableEq

namespace Param

/-- The parameter with another name. Its field is cleared before the name is copied into it. -/
def setName (p : Param) (name : String) : Param := { p with name := .ofText name }

/-- A parameter of a proper type. -/
def ofBits (type : ParamType) (name : String) (bits : UInt64) : Param :=
  setName ⟨type.code, .blank, bits⟩ name

/-- An unsigned parameter. -/
def ofUInt64 (name : String) (value : UInt64) : Param := ofBits .uint64 name value

/-- A signed parameter, kept in two's complement. -/
def ofInt64 (name : String) (value : Int64) : Param := ofBits .int64 name value.toUInt64

/-- A double-precision parameter. -/
def ofBinary64 (name : String) (value : Binary64) : Param := ofBits .float64 name value.bits

/-- The name of the parameter. -/
def nameText (p : Param) : String := p.name.text

/-- The type of the parameter. -/
def type (p : Param) : Except Failure ParamType := ParamType.ofCode p.typeCode

/-- The value of an unsigned parameter. -/
def asUInt64? (p : Param) : Option UInt64 :=
  if p.typeCode = ParamType.uint64.code then some p.bits else none

/-- The value of a signed parameter. -/
def asInt64? (p : Param) : Option Int64 :=
  if p.typeCode = ParamType.int64.code then some p.bits.toInt64 else none

/-- The value of a double-precision parameter. -/
def asBinary64? (p : Param) : Option Binary64 :=
  if p.typeCode = ParamType.float64.code then some ⟨p.bits⟩ else none

/-- Type, bits and name agree. -/
def same (p q : Param) : Bool :=
  p.typeCode == q.typeCode && p.bits == q.bits && p.nameText == q.nameText

end Param

end HandleBench
