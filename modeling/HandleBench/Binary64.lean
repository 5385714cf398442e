/-!
# Binary64

Double-precision numbers, kept as the 64 bits of their format. Every bit pattern is a value of its
own, each kind of NaN and both zeros included, so moving numbers about changes nothing in them.
Arithmetic goes through the machine's rounding to nearest; what comes out of it as a NaN is the
one canonical NaN.
-/

namespace HandleBench

/-- A double-precision number, by its bits. -/
structure Binary64 where
  /-- Sign, exponent and fraction, from the most significant bit on. -/
  bits : UInt64
  deriving DecidableEq, Repr, Inhabited

namespace Binary64

/-- The number as a machine float. -/
def toFloat (x : Binary64) : Float := Float.ofBits x.bits

/-- The bits of a machine float. -/
def ofFloat (x : Float) : Binary64 := ⟨x.toBits⟩

/-- The number nearest to a 64-bit count. -/
def ofUInt64 (n : UInt64) : Binary64 := ofFloat n.toFloat

/-- Positive zero. -/
def zero : Binary64 := ⟨0⟩

/-- Negative zero. -/
def negZero : Binary64 := ⟨0x8000000000000000⟩

/-- The number one. -/
def one : Binary64 := ⟨0x3FF0000000000000⟩

instance : Zero Binary64 := ⟨zero⟩
instance : Add Binary64 := ⟨fun x y => ofFloat (x.toFloat + y.toFloat)⟩
instance : Sub Binary64 := ⟨fun x y => ofFloat (x.toFloat - y.toFloat)⟩
instance : Mul Binary64 := ⟨fun x y => ofFloat (x.toFloat * y.toFloat)⟩
instance : Div Binary64 := ⟨fun x y => ofFloat (x.toFloat / y.toFloat)⟩

/-- The bits without the sign. -/
def magnitude (x : Binary64) : UInt64 := x.bits &&& 0x7FFFFFFFFFFFFFFF

/-- The sign bit is set. -/
def isNegative (x : Binary64) : Bool := x.bits &&& 0x8000000000000000 != 0

/-- The bits are one of the NaNs. -/
def isNaN (x : Binary64) : Bool := x.magnitude > 0x7FF0000000000000

/-- The bits are one of the two infinities. -/
def isInfinite (x : Binary64) : Bool := x.magnitude == 0x7FF0000000000000

/-- The number is neither infinite nor a NaN. -/
def isFinite (x : Binary64) : Bool := x.magnitude < 0x7FF0000000000000

/-- The number with its sign cleared. -/
def abs (x : Binary64) : Binary64 := ⟨x.magnitude⟩

/-- The number with its sign turned over. -/
def neg (x : Binary64) : Binary64 := ⟨x.bits ^^^ 0x8000000000000000⟩

/-- The square root, rounded to nearest. -/
def sqrt (x : Binary64) : Binary64 := ofFloat x.toFloat.sqrt

/-- Numeric order; false where a NaN takes part. -/
def le (x y : Binary64) : Bool := x.toFloat ≤ y.toFloat

/-- Numeric equality: both zeros are equal, and a NaN equals nothing. -/
def sameNumber (x y : Binary64) : Bool := x.toFloat == y.toFloat

/-- The greater of two numbers; a NaN yields to a number. -/
def maxNumber (x y : Binary64) : Binary64 :=
  if x.isNaN then y
  else if y.isNaN then x
  else if x.le y then y
  else x

/-- The place of a number in the total order of the format: negative numbers below positive ones
and the NaNs of each sign outermost. -/
def rank (x : Binary64) : Nat :=
  if x.bits < 0x8000000000000000 then 0x8000000000000000 + x.bits.toNat
  else 0xFFFFFFFFFFFFFFFF - x.bits.toNat

/-- The total order of the format. -/
def totalLe (x y : Binary64) : Bool := x.rank ≤ y.rank

/-- Different bits have different ranks. -/
theorem rank_injective {x y : Binary64} (h : x.rank = y.rank) : x = y := by
  obtain ⟨x⟩ := x
  obtain ⟨y⟩ := y
  have hx := x.toNat_lt
  have hy := y.toNat_lt
  simp only [rank, UInt64.lt_iff_toNat_lt] at h
  simp only [mk.injEq]
  apply UInt64.toNat_inj.mp
  change (if x.toNat < 9223372036854775808 then _ else _) =
    (if y.toNat < 9223372036854775808 then _ else _) at h
  split at h <;> split at h <;> omega

end Binary64

end HandleBench
