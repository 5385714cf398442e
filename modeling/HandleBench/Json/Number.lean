import HandleBench.Binary64
import HandleBench.Json
import HandleBench.Text.Digits

/-!
# The worth of a written number

Written without point and exponent, a number is an integer if it fits into 64 bits, and only such a
number counts where an integer is asked for. Everywhere else a number is worth the double-precision
number that one finds like this: as many of its digits as fit into a 64-bit word are taken, what
comes behind them is dropped and leaves only its places; the word is rounded, and then multiplied or
divided by powers of ten up to 10^308, each step rounded. A number too great to be finite is
refused.
-/

namespace HandleBench.Decimal.Parts

/-- The digits that `value`, followed by digits, can take on without exceeding 64 bits, and those
left over. -/
def takeDigits (value : Nat) : List Nat → Nat × List Nat
  | [] => (value, [])
  | d :: digits =>
    if value * 10 + d < UInt64.size then takeDigits (value * 10 + d) digits
    else (value, d :: digits)

/-- The natural number that is written, if it is below 2^64 and written without sign, point and
exponent. -/
def word? (n : Parts) : Option UInt64 :=
  match n with
  | ⟨false, whole, none, none⟩ =>
    match takeDigits 0 whole with
    | (value, []) => some (.ofNat value)
    | _ => none
  | _ => none

/-- A power of ten, at most 10^308, rounded. -/
def powerOfTen (n : Nat) : Binary64 := .ofFloat (Float.ofScientific 1 false n)

/-- Zero, of either sign. -/
def isZero (x : Binary64) : Bool := x.magnitude == 0

/-- A number times a power of ten, unless that is too great. -/
def scaleUp (x : Binary64) (n : Nat) : Option Binary64 :=
  if n ≤ 308 then
    let y := x * powerOfTen n
    if y.isInfinite then none else some y
  else if isZero x then some x
  else none

/-- A number divided by a power of ten. -/
def scaleDown (x : Binary64) (n : Nat) : Binary64 :=
  if n ≤ 308 then x / powerOfTen n
  else if isZero x then x
  else scaleDown (x / powerOfTen 308) (n - 308)
termination_by n

/-- A number times a power of ten with a signed exponent. -/
def scale (x : Binary64) : Int → Option Binary64
  | .ofNat n => scaleUp x n
  | .negSucc n => some (scaleDown x (n + 1))

/-- The signed exponent that is written. -/
def writtenExponent (n : Parts) : Int :=
  match n.exponent with
  | none => 0
  | some (negative, digits) =>
    let size : Int := Text.ofDigits 10 digits
    if negative then -size else size

/-- The double-precision number that is written, unless it is too great. -/
def binary64? (n : Parts) : Option Binary64 :=
  let (value, left) := takeDigits 0 n.whole
  let places := n.fraction.getD []
  let (value, dropped) := takeDigits value places
  let exponent := n.writtenExponent + left.length - (places.length - dropped.length : Nat)
  (scale (.ofUInt64 (.ofNat value)) exponent).map fun x => if n.negative then x.neg else x

end HandleBench.Decimal.Parts

namespace HandleBench.Json

/-- A natural number of 64 bits. -/
def word64? : Json → Option UInt64
  | number parts => parts.word?
  | _ => none

/-- A natural number of 32 bits. -/
def word32? (value : Json) : Option UInt32 := do
  let n ← value.word64?
  if n.toNat < UInt32.size then some n.toUInt32 else none

/-- A double-precision number, told what written numbers are worth. -/
def binary64? (worth : Decimal.Parts → Option Binary64) : Json → Option Binary64
  | number parts => worth parts
  | _ => none

end HandleBench.Json
