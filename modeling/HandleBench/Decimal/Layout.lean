import HandleBench.Decimal.Parts
import HandleBench.Decimal.Shortest

/-!
# Decimal layouts

How a number is written out. A layout says which numbers are written positionally and how the
exponent of the others looks; the digits are the shortest that read back. Three layouts are in use:
one for people reading a parameter, one for the interchange format of reports, and the bare
exponent form. Times are written with a fixed count of places instead.
-/

namespace HandleBench.Decimal

/-- The decisions of a way to write numbers. -/
structure Layout where
  /-- The least place of a leading digit that is written positionally. -/
  leastPlace : Int
  /-- The first place of a leading digit that is too great to be written positionally. -/
  firstLargePlace : Int
  /-- A positive exponent carries a plus sign. -/
  plusSign : Bool
  /-- Which of two equally near shortest decimals is written. -/
  tie : Tie

/-- Parameters are written positionally from 0.0001 up to 10^16. -/
def Layout.parameter : Layout := ⟨-4, 16, false, .away⟩

/-- The interchange format is positional from 0.00001 up to 10^16 and marks positive exponents. -/
def Layout.interchange : Layout := ⟨-5, 16, true, .even⟩

/-- Every number is written with an exponent. -/
def Layout.scientific : Layout := ⟨0, 0, false, .away⟩

/-- `n` zeros. -/
def zeros (n : Nat) : List Nat := List.replicate n 0

/-- Digits with the point after the one at `place`, counted from zero; a whole number gets one zero
behind the point, and a number below one a zero before it. -/
def positional (negative : Bool) (digits : List Nat) (place : Int) : Parts :=
  if place < 0 then ⟨negative, [0], some (zeros (-place - 1).toNat ++ digits), none⟩
  else
    let whole := place.toNat + 1
    if digits.length ≤ whole then
      ⟨negative, digits ++ zeros (whole - digits.length), some [0], none⟩
    else ⟨negative, digits.take whole, some (digits.drop whole), none⟩

/-- Digits with the point after the first of them, and the place of that digit as exponent. -/
def withExponent (negative : Bool) (digits : List Nat) (place : Int) : Parts :=
  let fraction := match digits.drop 1 with
    | [] => none
    | rest => some rest
  ⟨negative, digits.take 1, fraction, some (place < 0, digitsOf place.natAbs)⟩

/-- A finite number as it is written in a layout. -/
def Layout.parts (layout : Layout) (x : Binary64) : Parts :=
  let d := shortest layout.tie x
  let digits := digitsOf d.digits
  let place := d.exponent + digits.length - 1
  if layout.leastPlace ≤ place ∧ place < layout.firstLargePlace then
    positional x.isNegative digits place
  else withExponent x.isNegative digits place

/-- The text of a finite number in a layout. -/
def Layout.write (layout : Layout) (x : Binary64) : String :=
  String.ofList ((layout.parts x).chars layout.plusSign)

/-- The text of any number in a layout, infinities and NaNs by their names. -/
def Layout.writeAny (layout : Layout) (x : Binary64) : String :=
  if x.isNaN then "NaN"
  else if x.isInfinite then (if x.isNegative then "-inf" else "inf")
  else layout.write x

/-- The text of a finite number with a fixed, positive count of places. -/
def writeFixed (places : Nat) (x : Binary64) : String :=
  if x.isNaN then "NaN"
  else if x.isInfinite then (if x.isNegative then "-inf" else "inf")
  else
    let n := fixed places x
    let sign := if x.isNegative then "-" else ""
    let fraction := digitsOf (n % Nat.pow 10 places)
    sign ++ toString (n / Nat.pow 10 places) ++ "." ++
      String.ofList (digitChars (zeros (places - fraction.length) ++ fraction))

end HandleBench.Decimal
