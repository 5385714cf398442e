import HandleBench.Binary64

/-!
# Shortest decimals

The decimal with the fewest digits that reads back as a given number, and among those the nearest
to it. A finite number is `significand * 2 ^ exponent`; the reals that round to it form an interval
around it. On the grid of decimals with a given count of digits, one of the two neighbours of the
number lies in the interval if any point of the grid does, so the grids are tried from one digit
on. Where both neighbours lie in the interval and are equally near, the tie rule decides.

All arithmetic is exact: two points `a * 10 ^ g` and `b * 2 ^ s` are compared after both have been
multiplied by the powers that make them whole.
-/

namespace HandleBench.Decimal

/-- Which of two equally near neighbours is taken. -/
inductive Tie where
  /-- The one farther from zero. -/
  | away
  /-- The one whose last digit is even. -/
  | even
  deriving DecidableEq, Repr

/-- A decimal without sign: `digits * 10 ^ exponent`. -/
structure Unsigned where
  /-- The digits, as one natural number. -/
  digits : Nat
  /-- The power of ten of the last digit. -/
  exponent : Int
  deriving DecidableEq, Repr

/-- A finite number without sign: `significand * 2 ^ exponent`, with the width of its rounding
interval below. -/
structure Dyadic where
  /-- The significand, its leading bit included. -/
  significand : Nat
  /-- The power of two of the last bit. -/
  exponent : Int
  /-- The next smaller number is only half as far away as the next greater one. -/
  narrowBelow : Bool
  deriving DecidableEq, Repr

/-- The bit of a significand that its fraction leaves out, `2 ^ 52`. -/
def hiddenBit : Nat := 0x10000000000000

/-- The significand and exponent of a finite number; the sign is dropped. -/
def Dyadic.ofBinary64 (x : Binary64) : Dyadic :=
  let m : Nat := x.magnitude.toNat
  let fraction : Nat := m % hiddenBit
  let biased : Nat := m / hiddenBit
  if biased = 0 then ⟨fraction, -1074, false⟩
  else ⟨hiddenBit + fraction, (biased : Int) - 1075, fraction = 0 && 1 < biased⟩

/-- `a * 10 ^ g`, over the common unit of `10 ^ g` and `2 ^ s`. -/
def tenSide (a : Nat) (g s : Int) : Nat :=
  a * Nat.pow 10 g.toNat * Nat.pow 2 (-s).toNat

/-- `b * 2 ^ s`, over the common unit of `10 ^ g` and `2 ^ s`. -/
def twoSide (b : Nat) (g s : Int) : Nat :=
  b * Nat.pow 2 s.toNat * Nat.pow 10 (-g).toNat

/-- The count of decimal digits of `n`, one for zero. -/
def digitCount (n : Nat) : Nat := (Nat.toDigits 10 n).length

/-- The power of ten of the leading digit of `b * 2 ^ s`, for `b` not zero. -/
def leadingPlace (b : Nat) (s : Int) : Int :=
  let num := twoSide b 0 s
  let den := tenSide 1 0 s
  if den ≤ num then (digitCount (num / den) : Int) - 1
  else
    let d := digitCount (den / num)
    if den = num * Nat.pow 10 (d - 1) then 1 - (d : Int) else -(d : Int)

/-- The point of the grid `10 ^ g` that stands for the number: the nearer of those neighbours that
read back as it, if there is one. The number is `4 * significand` quarters of its last bit. -/
def onGrid? (x : Dyadic) (tie : Tie) (g : Int) : Option Nat :=
  let s := x.exponent - 2
  let unit := tenSide 1 g s
  let value := twoSide (4 * x.significand) g s
  let least := twoSide (4 * x.significand - if x.narrowBelow then 1 else 2) g s
  let greatest := twoSide (4 * x.significand + 2) g s
  let inclusive := x.significand % 2 = 0
  let down := value / unit
  let up := down + 1
  let downReads := if inclusive then least ≤ down * unit else least < down * unit
  let upReads := if inclusive then up * unit ≤ greatest else up * unit < greatest
  let below := value - down * unit
  let above := up * unit - value
  if downReads then
    if upReads then
      if below < above then some down
      else if above < below then some up
      else
        match tie with
        | .away => some up
        | .even => some (if down % 2 = 0 then down else up)
    else some down
  else if upReads then some up
  else none

/-- The digits without the zeros at their end, which go into the exponent. At most `fuel` zeros are
taken off. -/
def stripZeros : Nat → Unsigned → Unsigned
  | 0, d => d
  | fuel + 1, d =>
    if d.digits % 10 = 0 ∧ d.digits ≠ 0 then stripZeros fuel ⟨d.digits / 10, d.exponent + 1⟩ else d

/-- The first grid from `count` digits on that has a point for the number; `place` is the power of
ten of its leading digit. After `fuel` grids the number is cut off. -/
def searchGrids (x : Dyadic) (tie : Tie) (place : Int) : (fuel count : Nat) → Unsigned
  | 0, count =>
    let g := place - count + 1
    ⟨twoSide x.significand g x.exponent / tenSide 1 g x.exponent, g⟩
  | fuel + 1, count =>
    let g := place - count + 1
    match onGrid? x tie g with
    | some digits => ⟨digits, g⟩
    | none => searchGrids x tie place fuel (count + 1)

/-- The shortest decimal that reads back as the finite number `x`, its sign left aside. Seventeen
digits tell all numbers apart. -/
def shortest (tie : Tie) (x : Binary64) : Unsigned :=
  let d := Dyadic.ofBinary64 x
  if d.significand = 0 then ⟨0, 0⟩
  else stripZeros 18 (searchGrids d tie (leadingPlace d.significand d.exponent) 17 1)

/-- The quotient `num / den` rounded to the nearest whole number, a half to the even one. -/
def roundDiv (num den : Nat) : Nat :=
  let q := num / den
  let r := num % den
  if 2 * r < den then q
  else if den < 2 * r then q + 1
  else if q % 2 = 0 then q
  else q + 1

/-- The finite number `x` in units of `10 ^ (-places)`, rounded to the nearest whole number; its
sign is left aside. -/
def fixed (places : Nat) (x : Binary64) : Nat :=
  let d := Dyadic.ofBinary64 x
  let g := -(places : Int)
  roundDiv (twoSide d.significand g d.exponent) (tenSide 1 g d.exponent)

end HandleBench.Decimal
