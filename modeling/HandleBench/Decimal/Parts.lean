/-!
# Written numbers

The parts of a number as it stands in a text: a sign, digits before the point, digits behind it, and
an exponent. Digits are kept as their values, the most significant first.
-/

namespace HandleBench.Decimal

/-- A number as it is written. -/
structure Parts where
  /-- A minus sign stands in front. -/
  negative : Bool
  /-- The digits before the point. -/
  whole : List Nat
  /-- The digits behind the point; nothing without a point. -/
  fraction : Option (List Nat)
  /-- The sign of the exponent, true for a minus, and its digits; nothing without an exponent. -/
  exponent : Option (Bool × List Nat)
  deriving DecidableEq, Repr

/-- The decimal digits of a natural number. -/
def digitsOf (n : Nat) : List Nat := if n < 10 then [n] else digitsOf (n / 10) ++ [n % 10]

/-- Digits as characters. -/
def digitChars (digits : List Nat) : List Char := digits.map Nat.digitChar

namespace Parts

/-- A natural number, without point and exponent. -/
def ofNat (n : Nat) : Parts := ⟨false, digitsOf n, none, none⟩

/-- The characters of a written number. A positive exponent is marked if `plusSign` says so. -/
def chars (p : Parts) (plusSign : Bool) : List Char :=
  let sign := if p.negative then ['-'] else []
  let fraction := match p.fraction with
    | none => []
    | some digits => '.' :: digitChars digits
  let exponent := match p.exponent with
    | none => []
    | some (true, digits) => 'e' :: '-' :: digitChars digits
    | some (false, digits) =>
      if plusSign then 'e' :: '+' :: digitChars digits else 'e' :: digitChars digits
  sign ++ digitChars p.whole ++ fraction ++ exponent

end Parts

end HandleBench.Decimal
