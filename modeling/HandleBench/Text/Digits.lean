/-!
# Digits

The plain spellings of numbers: decimal, and lower-case hexadecimal after the mark of its base.
-/

namespace HandleBench.Text

/-- `n` in base sixteen, lower case, without padding. -/
def hexDigits (n : Nat) : String := String.ofList (Nat.toDigits 16 n)

/-- `n` in base sixteen behind the mark of the base, as in `0x2f`. -/
def hex (n : Nat) : String := "0x" ++ hexDigits n

/-- The value of a hexadecimal digit, in either case. -/
def hexValue? (c : Char) : Option Nat :=
  if '0' ≤ c ∧ c ≤ '9' then some (c.toNat - '0'.toNat)
  else if 'a' ≤ c ∧ c ≤ 'f' then some (c.toNat - 'a'.toNat + 10)
  else if 'A' ≤ c ∧ c ≤ 'F' then some (c.toNat - 'A'.toNat + 10)
  else none

/-- The value of a decimal digit. -/
def digitValue? (c : Char) : Option Nat :=
  if '0' ≤ c ∧ c ≤ '9' then some (c.toNat - '0'.toNat) else none

/-- The number that a list of digit values spells in the given base, the first digit the most
significant. -/
def ofDigits (base : Nat) (digits : List Nat) : Nat :=
  digits.foldl (fun n d => n * base + d) 0

/-- Reads a whole text as a natural number below `bound`: an optional plus sign, then one or more
decimal digits and nothing else. -/
def readNat? (bound : Nat) (text : String) : Option Nat :=
  let digits := match text.toList with
    | '+' :: rest => rest
    | all => all
  if digits.isEmpty then none
  else do
    let values ← digits.mapM digitValue?
    let n := ofDigits 10 values
    if n < bound then some n else none

end HandleBench.Text
