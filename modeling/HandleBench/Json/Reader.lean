import HandleBench.Json
import HandleBench.Text.Digits

/-!
# Reading interchange texts

A text is one value, with blanks around it. The reader follows the grammar and builds the value; it
does not ask what a number is worth, and it takes half of a surrogate pair for a text that cannot be
read, not for a fault of the grammar.
-/

namespace HandleBench.Json

/-- The blank characters between values. -/
def isGap (c : Char) : Bool := c == ' ' || c == '\n' || c == '\t' || c == '\r'

/-- The characters without the blank ones at the front. -/
def skipGap (cs : List Char) : List Char := cs.dropWhile isGap

/-! ### Texts -/

/-- The character that a letter stands for behind a backslash. -/
def escapes : List (Char × Char) :=
  [('"', '"'), ('\\', '\\'), ('/', '/'), ('b', '\x08'), ('f', '\x0c'), ('n', '\n'), ('r', '\r'),
    ('t', '\t')]

/-- The number that four hexadecimal digits spell. -/
def unit? (a b c d : Char) : Option Nat := do
  return Text.ofDigits 16 [← Text.hexValue? a, ← Text.hexValue? b, ← Text.hexValue? c,
    ← Text.hexValue? d]

/-- The number is the first half of a surrogate pair. -/
def isHighHalf (n : Nat) : Bool := 0xD800 ≤ n && n < 0xDC00

/-- The number is the second half of a surrogate pair. -/
def isLowHalf (n : Nat) : Bool := 0xDC00 ≤ n && n < 0xE000

/-- What a 16-bit unit stands for on its own: a character, or nothing if it is half of a pair. -/
def ofUnit (n : Nat) : Option Char := if isHighHalf n || isLowHalf n then none else some (.ofNat n)

/-- One more character, or the half of one, before a body. -/
def push (c : Option Char) : Option (List (Option Char) × List Char) →
    Option (List (Option Char) × List Char)
  | some (body, rest) => some (c :: body, rest)
  | none => none

/-- The body of a text up to its closing quote, nothing in the place of each half of a surrogate
pair without its counterpart. -/
def stringBody : List Char → Option (List (Option Char) × List Char)
  | '"' :: rest => some ([], rest)
  | '\\' :: 'u' :: a :: b :: c :: d :: '\\' :: 'u' :: e :: f :: g :: h :: rest =>
    match unit? a b c d, unit? e f g h with
    | some high, some low =>
      if isHighHalf high && isLowHalf low then
        push (some (.ofNat (0x10000 + (high - 0xD800) * 0x400 + (low - 0xDC00))))
          (stringBody rest)
      else push (ofUnit high) (stringBody ('\\' :: 'u' :: e :: f :: g :: h :: rest))
    | _, _ => none
  | '\\' :: 'u' :: a :: b :: c :: d :: rest =>
    match unit? a b c d with
    | some n => push (ofUnit n) (stringBody rest)
    | none => none
  | '\\' :: letter :: rest =>
    match escapes.lookup letter with
    | some c => push (some c) (stringBody rest)
    | none => none
  | c :: rest => if c.toNat < 0x20 || c == '\\' then none else push (some c) (stringBody rest)
  | [] => none

/-- The text of a body, if no half of a surrogate pair stands alone in it. -/
def contentOf (body : List (Option Char)) : Option String := (body.mapM id).map String.ofList

/-! ### Numbers -/

/-- The digits at the front. -/
def digits : List Char → List Nat × List Char
  | c :: rest =>
    match Text.digitValue? c with
    | some d => (d :: (digits rest).1, (digits rest).2)
    | none => ([], c :: rest)
  | [] => ([], [])

/-- The digits at the front, at least one. -/
def someDigits (cs : List Char) : Option (List Nat × List Char) :=
  match digits cs with
  | ([], _) => none
  | found => some found

/-- The digits before the point; behind a zero at the front there are no others. -/
def wholePart (cs : List Char) : Option (List Nat × List Char) :=
  match digits cs with
  | ([], _) => none
  | (0 :: _ :: _, _) => none
  | found => some found

/-- The digits behind a point, if there is one. -/
def fractionPart : List Char → Option (Option (List Nat) × List Char)
  | '.' :: rest => (someDigits rest).map fun (found, rest) => (some found, rest)
  | cs => some (none, cs)

/-- The sign of an exponent, true for a minus. -/
def exponentSign : List Char → Bool × List Char
  | '+' :: rest => (false, rest)
  | '-' :: rest => (true, rest)
  | cs => (false, cs)

/-- The exponent, if there is one. -/
def exponentPart : List Char → Option (Option (Bool × List Nat) × List Char)
  | c :: rest =>
    if c == 'e' || c == 'E' then
      let (negative, rest) := exponentSign rest
      (someDigits rest).map fun (found, rest) => (some (negative, found), rest)
    else some (none, c :: rest)
  | [] => some (none, [])

/-- A number. -/
def numberFrom (cs : List Char) : Option (Decimal.Parts × List Char) := do
  let (negative, cs) := match cs with
    | '-' :: rest => (true, rest)
    | cs => (false, cs)
  let (whole, cs) ← wholePart cs
  let (fraction, cs) ← fractionPart cs
  let (exponent, cs) ← exponentPart cs
  return (⟨negative, whole, fraction, exponent⟩, cs)

/-! ### Values -/

mutual

/-- A value, blanks before it left out. Every step takes up one of `fuel`. -/
def valueFrom : Nat → List Char → Option (Json × List Char)
  | 0, _ => none
  | fuel + 1, cs =>
    match skipGap cs with
    | 'n' :: 'u' :: 'l' :: 'l' :: rest => some (null, rest)
    | 't' :: 'r' :: 'u' :: 'e' :: rest => some (bool true, rest)
    | 'f' :: 'a' :: 'l' :: 's' :: 'e' :: rest => some (bool false, rest)
    | '"' :: rest => (stringBody rest).map fun (body, rest) => (string (contentOf body), rest)
    | '[' :: rest =>
      match skipGap rest with
      | ']' :: rest => some (array [], rest)
      | rest => (elementsFrom fuel rest).map fun (elements, rest) => (array elements, rest)
    | '\x7b' :: rest =>
      match skipGap rest with
      | '\x7d' :: rest => some (object [], rest)
      | rest => (membersFrom fuel rest).map fun (members, rest) => (object members, rest)
    | rest => (numberFrom rest).map fun (parts, rest) => (number parts, rest)

/-- The elements of an array up to its closing bracket. -/
def elementsFrom : Nat → List Char → Option (List Json × List Char)
  | 0, _ => none
  | fuel + 1, cs =>
    match valueFrom fuel cs with
    | none => none
    | some (element, rest) =>
      match skipGap rest with
      | ']' :: rest => some ([element], rest)
      | ',' :: rest =>
        (elementsFrom fuel rest).map fun (elements, rest) => (element :: elements, rest)
      | _ => none

/-- The members of an object up to its closing brace. -/
def membersFrom : Nat → List Char → Option (List (Option String × Json) × List Char)
  | 0, _ => none
  | fuel + 1, cs =>
    match skipGap cs with
    | '"' :: rest =>
      match stringBody rest with
      | none => none
      | some (body, rest) =>
        match skipGap rest with
        | ':' :: rest =>
          match valueFrom fuel rest with
          | none => none
          | some (value, rest) =>
            match skipGap rest with
            | '\x7d' :: rest => some ([(contentOf body, value)], rest)
            | ',' :: rest =>
              (membersFrom fuel rest).map fun (members, rest) =>
                ((contentOf body, value) :: members, rest)
            | _ => none
        | _ => none
    | _ => none

end

/-- The value that a text is. No two steps of the reader are without a character between them, so
the steps that it is given always suffice. -/
def read? (text : String) : Option Json :=
  match valueFrom (2 * text.length + 2) text.toList with
  | some (value, rest) => if (skipGap rest).isEmpty then some value else none
  | none => none

end HandleBench.Json
