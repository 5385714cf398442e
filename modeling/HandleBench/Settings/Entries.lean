import HandleBench.Text.Digits

/-!
# Settings texts

A settings text is a TOML document. No setting has a value other than a text or an integer, and
none is grouped, so the only documents that can be accepted consist of blank lines, comments and
entries `key = value` with a plain or quoted key and such a value. The reader here accepts exactly
these documents; tables, dotted keys, arrays, dates, floats and truth values are refused along with
everything that is no document at all.

Line ends are a line feed, with or without a carriage return before it. Control characters other
than the tabulator stand nowhere. An integer fits into 64 bits with sign.
-/

namespace HandleBench.Settings

/-- The value of an entry. -/
inductive Value where
  /-- A text. -/
  | text (content : String)
  /-- An integer. -/
  | integer (value : Int)
  deriving DecidableEq, Repr

/-- The blank characters within a line. -/
def isSpace (c : Char) : Bool := c == ' ' || c == '\t'

/-- The characters that may stand in a comment. -/
def isCommentChar (c : Char) : Bool :=
  c == '\t' || (0x20 ≤ c.toNat && c.toNat ≤ 0x7E) || 0x80 ≤ c.toNat

/-- The characters that stand for themselves between double quotes. -/
def isQuotedChar (c : Char) : Bool := isCommentChar c && c != '"' && c != '\\'

/-- The characters that stand for themselves between single quotes. -/
def isLiteralChar (c : Char) : Bool := isCommentChar c && c != '\''

/-- The characters of a plain key. -/
def isKeyChar (c : Char) : Bool :=
  ('a' ≤ c && c ≤ 'z') || ('A' ≤ c && c ≤ 'Z') || ('0' ≤ c && c ≤ '9') || c == '_' || c == '-'

/-- The characters without the blank ones at the front. -/
def skipSpace (cs : List Char) : List Char := cs.dropWhile isSpace

/-- The characters without the blank ones and line ends at the front. -/
def skipLines : List Char → List Char
  | '\r' :: '\n' :: rest => skipLines rest
  | '\n' :: rest => skipLines rest
  | c :: rest => if isSpace c then skipLines rest else c :: rest
  | [] => []

/-- The characters behind a line end. -/
def lineEnd? : List Char → Option (List Char)
  | '\n' :: rest => some rest
  | '\r' :: '\n' :: rest => some rest
  | _ => none

/-- The character with the given number, unless that is a surrogate or too great. -/
def charOfCode? (n : Nat) : Option Char :=
  if h : n.isValidChar then some (Char.ofNatAux n h) else none

/-- The character that hexadecimal digits give the number of. -/
def charOfHex? (digits : List Char) : Option Char := do
  let values ← digits.mapM Text.hexValue?
  charOfCode? (Text.ofDigits 16 values)

/-- The character that a letter stands for behind a backslash. -/
def escapes : List (Char × Char) :=
  [('b', '\x08'), ('t', '\t'), ('n', '\n'), ('f', '\x0c'), ('r', '\r'), ('"', '"'), ('\\', '\\')]

/-- Skipping lines takes no characters on. -/
theorem length_skipLines_le (cs : List Char) : (skipLines cs).length ≤ cs.length := by
  fun_induction skipLines cs with
  | case1 _ ih => simp only [List.length_cons]; omega
  | case2 _ ih => simp only [List.length_cons]; omega
  | case3 _ _ _ _ _ ih => simp only [List.length_cons]; omega
  | case4 => exact Nat.le_refl _
  | case5 => exact Nat.le_refl _

/-- One more character in front of what has been read; what remains stays. -/
def push (c : Char) (reading : Option (List Char × List Char)) : Option (List Char × List Char) :=
  reading.map fun (body, rest) => (c :: body, rest)

/-- The content of a text on one line between double quotes, from behind the opening quote. -/
def quotedBody : List Char → Option (List Char × List Char)
  | '"' :: rest => some ([], rest)
  | '\\' :: 'u' :: a :: b :: c :: d :: rest =>
    match charOfHex? [a, b, c, d] with
    | some char => push char (quotedBody rest)
    | none => none
  | '\\' :: 'U' :: a :: b :: c :: d :: e :: f :: g :: h :: rest =>
    match charOfHex? [a, b, c, d, e, f, g, h] with
    | some char => push char (quotedBody rest)
    | none => none
  | '\\' :: letter :: rest =>
    match escapes.lookup letter with
    | some char => push char (quotedBody rest)
    | none => none
  | c :: rest =>
    if isQuotedChar c then push c (quotedBody rest) else none
  | [] => none

/-- The content of a text over several lines between triple double quotes, from behind the opening
quotes. Up to two quotes may stand before the closing three. A backslash at the end of a line takes
away that line end and all blanks and line ends behind it. -/
def quotedLines (cs : List Char) : Option (List Char × List Char) :=
  match cs with
  | '"' :: '"' :: '"' :: '"' :: '"' :: rest => some (['"', '"'], rest)
  | '"' :: '"' :: '"' :: '"' :: rest => some (['"'], rest)
  | '"' :: '"' :: '"' :: rest => some ([], rest)
  | '"' :: rest => push '"' (quotedLines rest)
  | '\r' :: '\n' :: rest => push '\n' (quotedLines rest)
  | '\n' :: rest => push '\n' (quotedLines rest)
  | '\\' :: 'u' :: a :: b :: c :: d :: rest =>
    match charOfHex? [a, b, c, d] with
    | some char => push char (quotedLines rest)
    | none => none
  | '\\' :: 'U' :: a :: b :: c :: d :: e :: f :: g :: h :: rest =>
    match charOfHex? [a, b, c, d, e, f, g, h] with
    | some char => push char (quotedLines rest)
    | none => none
  | '\\' :: letter :: rest =>
    match escapes.lookup letter with
    | some char => push char (quotedLines rest)
    | none =>
      if (lineEnd? (skipSpace (letter :: rest))).isSome then
        quotedLines (skipLines (letter :: rest))
      else none
  | c :: rest =>
    if isQuotedChar c then push c (quotedLines rest) else none
  | [] => none
termination_by cs.length
decreasing_by
  all_goals simp only [List.length_cons]
  all_goals first
    | omega
    | exact Nat.lt_succ_of_le (length_skipLines_le _)

/-- The content of a text on one line between single quotes, from behind the opening quote. -/
def literalBody : List Char → Option (List Char × List Char)
  | '\'' :: rest => some ([], rest)
  | c :: rest =>
    if isLiteralChar c then push c (literalBody rest) else none
  | [] => none

/-- The content of a text over several lines between triple single quotes, from behind the opening
quotes. Up to two quotes may stand before the closing three. -/
def literalLines : List Char → Option (List Char × List Char)
  | '\'' :: '\'' :: '\'' :: '\'' :: '\'' :: rest => some (['\'', '\''], rest)
  | '\'' :: '\'' :: '\'' :: '\'' :: rest => some (['\''], rest)
  | '\'' :: '\'' :: '\'' :: rest => some ([], rest)
  | '\'' :: rest => push '\'' (literalLines rest)
  | '\r' :: '\n' :: rest => push '\n' (literalLines rest)
  | '\n' :: rest => push '\n' (literalLines rest)
  | c :: rest =>
    if isLiteralChar c then push c (literalLines rest) else none
  | [] => none

/-- The line end directly behind opening triple quotes is no part of the text. -/
def dropFirstLineEnd (cs : List Char) : List Char := (lineEnd? cs).getD cs

/-- A text between quotes of any of the four kinds. -/
def quoted : List Char → Option (List Char × List Char)
  | '"' :: '"' :: '"' :: rest => quotedLines (dropFirstLineEnd rest)
  | '"' :: rest => quotedBody rest
  | '\'' :: '\'' :: '\'' :: rest => literalLines (dropFirstLineEnd rest)
  | '\'' :: rest => literalBody rest
  | _ => none

/-- The key of an entry: plain, or a text on one line between quotes. -/
def key : List Char → Option (List Char × List Char)
  | '"' :: rest => quotedBody rest
  | '\'' :: rest => literalBody rest
  | cs =>
    let name := cs.takeWhile isKeyChar
    if name.isEmpty then none else some (name, cs.dropWhile isKeyChar)

/-- Digits of a base, with single underscores between them. -/
def digits (value? : Char → Option Nat) : List Char → List Nat × List Char
  | '_' :: c :: rest =>
    match value? c with
    | some d => ((d :: (digits value? rest).1), (digits value? rest).2)
    | none => ([], '_' :: c :: rest)
  | c :: rest =>
    match value? c with
    | some d => ((d :: (digits value? rest).1), (digits value? rest).2)
    | none => ([], c :: rest)
  | [] => ([], [])

/-- The digits of a base, at least one of them and the first without an underscore before it. -/
def someDigits (value? : Char → Option Nat) : List Char → Option (List Nat × List Char)
  | '_' :: _ => none
  | cs =>
    match digits value? cs with
    | ([], _) => none
    | found => some found

/-- The value of a digit of the base `base`, at most sixteen. -/
def digitBelow? (base : Nat) (c : Char) : Option Nat :=
  match Text.hexValue? c with
  | some d => if d < base then some d else none
  | none => none

/-- An unsigned number in the given base. -/
def unsignedIn (base : Nat) (cs : List Char) : Option (Nat × List Char) := do
  let (values, rest) ← someDigits (digitBelow? base) cs
  return (Text.ofDigits base values, rest)

/-- An unsigned decimal number; one that begins with zero has no other digit. -/
def unsignedDecimal : List Char → Option (Nat × List Char)
  | '0' :: rest => some (0, rest)
  | cs => unsignedIn 10 cs

/-- An integer: decimal with an optional sign, or in another base behind its mark. -/
def integer : List Char → Option (Int × List Char)
  | '0' :: 'x' :: rest => do
    let (n, rest) ← unsignedIn 16 rest
    return (n, rest)
  | '0' :: 'o' :: rest => do
    let (n, rest) ← unsignedIn 8 rest
    return (n, rest)
  | '0' :: 'b' :: rest => do
    let (n, rest) ← unsignedIn 2 rest
    return (n, rest)
  | '+' :: rest => do
    let (n, rest) ← unsignedDecimal rest
    return (n, rest)
  | '-' :: rest => do
    let (n, rest) ← unsignedDecimal rest
    return (-(n : Int), rest)
  | cs => do
    let (n, rest) ← unsignedDecimal cs
    return (n, rest)

/-- The value of an entry. -/
def value (cs : List Char) : Option (Value × List Char) :=
  match quoted cs with
  | some (content, rest) => some (.text (String.ofList content), rest)
  | none =>
    match integer cs with
    | some (n, rest) =>
      if -9223372036854775808 ≤ n ∧ n ≤ 9223372036854775807 then some (.integer n, rest) else none
    | none => none

/-- The rest of a line: blanks, perhaps a comment, and the line end or the end of the text. -/
def restOfLine (cs : List Char) : Option (List Char) :=
  let cs := skipSpace cs
  let cs := match cs with
    | '#' :: comment => comment.dropWhile isCommentChar
    | _ => cs
  if cs.isEmpty then some [] else lineEnd? cs

/-- An entry and the rest of its line. -/
def entry (cs : List Char) : Option ((String × Value) × List Char) := do
  let (name, rest) ← key cs
  match skipSpace rest with
  | '=' :: rest =>
    let (value, rest) ← value (skipSpace rest)
    let rest ← restOfLine rest
    return ((String.ofList name, value), rest)
  | _ => none

/-- The entries of a document, in order. A line that is neither blank nor a comment is an entry.
Every line takes up one of `fuel`. -/
def entriesFrom : Nat → List Char → Option (List (String × Value))
  | 0, _ => none
  | fuel + 1, cs =>
    match skipSpace cs with
    | [] => some []
    | c :: line =>
      if c = '#' ∨ c = '\n' ∨ c = '\r' then (restOfLine (c :: line)).bind (entriesFrom fuel)
      else
        match entry (c :: line) with
        | some (found, rest) => (entriesFrom fuel rest).map (found :: ·)
        | none => none

/-- The entries of a settings text; a byte order mark may stand before them. No line is without a
character, so the lines that are looked at always suffice. -/
def entries (text : String) : Option (List (String × Value)) :=
  match text.toList with
  | '\uFEFF' :: rest => entriesFrom (rest.length + 1) rest
  | cs => entriesFrom (cs.length + 1) cs

/-- No key occurs twice. -/
def distinctKeys (found : List (String × Value)) : Bool := (found.map (·.1)).Nodup

end HandleBench.Settings
