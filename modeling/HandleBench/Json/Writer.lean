import HandleBench.Decimal.Layout
import HandleBench.Json

/-!
# Writing interchange texts

A value is written over several lines, each nested level indented by two more blanks; an array or an
object without content stays on its line. Texts are quoted: a quote, a backslash and the control
characters are escaped, the latter by a letter where there is one, and all else stands for itself.
-/

namespace HandleBench.Json

/-- The number in the interchange layout. A number that is not finite is `null`. -/
def ofBinary64 (x : Binary64) : Json :=
  if x.isFinite then number (Decimal.Layout.interchange.parts x) else null

/-- A natural number. -/
def ofNat (n : Nat) : Json := number (.ofNat n)

/-- A text. -/
def ofString (content : String) : Json := string (some content)

/-- An object of members that have proper names. -/
def ofMembers (members : List (String × Json)) : Json :=
  object (members.map fun (name, value) => (some name, value))

/-- A control character by its number, in four hexadecimal digits. -/
def unitEscape (n : Nat) : List Char :=
  ['\\', 'u', '0', '0', Nat.digitChar (n / 16), Nat.digitChar (n % 16)]

/-- A character inside quotes. -/
def quotedChar (c : Char) : List Char :=
  match c with
  | '"' => ['\\', '"']
  | '\\' => ['\\', '\\']
  | '\x08' => ['\\', 'b']
  | '\x0c' => ['\\', 'f']
  | '\n' => ['\\', 'n']
  | '\r' => ['\\', 'r']
  | '\t' => ['\\', 't']
  | c => if c.toNat < 0x20 then unitEscape c.toNat else [c]

/-- A text between quotes. -/
def quoted (content : List Char) : List Char := '"' :: content.flatMap quotedChar ++ ['"']

/-- A new line at a nesting level. -/
def newLine (level : Nat) : List Char := '\n' :: List.replicate (2 * level) ' '

/-- Lines at a nesting level with commas between them. -/
def block (level : Nat) : List (List Char) → List Char
  | [] => []
  | [line] => newLine level ++ line
  | line :: lines => newLine level ++ line ++ ',' :: block level lines

/-- A text that cannot be read is written as an empty one. -/
def contentChars (content : Option String) : List Char := (content.getD "").toList

mutual

/-- The characters of a value at a nesting level. -/
def chars (level : Nat) : Json → List Char
  | null => "null".toList
  | bool true => "true".toList
  | bool false => "false".toList
  | number parts => parts.chars Decimal.Layout.interchange.plusSign
  | string content => quoted (contentChars content)
  | array [] => ['[', ']']
  | array (e :: es) =>
    '[' :: block (level + 1) (elementLines (level + 1) (e :: es)) ++ newLine level ++ [']']
  | object [] => ['\x7b', '\x7d']
  | object (m :: ms) =>
    '\x7b' :: block (level + 1) (memberLines (level + 1) (m :: ms)) ++ newLine level ++ ['\x7d']

/-- The lines of elements. -/
def elementLines (level : Nat) : List Json → List (List Char)
  | [] => []
  | element :: elements => chars level element :: elementLines level elements

/-- The lines of members. -/
def memberLines (level : Nat) : List (Option String × Json) → List (List Char)
  | [] => []
  | (name, value) :: members =>
    (quoted (contentChars name) ++ ':' :: ' ' :: chars level value) :: memberLines level members

end

/-- The text of a value. -/
def write (value : Json) : String := String.ofList (value.chars 0)

end HandleBench.Json
