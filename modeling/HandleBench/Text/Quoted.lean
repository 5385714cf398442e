import HandleBench.Text.Digits
import HandleBench.Text.Graphic

/-!
# Quoted texts

A text in quotes for people to read: a quote and a backslash are escaped, and so are the characters
that cannot be seen, some by a letter and the others by their number. What cannot be mistaken stands
for itself.
-/

namespace HandleBench.Text

/-- A character inside quotes. -/
def quotedChar (c : Char) : String :=
  match c with
  | '\x00' => "\\0"
  | '\t' => "\\t"
  | '\n' => "\\n"
  | '\r' => "\\r"
  | '"' => "\\\""
  | '\\' => "\\\\"
  | c => if isGraphic c then String.singleton c else "\\u\x7b" ++ hexDigits c.toNat ++ "\x7d"

/-- A text between quotes. -/
def quoted (text : String) : String := "\"" ++ String.join (text.toList.map quotedChar) ++ "\""

end HandleBench.Text
