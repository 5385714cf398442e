/-!
# UTF-8

Characters as octets and back. Writing is the standard encoding. Reading goes one character at a
time: a sequence of octets either starts with a character, or with a *defect*, the longest prefix
that no character's encoding can be told from, or it stops inside a character. From the one reader
come the strict decoding, which reports the first defect and where it is, and the forgiving one,
which puts one replacement character in the place of each defect.
-/

namespace HandleBench

/-- A sequence of octets. -/
abbrev Octets := List UInt8

namespace Text.Utf8

/-- The octets of a text. -/
def encode (text : String) : Octets := text.toList.flatMap String.utf8EncodeChar

/-- What the front of a sequence of octets holds. -/
inductive Front where
  /-- Nothing: the sequence is empty. -/
  | done
  /-- A character, and the octets behind it. -/
  | char (c : Char) (rest : Octets)
  /-- `length` octets that start no character, and the octets behind them. -/
  | defect (length : Nat) (rest : Octets)
  /-- The beginning of a character, cut off by the end of the sequence. -/
  | cut
  deriving DecidableEq

/-- The least and the greatest octet that may stand second after the lead octet `lead` of a
character of three or four octets. The limits keep out overlong forms, surrogates and everything
above U+10FFFF. -/
def secondRange (lead : UInt8) : UInt8 × UInt8 :=
  if lead = 0xE0 then (0xA0, 0xBF)
  else if lead = 0xED then (0x80, 0x9F)
  else if lead = 0xF0 then (0x90, 0xBF)
  else if lead = 0xF4 then (0x80, 0x8F)
  else (0x80, 0xBF)

/-- An octet that may continue a character. -/
def isTail (b : UInt8) : Bool := 0x80 ≤ b && b ≤ 0xBF

/-- The six bits that a continuing octet contributes. -/
def tailBits (b : UInt8) : Nat := b.toNat - 0x80

/-- Reads the front of a sequence of octets. -/
def front : Octets → Front
  | [] => .done
  | a :: rest =>
    if a < 0x80 then .char (Char.ofNat a.toNat) rest
    else if 0xC2 ≤ a && a ≤ 0xDF then
      match rest with
      | [] => .cut
      | b :: rest =>
        if isTail b then .char (Char.ofNat ((a.toNat - 0xC0) * 64 + tailBits b)) rest
        else .defect 1 (b :: rest)
    else if 0xE0 ≤ a && a ≤ 0xEF then
      match rest with
      | [] => .cut
      | b :: rest =>
        if (secondRange a).1 ≤ b && b ≤ (secondRange a).2 then
          match rest with
          | [] => .cut
          | c :: rest =>
            if isTail c then
              .char (Char.ofNat (((a.toNat - 0xE0) * 64 + tailBits b) * 64 + tailBits c)) rest
            else .defect 2 (c :: rest)
        else .defect 1 (b :: rest)
    else if 0xF0 ≤ a && a ≤ 0xF4 then
      match rest with
      | [] => .cut
      | b :: rest =>
        if (secondRange a).1 ≤ b && b ≤ (secondRange a).2 then
          match rest with
          | [] => .cut
          | c :: rest =>
            if isTail c then
              match rest with
              | [] => .cut
              | d :: rest =>
                if isTail d then
                  let lead := (a.toNat - 0xF0) * 64 + tailBits b
                  .char (Char.ofNat ((lead * 64 + tailBits c) * 64 + tailBits d)) rest
                else .defect 3 (d :: rest)
            else .defect 2 (c :: rest)
        else .defect 1 (b :: rest)
    else .defect 1 rest

/-- A character leaves fewer octets. -/
theorem front_char_length {bytes : Octets} {c : Char} {rest : Octets}
    (h : front bytes = .char c rest) : rest.length < bytes.length := by
  unfold front at h
  repeat' split at h
  all_goals simp_all
  all_goals omega

/-- A defect leaves fewer octets. -/
theorem front_defect_length {bytes : Octets} {n : Nat} {rest : Octets}
    (h : front bytes = .defect n rest) : rest.length < bytes.length := by
  unfold front at h
  repeat' split at h
  all_goals simp_all
  all_goals omega

/-- The replacement character, U+FFFD. -/
def replacement : Char := '\uFFFD'

/-- The characters of a sequence of octets, with one replacement character for each defect and one
for a character that the end cuts off. -/
def forgive (bytes : Octets) : List Char :=
  match _h : front bytes with
  | .done => []
  | .char c rest => c :: forgive rest
  | .defect _ rest => replacement :: forgive rest
  | .cut => [replacement]
termination_by bytes.length
decreasing_by
  · exact front_char_length _h
  · exact front_defect_length _h

/-- The forgiving decoding, as a text. -/
def decodeForgiving (bytes : Octets) : String := String.ofList (forgive bytes)

/-- Why octets are not a text, and the index of the first octet that is at fault. -/
inductive Defect where
  /-- `length` octets from `index` on start no character. -/
  | invalid (length index : Nat)
  /-- The end cuts off the character that starts at `index`. -/
  | incomplete (index : Nat)
  deriving DecidableEq, Repr

/-- The sentence that describes a defect. -/
def Defect.message : Defect → String
  | .invalid length index =>
    s!"invalid utf-8 sequence of {length} bytes from index {index}"
  | .incomplete index => s!"incomplete utf-8 byte sequence from index {index}"

/-- The characters of a sequence of octets that starts at `index`, or its first defect. -/
def decodeFrom (index : Nat) (bytes : Octets) : Except Defect (List Char) :=
  match _h : front bytes with
  | .done => .ok []
  | .char c rest => (decodeFrom (index + c.utf8Size) rest).map (c :: ·)
  | .defect n _ => .error (.invalid n index)
  | .cut => .error (.incomplete index)
termination_by bytes.length
decreasing_by exact front_char_length _h

/-- The strict decoding: the text, or the first defect. -/
def decode (bytes : Octets) : Except Defect String := (decodeFrom 0 bytes).map String.ofList

end Text.Utf8

end HandleBench
