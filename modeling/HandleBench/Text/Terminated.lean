import HandleBench.Text.Utf8

/-!
# Terminated text

Text in a buffer of fixed size ends at its first zero octet. Copying writes as many octets as leave
room for the terminator, cuts the rest off (inside a character, if it comes to that) and does not
touch the octets behind the terminator. A copy says how much room the whole text takes, so a caller
can ask for the size first, with no buffer, and copy afterwards.

The same rule fills a *name field*, 256 octets that are all zero behind the name.
-/

namespace HandleBench.Text

/-- `buffer` after `text` has been copied to its front and terminated. A buffer without room for
the terminator stays as it is. -/
def copyInto (buffer text : Octets) : Octets :=
  match buffer with
  | [] => []
  | _ :: spare =>
    let n := min text.length spare.length
    text.take n ++ 0 :: spare.drop n

/-- The room that `text` takes with its terminator. -/
def roomFor (text : Octets) : Nat := text.length + 1

/-- The octets up to the first zero. -/
def upToTerminator (buffer : Octets) : Octets := buffer.takeWhile (· != 0)

/-- A copy keeps the size of the buffer. -/
theorem length_copyInto (buffer text : Octets) :
    (copyInto buffer text).length = buffer.length := by
  cases buffer with
  | nil => rfl
  | cons _ spare => simp [copyInto]; omega

/-- Of a buffer with room for anything, what is behind the terminator stays as it is. -/
theorem copyInto_eq {buffer : Octets} (h : buffer ≠ []) (text : Octets) :
    copyInto buffer text = text.take (min text.length (buffer.length - 1)) ++
      0 :: buffer.drop (min text.length (buffer.length - 1) + 1) := by
  cases buffer with
  | nil => exact absurd rfl h
  | cons _ spare => rfl

/-- The size of a name field, terminator included. -/
def NameField.size : Nat := 256

/-- A field of 256 octets that holds a name. -/
structure NameField where
  /-- The octets of the field. -/
  octets : Octets
  /-- There are 256 of them. -/
  length_eq : octets.length = NameField.size
  deriving DecidableEq

namespace NameField

/-- The field with nothing but zeros. -/
def blank : NameField := ⟨List.replicate size 0, by simp⟩

instance : Inhabited NameField := ⟨blank⟩

/-- The field that holds `name`, cut to 255 octets. -/
def ofText (name : String) : NameField :=
  ⟨copyInto blank.octets (Utf8.encode name), by rw [length_copyInto]; exact blank.length_eq⟩

/-- The field that starts with the given octets and is zero behind them; of more than 256 octets
the first 256. -/
def ofOctets (octets : Octets) : NameField :=
  ⟨(octets ++ List.replicate size 0).take size, by simp⟩

/-- The name in the field: its octets up to the first zero, decoded forgivingly. -/
def text (field : NameField) : String := Utf8.decodeForgiving (upToTerminator field.octets)

end NameField

end HandleBench.Text
