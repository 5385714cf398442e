import HandleBench.Binary64
import HandleBench.Text.Utf8

/-!
# Numbers in buffers

A number takes eight octets, the least significant first. Reading takes whole numbers off the front
of a buffer and ignores what is left over. Writing puts as many numbers as fit into a buffer and
leaves the rest of it alone. A number that is written reads back with the same bits, and eight
octets that are read come out again as they were.
-/

namespace HandleBench.Binary64

/-- The eight octets of a number, the least significant first. -/
def octets (x : Binary64) : Octets :=
  [x.bits.toUInt8, (x.bits / 0x100).toUInt8, (x.bits / 0x10000).toUInt8,
    (x.bits / 0x1000000).toUInt8, (x.bits / 0x100000000).toUInt8,
    (x.bits / 0x10000000000).toUInt8, (x.bits / 0x1000000000000).toUInt8,
    (x.bits / 0x100000000000000).toUInt8]

/-- The number of eight octets, the least significant first. -/
def ofOctets (a b c d e f g h : UInt8) : Binary64 :=
  ⟨a.toUInt64 + b.toUInt64 * 0x100 + c.toUInt64 * 0x10000 + d.toUInt64 * 0x1000000 +
    e.toUInt64 * 0x100000000 + f.toUInt64 * 0x10000000000 + g.toUInt64 * 0x1000000000000 +
    h.toUInt64 * 0x100000000000000⟩

/-- The whole numbers at the front of a buffer. -/
def readAll : Octets → List Binary64
  | a :: b :: c :: d :: e :: f :: g :: h :: rest => ofOctets a b c d e f g h :: readAll rest
  | _ => []

/-- The octets of a list of numbers. -/
def writeAll (values : List Binary64) : Octets := values.flatMap octets

/-- How many of `values` fit whole into a buffer of `room` octets. -/
def fitting (room : Nat) (values : List Binary64) : Nat := min (room / 8) values.length

/-- A buffer after as many of the numbers as fit have been written to its front. -/
def writeInto : Octets → List Binary64 → Octets
  | _ :: _ :: _ :: _ :: _ :: _ :: _ :: _ :: rest, v :: values => v.octets ++ writeInto rest values
  | buffer, _ => buffer

/-- A number has eight octets. -/
@[simp] theorem length_octets (x : Binary64) : x.octets.length = 8 := rfl

/-- Writing keeps the size of the buffer. -/
theorem length_writeInto (buffer : Octets) (values : List Binary64) :
    (writeInto buffer values).length = buffer.length := by
  fun_induction writeInto buffer values with
  | case1 _ _ _ _ _ _ _ _ _ _ _ ih =>
    rw [List.length_append, ih, length_octets]
    simp only [List.length_cons]
    omega
  | case2 => rfl

/-- Eight octets that are read are written as they were. -/
theorem octets_ofOctets (a b c d e f g h : UInt8) :
    (ofOctets a b c d e f g h).octets = [a, b, c, d, e, f, g, h] := by
  have ha := a.toNat_lt
  have hb := b.toNat_lt
  have hc := c.toNat_lt
  have hd := d.toNat_lt
  have he := e.toNat_lt
  have hf := f.toNat_lt
  have hg := g.toNat_lt
  have hh := h.toNat_lt
  have total : (ofOctets a b c d e f g h).bits.toNat =
      a.toNat + b.toNat * 0x100 + c.toNat * 0x10000 + d.toNat * 0x1000000 +
        e.toNat * 0x100000000 + f.toNat * 0x10000000000 + g.toNat * 0x1000000000000 +
        h.toNat * 0x100000000000000 := by
    simp [ofOctets, UInt64.toNat_add, UInt64.toNat_mul]
    omega
  simp only [octets, List.cons.injEq, and_true]
  refine ⟨?_, ?_, ?_, ?_, ?_, ?_, ?_, ?_⟩ <;> apply UInt8.toNat_inj.mp <;>
    simp [UInt64.toNat_toUInt8, UInt64.toNat_div, total] <;> omega

/-- A number that is written reads back with the same bits. -/
theorem readAll_octets_append (x : Binary64) (rest : Octets) :
    readAll (x.octets ++ rest) = x :: readAll rest := by
  have hx := x.bits.toNat_lt
  have back : ofOctets x.bits.toUInt8 (x.bits / 0x100).toUInt8 (x.bits / 0x10000).toUInt8
      (x.bits / 0x1000000).toUInt8 (x.bits / 0x100000000).toUInt8
      (x.bits / 0x10000000000).toUInt8 (x.bits / 0x1000000000000).toUInt8
      (x.bits / 0x100000000000000).toUInt8 = x := by
    obtain ⟨x⟩ := x
    simp only [ofOctets, mk.injEq]
    apply UInt64.toNat_inj.mp
    simp [UInt64.toNat_add, UInt64.toNat_mul, UInt64.toNat_div]
    simp at hx
    omega
  simp only [octets, List.cons_append, List.nil_append, readAll, back]

/-- Numbers that are written read back. -/
theorem readAll_writeAll (values : List Binary64) : readAll (writeAll values) = values := by
  induction values with
  | nil => rfl
  | cons v values ih =>
    rw [writeAll, List.flatMap_cons, readAll_octets_append]
    exact congrArg (v :: ·) ih

/-- Eight octets are written for each number. -/
@[simp] theorem length_writeAll (values : List Binary64) :
    (writeAll values).length = values.length * 8 := by
  induction values with
  | nil => rfl
  | cons v values ih =>
    change (writeAll (v :: values)).length = (values.length + 1) * 8
    rw [writeAll, List.flatMap_cons, List.length_append, length_octets, ← writeAll, ih]
    omega

end HandleBench.Binary64
