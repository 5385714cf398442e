import HandleBench.Tag

/-!
# Kinds of handles

A handle stands for an engine, a benchmark, an object or a catalog entry, and the class bits of its
tag, the eight most significant ones, say which. The tests that decide how a handle is used look at
them in different ways: an engine's tag is compared as a whole, the other tests ask for some bits
and let further ones pass. What they have in common is `Tag.Claims`: a tag that passes the test for
a kind claims that kind. Two facts carry over from here to everything that is shown about handles: a
tag with the class bits of one kind claims no other, and bits that leave the reserved ones alone do
not change what a tag claims.
-/

namespace HandleBench

/-- What a handle can stand for. -/
inductive Kind where
  /-- An engine. -/
  | engine
  /-- A benchmark. -/
  | benchmark
  /-- An object. -/
  | object
  /-- A catalog entry. -/
  | entry
  deriving DecidableEq, Repr

/-- The class bits of a kind. -/
def Kind.bits : Kind → Tag
  | engine => .engine
  | benchmark => .instanceBits
  | object => .object
  | entry => .descriptor

namespace Tag

/-- The class bits of a tag. -/
def classBits (t : Tag) : Tag := t &&& reserved

/-- The bits of a tag that belong to the backends. -/
def backendBits (t : Tag) : Tag := t &&& ~~~reserved

/-- The tag passes the test by which handles of the kind are told. -/
def Claims (t : Tag) : Kind → Prop
  | .engine => t = engine
  | .benchmark => t.hasClass instanceBits = true
  | .object => t.hasClass object = true
  | .entry => t.hasClass descriptor = true ∧ t.hasClass benchmark = false

instance (t : Tag) (k : Kind) : Decidable (t.Claims k) := by
  cases k <;> unfold Claims <;> infer_instance

/-- Whether a tag has reserved bits can be seen from its class bits. -/
theorem hasClass_classBits {bits : Tag} (h : bits &&& reserved = bits) (t : Tag) :
    t.hasClass bits = t.classBits.hasClass bits := by
  have : t.classBits &&& bits = t &&& bits := by
    rw [classBits, UInt64.and_assoc, UInt64.and_comm reserved, h]
  rw [hasClass, hasClass, this]

theorem classBits_engine : classBits engine = engine := by decide

theorem or_and (t bits mask : Tag) : (t ||| bits) &&& mask = t &&& mask ||| bits &&& mask := by
  apply UInt64.toBitVec_inj.1
  simp only [UInt64.toBitVec_and, UInt64.toBitVec_or]
  ext i
  simp [Bool.and_or_distrib_right]

theorem and_reserved {bits : Tag} (h : bits.touchesReserved = false) : bits &&& reserved = 0 := by
  simpa [touchesReserved] using h

/-- The class bits of a kind with any bits of a backend are those of the kind. -/
theorem classBits_or {bits : Tag} (h : bits.touchesReserved = false) (k : Kind) :
    (k.bits ||| bits).classBits = k.bits := by
  have hk : k.bits &&& reserved = k.bits := by cases k <;> decide
  rw [classBits, or_and, hk, and_reserved h, UInt64.or_zero]

/-- The bits of a backend are found again beside the class bits of a kind. -/
theorem backendBits_or {bits : Tag} (h : bits.touchesReserved = false) (k : Kind) :
    (k.bits ||| bits).backendBits = bits := by
  have hk : k.bits &&& ~~~reserved = 0 := by cases k <;> decide
  have hbits : bits &&& reserved ||| bits &&& ~~~reserved = bits := by
    rw [UInt64.and_comm bits, UInt64.and_comm bits, ← or_and, UInt64.or_not_self,
      UInt64.neg_one_and]
  rw [and_reserved h, UInt64.zero_or] at hbits
  rw [backendBits, or_and, hk, hbits, UInt64.zero_or]

/-- For bits of a backend the class bits of a kind do not matter. -/
theorem hasClass_or {required : Tag} (h : required.touchesReserved = false) (k : Kind)
    (bits : Tag) : (k.bits ||| bits).hasClass required = bits.hasClass required := by
  have hk : k.bits &&& required = 0 := by
    have hclass : k.bits &&& reserved = k.bits := by cases k <;> decide
    rw [← hclass, UInt64.and_assoc, UInt64.and_comm reserved, and_reserved h, UInt64.and_zero]
  rw [hasClass, hasClass, or_and, hk, UInt64.zero_or]

/-- A tag with the class bits of one kind claims no other. -/
theorem Claims.unique {t : Tag} {k k' : Kind} (hb : t.classBits = k.bits) (h : t.Claims k') :
    k' = k := by
  cases k' with
  | engine =>
    have ht : t = engine := h
    subst ht
    revert hb
    cases k <;> decide
  | benchmark =>
    have hc : t.hasClass instanceBits = true := h
    rw [hasClass_classBits (by decide), hb] at hc
    revert hc
    cases k <;> decide
  | object =>
    have hc : t.hasClass object = true := h
    rw [hasClass_classBits (by decide), hb] at hc
    revert hc
    cases k <;> decide
  | entry =>
    obtain ⟨hd, hn⟩ := h
    rw [hasClass_classBits (by decide), hb] at hd hn
    revert hd hn
    cases k <;> decide

/-- A tag with the class bits of a kind claims it; an engine's tag has no other bits. -/
theorem claims_of_classBits {t : Tag} {k : Kind} (hb : t.classBits = k.bits)
    (he : k = .engine → t = engine) : t.Claims k := by
  cases k with
  | engine => exact he rfl
  | benchmark =>
    show t.hasClass instanceBits = true
    rw [hasClass_classBits (by decide), hb]
    decide
  | object =>
    show t.hasClass object = true
    rw [hasClass_classBits (by decide), hb]
    decide
  | entry =>
    refine ⟨?_, ?_⟩
    · rw [hasClass_classBits (by decide), hb]
      decide
    · rw [hasClass_classBits (by decide), hb]
      decide

end Tag

end HandleBench
