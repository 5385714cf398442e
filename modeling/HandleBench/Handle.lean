import HandleBench.Tag

/-!
# Handles

A handle is what a host holds of a thing inside the library: a pointer, an advisory size and a tag.
The host gets handles by value and gives them back by value, so it may have changed any part of its
copy. A pointer is either a plain word, zero being the null pointer, or the address of a cell.
-/

namespace HandleBench

/-- Where a handle points. -/
inductive Pointer where
  /-- A plain word. Catalog entries are pointed at by their index. -/
  | word (value : UInt64)
  /-- The address of a cell. -/
  | cell (address : Nat)
  deriving DecidableEq, Repr

namespace Pointer

/-- The null pointer. -/
def null : Pointer := .word 0

/-- The pointer is null. -/
def isNull (p : Pointer) : Bool := p == null

/-- The word that the pointer holds, if it is not an address. -/
def word? : Pointer → Option UInt64
  | .word value => some value
  | .cell _ => none

end Pointer

/-- What a host holds of a thing inside the library. -/
structure Handle where
  /-- Where the handle points. -/
  pointer : Pointer
  /-- The size of the thing, for information only. -/
  size : UInt64
  /-- What the handle stands for. -/
  tag : Tag
  deriving DecidableEq, Repr

namespace Handle

/-- The handle with a null pointer, no size and no bits in its tag. -/
def null : Handle := ⟨.null, 0, 0⟩

instance : Inhabited Handle := ⟨null⟩

/-- The pointer of the handle is null. -/
def isNull (h : Handle) : Bool := h.pointer.isNull

/-- The handle of the catalog entry at an index. -/
def descriptor (index : Nat) : Handle := ⟨.word (.ofNat index), 0, .descriptor⟩

theorem isNull_iff {h : Handle} : h.isNull = true ↔ h.pointer = .word 0 := by
  simp [isNull, Pointer.isNull, Pointer.null]

theorem not_null_of_cell {h : Handle} {address : Nat} (hp : h.pointer = .cell address) :
    h.isNull = false := by
  simp [isNull, hp, Pointer.isNull, Pointer.null]

end Handle

end HandleBench
