import HandleBench.Failure

/-!
# Packs of samples

A pack holds the samples of one operand, each in a buffer, under the position of the operand. Packs
come in any order and are found by position; the first at a position counts. In host memory packs
are arrays of arrays, each with an announced count, and a pointer may be null anywhere. Reading
host memory refuses a null array that is announced with elements and takes a null buffer for an
empty one. Results go back into the host's buffers, which keep their sizes.
-/

namespace HandleBench

/-- An array in host memory: the elements behind its pointer, none for a null pointer, and the
count that the host announces. The host promises that as many elements are there. -/
structure HostArray (α : Type) where
  /-- What the pointer leads to. -/
  elements : Option (List α)
  /-- The announced count. -/
  count : UInt64
  deriving DecidableEq, Repr

namespace HostArray

variable {α β : Type}

/-- The array of a list, announced with its length. -/
def ofList (elements : List α) : HostArray α := ⟨some elements, .ofNat elements.length⟩

/-- The announced elements. An array of no elements may be null; any other null array is refused
with `refusal`. -/
def read (a : HostArray α) (refusal : Failure) : Except Failure (List α) :=
  if a.count = 0 then .ok []
  else
    match a.elements with
    | none => .error refusal
    | some elements => .ok (elements.take a.count.toNat)

/-- The array with its elements changed, its pointer and count kept. -/
def change (a : HostArray α) (f : List α → List α) : HostArray α :=
  { a with elements := a.elements.map f }

end HostArray

/-- `targets` with `f` applied to each target and its value, as far as there are values. -/
def overwrite {α β : Type} (f : α → β → α) : List α → List β → List α
  | target :: targets, value :: values => f target value :: overwrite f targets values
  | targets, _ => targets

/-- Overwriting keeps the count of targets. -/
theorem length_overwrite {α β : Type} (f : α → β → α) (targets : List α) (values : List β) :
    (overwrite f targets values).length = targets.length := by
  fun_induction overwrite f targets values with
  | case1 _ _ _ _ ih => simp [ih]
  | case2 => rfl

/-- The samples of one operand. -/
structure Pack where
  /-- The position of the operand. -/
  position : UInt64
  /-- Its samples, an octet buffer each. -/
  buffers : List Octets
  deriving DecidableEq, Repr

namespace Pack

/-- The first pack at a position. -/
def find (packs : List Pack) (position : UInt64) : Except Failure Pack :=
  match packs.find? (·.position == position) with
  | some pack => .ok pack
  | none => .error (.noPack position)

/-- The packs with the buffers of the first one at a position changed; without one there, the packs
as they are. -/
def changeAt (position : UInt64) (f : List Octets → List Octets) : List Pack → List Pack
  | [] => []
  | pack :: packs =>
    if pack.position = position then { pack with buffers := f pack.buffers } :: packs
    else pack :: changeAt position f packs

end Pack

/-- A buffer in host memory. -/
inductive HostBuffer where
  /-- A null pointer, announced with a size. -/
  | null (size : UInt64)
  /-- Memory with its contents. -/
  | memory (contents : Octets)
  deriving DecidableEq, Repr

namespace HostBuffer

/-- The octets of a buffer; none behind a null pointer. -/
def contents : HostBuffer → Octets
  | null _ => []
  | memory contents => contents

/-- The buffer with new contents; behind a null pointer nothing is kept. -/
def store : HostBuffer → Octets → HostBuffer
  | null size, _ => null size
  | memory _, contents => memory contents

end HostBuffer

/-- A pack in host memory. -/
structure HostPack where
  /-- The position of the operand. -/
  position : UInt64
  /-- Its buffers. -/
  buffers : HostArray HostBuffer
  deriving DecidableEq, Repr

/-- Packs in host memory. -/
abbrev HostPacks := HostArray HostPack

namespace HostPack

/-- The pack that host memory describes. -/
def read (pack : HostPack) : Except Failure Pack := do
  let buffers ← pack.buffers.read (.nullArray "p_buffers" pack.buffers.count)
  return ⟨pack.position, buffers.map (·.contents)⟩

/-- The pack with the contents of its announced buffers replaced. -/
def store (pack : HostPack) (contents : Pack) : HostPack :=
  { pack with buffers := pack.buffers.change (overwrite HostBuffer.store · contents.buffers) }

end HostPack

namespace HostPacks

/-- The packs that host memory describes. -/
def read (packs : HostPacks) : Except Failure (List Pack) := do
  let packs ← HostArray.read packs (.nullArray "p_data_packs" packs.count)
  packs.mapM HostPack.read

/-- Host memory with the contents of its announced packs replaced. -/
def store (packs : HostPacks) (contents : List Pack) : HostPacks :=
  HostArray.change packs (overwrite HostPack.store · contents)

end HostPacks

end HandleBench
