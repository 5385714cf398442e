import HandleBench.World

/-!
# Objects

Objects are payloads in the hands of the host. A session mints the first handle of a payload,
shares the payload among more handles and releases each of them on its own; the payload lives as
long as it has a holder. Whoever uses an object says which backend bits its tag must carry. The bits
are a subset test: further bits in the tag do no harm.

The checks come in a fixed order: the required bits themselves, the class of the handle, the bits of
the handle, a null pointer, and only then the session that minted the object.
-/

namespace HandleBench

/-- The bits leave the reserved ones alone. -/
def requireUnreserved (bits : Tag) : Except Failure Unit :=
  if bits.touchesReserved then .error (.reservedTag bits) else .ok ()

/-- The handle is that of an object and its tag carries the required bits. -/
def Handle.checkObject (h : Handle) (required : Tag) : Except Failure Unit := do
  requireUnreserved required
  if !h.tag.hasClass .object then throw (.notObject h.tag)
  if !h.tag.hasClass required then throw (.missingBits h.tag required)

namespace Object

/-- Mints the handle of an object at a new address. -/
def mint (object : ObjectCell) (size : UInt64) (tag : Tag) : Act World Handle := do
  let address ← World.allocate (.object object)
  return ⟨.cell address, size, tag⟩

/-- Makes a payload and mints its first handle, whose tag has the given backend bits. -/
def create (session : SessionId) (size : UInt64) (bits : Tag) (value : Payload) :
    Act World Handle := do
  Act.ofExcept (requireUnreserved bits)
  let index ← Act.look fun w : World => w.payloads.size
  Act.change fun w => { w with payloads := w.payloads.push (some ⟨value, 1⟩) }
  mint ⟨session, index⟩ size (.object ||| bits)

/-- The object that a handle stands for, with its address. -/
def resolve (session : SessionId) (h : Handle) (required : Tag) :
    Act World (Nat × ObjectCell) := do
  Act.ofExcept (h.checkObject required)
  if h.isNull then Act.refuse .emptyObject
  else
    match ← World.follow h.pointer with
    | (address, .object object) =>
      if object.session = session then return (address, object) else Act.refuse .foreignObject
    | _ => Act.stop .misread

/-- The payload behind a handle, at the expected kind. -/
def retrieve (session : SessionId) (h : Handle) (required : Tag) (expected : PayloadKind) :
    Act World expected.Value := do
  let (_, object) ← resolve session h required
  let value ← Act.look fun w : World => (w.payload? object.payload).bind (·.value.as? expected)
  match value with
  | some value => return value
  | none => Act.refuse (.payloadKind expected)

/-- Mints one more handle of the payload behind a handle. It has the size of the given handle and
either the given backend bits or the tag of the given handle. -/
def duplicate (session : SessionId) (h : Handle) (bits : Option Tag) (required : Tag) :
    Act World Handle := do
  let (_, object) ← resolve session h required
  let tag ← match bits with
    | none => pure h.tag
    | some bits => do
      Act.ofExcept (requireUnreserved bits)
      pure (.object ||| bits)
  Act.change (·.addHolder object.payload)
  mint object h.size tag

/-- The world after an object has let go of its payload and is gone. -/
def release (w : World) (address : Nat) (object : ObjectCell) : World :=
  (w.clear address).dropHolder object.payload

/-- Releases a handle. -/
def destroy (session : SessionId) (h : Handle) : Act World Unit := do
  let (address, object) ← resolve session h 0
  Act.change (release · address object)

/-- How many handles hold the payload behind a handle. -/
def holders (session : SessionId) (h : Handle) : Act World Nat := do
  let (_, object) ← resolve session h 0
  Act.look fun w => ((w.payload? object.payload).map (·.holders)).getD 0

end Object

end HandleBench
