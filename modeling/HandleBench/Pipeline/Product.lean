import HandleBench.Binary64.Octets
import HandleBench.Object

/-!
# The pipeline of a matrix product

The data of a product goes through the pipeline in the order encode, encrypt, load, operate, store,
decrypt, decode. Every step is told apart by the backend bits in the tags of its handles, so a
handle that comes from the wrong step is refused. Encryption is sharing: encrypt, decrypt, load and
store mint another handle of the same payload.

Encoded data holds the samples of both factors, results hold one component with the product of every
selected pair. Decoding writes into the host's packs as much as fits.
-/

namespace HandleBench

/-- Which samples of an operand an operation works on: `count` of them from `start` on. -/
structure Selection where
  /-- The index of the first sample. -/
  start : UInt64
  /-- The count of samples. -/
  count : UInt64
  deriving DecidableEq, Repr

namespace Product

/-! ### The bits that tell the steps apart -/

/-- The output of encode. -/
def encodedBit : Tag := 0x10

/-- What can be decoded. -/
def plainBit : Tag := 0x20

/-- What can be decrypted and loaded. -/
def encryptedBit : Tag := 0x40

/-- The output of decrypt. -/
def decryptedBit : Tag := 0x80

/-- The output of load. -/
def loadedBit : Tag := 0x100

/-- The output of store. -/
def storedBit : Tag := 0x200

/-- The output of operate. -/
def operatedBit : Tag := 0x400

/-- The size in the handles of a product's data. -/
def dataSize : UInt64 := 24

/-! ### Samples -/

/-- The matrix at the front of a sample. -/
def readSample (rows cols : Nat) (octets : Octets) : Except Failure (Matrix Binary64) :=
  if octets.length < rows * cols * 8 then
    .error (.shortSample octets.length rows cols (rows * cols * 8))
  else Matrix.ofEntries rows cols ((Binary64.readAll octets).take (rows * cols))

/-- The samples of one operand: the first in the pack at its position for a latency benchmark, all
of them otherwise. -/
def operand (p : Product) (packs : List Pack) (position : UInt64) (rows cols : Nat) :
    Except Failure (List (Matrix Binary64)) := do
  let pack ← Pack.find packs position
  let used := if p.isLatency then pack.buffers.take 1 else pack.buffers
  if used.isEmpty || used.any (·.isEmpty) then throw .emptySample
  used.mapM (readSample rows cols)

/-- The samples of both operands. -/
def operands (p : Product) (packs : List Pack) :
    Except Failure (List (List (Matrix Binary64))) := do
  if packs.length ≠ operandCount then throw (.packCount operandCount packs.length)
  let left ← p.operand packs 0 p.rows p.inner
  let right ← p.operand packs 1 p.inner p.cols
  return [left, right]

/-- The selected samples; at least one, and none behind the last. -/
def select (samples : List (Matrix Binary64)) (s : Selection) (operand : Nat) :
    Except Failure (List (Matrix Binary64)) :=
  if 0 < s.count.toNat ∧ s.start.toNat + s.count.toNat ≤ samples.length then
    .ok ((samples.drop s.start.toNat).take s.count.toNat)
  else .error (.selectionRange s.start s.count operand samples.length)

/-- The product of every left factor with every right one, the right ones changing faster. -/
def allProducts (left right : List (Matrix Binary64)) : Except Failure (List (Matrix Binary64)) :=
  return (← left.mapM fun a => right.mapM fun b => a.multiply b).flatten

/-- The results of an operation on loaded components, of which there must be one for each
operand. -/
def results (components : List (List (Matrix Binary64))) (left right : Selection) :
    Except Failure (List (Matrix Binary64)) :=
  match components with
  | [lefts, rights] => do
    let lefts ← select lefts left 0
    let rights ← select rights right 1
    allProducts lefts rights
  | components => .error (.componentCount components.length operandCount)

/-- The packs after the components have been written into them, the first at position `position`
and so on. A component without a pack at its position is left out. -/
def writeFrom (position : UInt64) : List (List (Matrix Binary64)) → List Pack → List Pack
  | [], packs => packs
  | samples :: components, packs =>
    writeFrom (position + 1) components
      (Pack.changeAt position
        (overwrite (fun buffer m => Binary64.writeInto buffer m.entries) · samples) packs)

/-! ### The steps -/

/-- Copies the host's samples into a payload. -/
def encode (p : Product) (session : SessionId) (packs : List Pack) : Act World Handle := do
  let components ← Act.ofExcept (p.operands packs)
  Object.create session dataSize (encodedBit ||| plainBit) ⟨.matrices, components⟩

/-- Writes a payload into the host's packs. -/
def decode (session : SessionId) (encoded : Handle) (packs : List Pack) :
    Act World (List Pack) := do
  let components ← Object.retrieve session encoded plainBit .matrices
  return writeFrom 0 components packs

/-- Shares encoded data as encrypted data. -/
def encrypt (session : SessionId) (encoded : Handle) : Act World Handle :=
  Object.duplicate session encoded (some encryptedBit) encodedBit

/-- Shares encrypted data as decrypted data. -/
def decrypt (session : SessionId) (encrypted : Handle) : Act World Handle :=
  Object.duplicate session encrypted (some (decryptedBit ||| plainBit)) encryptedBit

/-- Shares encrypted data as loaded data; there is a single handle for both operands. -/
def load (session : SessionId) : List Handle → Act World Handle
  | [encrypted] => Object.duplicate session encrypted (some loadedBit) encryptedBit
  | handles => Act.refuse (.handleCount 1 handles.length)

/-- Shares results as encrypted data again, through the first of the host's slots; the others get
null handles. Without slots nothing happens. -/
def store (session : SessionId) (result : Handle) : List Handle → Act World (List Handle)
  | [] => return []
  | _ :: slots => do
    let stored ← Object.duplicate session result (some (storedBit ||| encryptedBit)) operatedBit
    return stored :: slots.map fun _ => .null

/-- The first two selections. A latency benchmark takes only the first sample of each operand. -/
def selections (p : Product) : List Selection → Except Failure (Selection × Selection)
  | left :: right :: _ =>
    if p.isLatency && [left, right].any (· ≠ ⟨0, 1⟩) then .error .latencySelection
    else .ok (left, right)
  | few => .error (.selectionCount operandCount few.length)

/-- Multiplies every selected pair of loaded samples. -/
def operate (p : Product) (session : SessionId) (loaded : Handle) (selections : List Selection) :
    Act World Handle := do
  let (left, right) ← Act.ofExcept (p.selections selections)
  let components ← Object.retrieve session loaded loadedBit .matrices
  let results ← Act.ofExcept (results components left right)
  Object.create session dataSize operatedBit ⟨.matrices, [results]⟩

end Product

end HandleBench
