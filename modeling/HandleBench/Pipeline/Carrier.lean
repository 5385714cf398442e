import HandleBench.Pipeline.Product

/-!
# The pipeline of a byte carrier

A byte carrier takes the host's samples through the pipeline as they are. All its handles carry the
same backend bit, so it asks for no order, and each step but the last shares the payload under the
tag that the host's handle has.
-/

namespace HandleBench.Carrier

/-- The backend bit of all data of a byte carrier. -/
def dataBit : Tag := 0x1

/-- Copies the host's samples into a payload. -/
def encode (session : SessionId) (packs : List Pack) : Act World Handle :=
  Object.create session 0 dataBit ⟨.samples, packs⟩

/-- Shares a payload under the tag of its handle. -/
def share (session : SessionId) (h : Handle) : Act World Handle :=
  Object.duplicate session h none dataBit

/-- A buffer with as much of a sample as fits at its front. -/
def fill (buffer sample : Octets) : Octets :=
  sample.take buffer.length ++ buffer.drop sample.length

/-- The packs after samples have been written into them by position. -/
def writeInto (samples packs : List Pack) : List Pack :=
  samples.foldl
    (fun packs sample => Pack.changeAt sample.position (overwrite fill · sample.buffers) packs)
    packs

/-- Writes a payload into the host's packs. -/
def decode (session : SessionId) (encoded : Handle) (packs : List Pack) :
    Act World (List Pack) := do
  let samples ← Object.retrieve session encoded dataBit .samples
  return writeInto samples packs

/-- Shares the first of the given handles. -/
def load (session : SessionId) : List Handle → Act World Handle
  | [] => Act.refuse .nothingToLoad
  | first :: _ => share session first

/-- Shares a payload through the first of the host's slots; the others get null handles. Without
slots the new handle is released at once. -/
def store (session : SessionId) (result : Handle) (slots : List Handle) :
    Act World (List Handle) := do
  let stored ← share session result
  match slots with
  | [] =>
    Object.destroy session stored
    return []
  | _ :: slots => return stored :: slots.map fun _ => .null

/-- Shares a payload, unless the carrier was told to panic or to fail here. -/
def operate (config : CarrierConfig) (session : SessionId) (loaded : Handle) :
    Act World Handle :=
  if config.operatePanics then Act.stop (.panicked "mock operate panicked")
  else if config.operateFails then Act.refuse .operateRefused
  else share session loaded

end HandleBench.Carrier
