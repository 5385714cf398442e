import HandleBench.Act
import HandleBench.Handle
import HandleBench.Instance
import HandleBench.Payload
import HandleBench.Registry
import HandleBench.Settings.Engine

/-!
# The world

All state of the library. Things that handles point at live in cells; a cell has an address, which
is never used again once the cell is released. Payloads live apart from the objects that hold them,
each with the count of its holders, and go when the last holder does. Sessions outlive their
engines, because benchmarks go on using them.
-/

namespace HandleBench

/-- The number of a session, counted from zero. -/
abbrev SessionId := Nat

/-- The last failure that a session was blamed for. -/
structure LastError where
  /-- Its code. -/
  code : ReturnCode
  /-- Its message. -/
  message : String
  deriving DecidableEq, Repr

/-- What an engine shares with its benchmarks. -/
structure Session where
  /-- The last failure, a success while there is none. -/
  lastError : LastError
  /-- The texts of error codes. -/
  errors : NameTable
  /-- The count of live benchmarks. -/
  live : Nat
  deriving DecidableEq, Repr

/-- The text of an error code; there is one for every code. -/
def Session.errorText (s : Session) (code : Int32) : String :=
  (s.errors.find? code).getD "Unknown Error"

/-- An engine: what has been registered with it, its settings and its session. -/
structure Engine where
  /-- Its session. -/
  session : SessionId
  /-- Its settings. -/
  settings : EngineSettings
  /-- The workloads, in the order of their handles. -/
  catalog : List Description
  /-- The names of schemes. -/
  schemes : NameTable
  /-- The names of security levels. -/
  securities : NameTable
  deriving DecidableEq

/-- A benchmark: an instance and the session it works through. -/
structure Benchmark where
  /-- Its session. -/
  session : SessionId
  /-- The instance. -/
  inst : Instance
  deriving DecidableEq

/-- An object: one holder of a payload. -/
structure ObjectCell where
  /-- The session that minted it. -/
  session : SessionId
  /-- The index of its payload. -/
  payload : Nat
  deriving DecidableEq, Repr

/-- What is at an address. -/
inductive Cell where
  /-- An engine. -/
  | engine (engine : Engine)
  /-- A benchmark. -/
  | benchmark (benchmark : Benchmark)
  /-- An object. -/
  | object (object : ObjectCell)
  /-- Nothing any more. -/
  | released
  deriving DecidableEq

/-- A payload and how many objects hold it. -/
structure SharedPayload where
  /-- The payload. -/
  value : Payload
  /-- The count of its holders. -/
  holders : Nat

/-- All state of the library. -/
structure World where
  /-- The sessions, by number. -/
  sessions : Array Session
  /-- The cells, by address. -/
  cells : Array Cell
  /-- The payloads, by index, nothing where the last holder is gone. -/
  payloads : Array (Option SharedPayload)

namespace World

/-- The world before anything has happened. -/
def empty : World := ⟨#[], #[], #[]⟩

instance : Inhabited World := ⟨empty⟩

/-- The world with one session changed. -/
def changeSession (w : World) (id : SessionId) (f : Session → Session) : World :=
  { w with sessions := w.sessions.modify id f }

/-- The world with a failure recorded as the last one of a session. -/
def record (w : World) (id : SessionId) (failure : Failure) : World :=
  w.changeSession id fun s => { s with lastError := ⟨failure.code, failure.message⟩ }

/-- The count of live benchmarks of a session. -/
def live (w : World) (id : SessionId) : Nat := (w.sessions[id]?.map (·.live)).getD 0

/-- The world with one live benchmark less in a session. -/
def releaseSlot (w : World) (id : SessionId) : World :=
  w.changeSession id fun s => { s with live := s.live - 1 }

/-- The world with nothing at an address any more. -/
def clear (w : World) (address : Nat) : World :=
  { w with cells := w.cells.setIfInBounds address .released }

/-- A payload after one holder more has come. -/
def SharedPayload.hold (shared : SharedPayload) : SharedPayload :=
  { shared with holders := shared.holders + 1 }

/-- A payload after one holder has gone; nothing after the last. -/
def SharedPayload.drop (shared : SharedPayload) : Option SharedPayload :=
  if shared.holders ≤ 1 then none else some { shared with holders := shared.holders - 1 }

/-- The world with one holder more of a payload. -/
def addHolder (w : World) (index : Nat) : World :=
  { w with payloads := w.payloads.modify index (·.map SharedPayload.hold) }

/-- The world with one holder less of a payload, and without the payload after the last. -/
def dropHolder (w : World) (index : Nat) : World :=
  { w with payloads := w.payloads.modify index (·.bind SharedPayload.drop) }

/-- The payload at an index. -/
def payload? (w : World) (index : Nat) : Option SharedPayload := w.payloads[index]?.join

/-- Opens a session that knows the given error texts. -/
def openSession (errors : NameTable) : Act World SessionId := fun w =>
  (.ok w.sessions.size, { w with sessions := w.sessions.push ⟨⟨.success, "Success"⟩, errors, 0⟩ })

/-- Adds the text of an error code to a session, unless the code has one. -/
def addErrorText (id : SessionId) (code : Int32) (text : String) : Act World Unit := fun w =>
  match w.sessions[id]?.bind (·.errors.insert? code text) with
  | some errors => (.ok (), w.changeSession id fun s => { s with errors })
  | none => (.error (.refused (.codeTaken code)), w)

/-- Puts something at a new address. -/
def allocate (cell : Cell) : Act World Nat := fun w =>
  (.ok w.cells.size, { w with cells := w.cells.push cell })

/-- Reads the cell that a pointer leads to. -/
def follow (p : Pointer) : Act World (Nat × Cell) := fun w =>
  match p with
  | .word _ => (.error .misread, w)
  | .cell address =>
    match w.cells[address]? with
    | none => (.error .misread, w)
    | some .released => (.error .released, w)
    | some cell => (.ok (address, cell), w)

/-- Takes one of the slots for live benchmarks of a session, of which there may be a limited
number. -/
def acquireSlot (id : SessionId) (limit : Option Nat) : Act World Unit := fun w =>
  match limit.filter (· ≤ w.live id) with
  | some limit => (.error (.refused (.benchmarkLimit limit)), w)
  | none => (.ok (), w.changeSession id fun s => { s with live := s.live + 1 })

end World

end HandleBench
