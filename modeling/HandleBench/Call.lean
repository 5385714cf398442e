import HandleBench.Engine
import HandleBench.Text.Terminated

/-!
# Exported calls

The calls that a host makes from outside the library. A call holds its arguments together with the
host memory that its pointers lead to, and performing it gives the call back with that memory as it
is afterwards.

Every call checks its raw arguments, resolves the handles, works through an engine or a benchmark,
and writes its results to the host memory. From the moment a session has been resolved, a failure is
recorded in it. A panic of a backend is caught and counts as a critical failure. A call that asks
for a text answers with the room the text takes, or zero if it fails; any other call answers with a
code.
-/

namespace HandleBench

/-- A place for one result in host memory, with its content; nothing for a null pointer. -/
abbrev Slot (α : Type) := Option α

/-- A buffer for a text in host memory. -/
abbrev TextBuffer := HostArray UInt8

/-- An exported call with its arguments. -/
inductive Call where
  /-- Asks for the version of the calls. -/
  | version (major minor revision : Slot UInt64)
  /-- Starts an engine of the built-in backend. -/
  | start (engine : Slot Handle) (settings : HostArray UInt8)
  /-- Releases any handle. -/
  | destroy (handle : Handle)
  /-- Asks for the size of the catalog. -/
  | count (engine : Handle) (count : Slot UInt64)
  /-- Asks for the handles of all catalog entries. -/
  | subscribe (engine : Handle) (slots : HostArray Handle)
  /-- Asks for the size and the count of an entry's default sets. -/
  | details (engine entry : Handle) (arity sets : Slot UInt64)
  /-- Asks for an entry's descriptor and default sets. -/
  | describe (engine entry : Handle) (descriptor : Slot RawDescriptor)
    (slots : HostArray (HostArray Param))
  /-- Creates a benchmark. -/
  | create (engine entry : Handle) (params : Option (HostArray Param)) (benchmark : Slot Handle)
  /-- Asks for an entry's text. -/
  | text (engine entry : Handle) (params : Option (HostArray Param)) (buffer : TextBuffer)
  /-- Gives a benchmark a concrete descriptor. -/
  | concretize (benchmark : Handle) (descriptor : Slot RawDescriptor)
  /-- Encodes samples. -/
  | encode (benchmark : Handle) (packs : Slot HostPacks) (encoded : Slot Handle)
  /-- Decodes into the host's packs. -/
  | decode (benchmark encoded : Handle) (packs : Slot HostPacks)
  /-- Encrypts encoded data. -/
  | encrypt (benchmark encoded : Handle) (encrypted : Slot Handle)
  /-- Decrypts encrypted data. -/
  | decrypt (benchmark encrypted : Handle) (decrypted : Slot Handle)
  /-- Loads encrypted data. -/
  | load (benchmark : Handle) (handles : HostArray Handle) (loaded : Slot Handle)
  /-- Stores results. -/
  | store (benchmark result : Handle) (slots : HostArray Handle)
  /-- Runs the workload. -/
  | operate (benchmark loaded : Handle) (selections : HostArray Selection) (result : Slot Handle)
  /-- Asks for the name of a scheme. -/
  | schemeName (engine : Handle) (id : Int32) (buffer : TextBuffer)
  /-- Asks for the name of a security level. -/
  | securityName (engine : Handle) (id : Int32) (buffer : TextBuffer)
  /-- Asks for the text of an error code. -/
  | errorText (engine : Handle) (code : Int32) (buffer : TextBuffer)
  /-- Asks for the code of the last failure. -/
  | lastError (engine : Handle)
  /-- Asks for the message of the last failure. -/
  | lastErrorText (engine : Handle) (buffer : TextBuffer)
  deriving DecidableEq

/-- What a call returns to the host. -/
inductive Answer where
  /-- A code, zero for success. -/
  | code (code : ReturnCode)
  /-- The room that a text takes, zero for failure. -/
  | size (size : UInt64)
  deriving DecidableEq, Repr

/-- What a call returns, and the call with the host memory after it. -/
structure Reply where
  /-- What the call returns. -/
  answer : Answer
  /-- The call with the host memory after it. -/
  memory : Call
  deriving DecidableEq

/-- The state of a call under way: the world, the session resolved so far, and the host memory. -/
structure Frame where
  /-- The world. -/
  world : World
  /-- The session that a failure is recorded in. -/
  session : Option SessionId
  /-- The call with the host memory as it is now. -/
  memory : Call

namespace Frame

/-- An act on the world of a frame. -/
def onWorld {α : Type} : Act World α → Act Frame α :=
  Act.within (fun ⟨world, session, memory⟩ => (world, session, memory))
    fun (world, session, memory) => ⟨world, session, memory⟩

/-- Writes to the host memory. -/
def write (memory : Call) : Act Frame Unit := Act.change fun f => { f with memory }

/-- Resolves a session. -/
def bindSession (id : SessionId) : Act Frame Unit :=
  Act.change fun f => { f with session := some id }

/-- Resolves an engine and its session. -/
def bindEngine (h : Handle) : Act Frame Engine := do
  let (_, engine) ← onWorld (Engine.resolve h)
  bindSession engine.session
  return engine

/-- Resolves a benchmark and its session. -/
def bindBenchmark (h : Handle) : Act Frame (Nat × Benchmark) := do
  let (address, benchmark) ← onWorld (Benchmark.resolve h)
  bindSession benchmark.session
  return (address, benchmark)

/-- Looks at a session. -/
def lookSession {α : Type} [Inhabited α] (id : SessionId) (f : Session → α) : Act Frame α :=
  Act.look fun frame => (frame.world.sessions[id]?.map f).getD default

/-- The world after a failure, recorded if a session had been resolved. -/
def blame (f : Frame) (failure : Failure) : World :=
  match f.session with
  | none => f.world
  | some id => f.world.record id failure

end Frame

namespace Call

/-- The name of a call in messages. -/
def name : Call → String
  | version .. => "api_version"
  | start .. => "init_engine"
  | destroy .. => "destroy_handle"
  | count .. => "subscribe_benchmarks_count"
  | subscribe .. => "subscribe_benchmarks"
  | details .. => "get_workload_params_details"
  | describe .. => "describe_benchmark"
  | create .. => "create_benchmark"
  | text .. => "get_benchmark_description_ex"
  | concretize .. => "init_benchmark"
  | encode .. => "encode"
  | decode .. => "decode"
  | encrypt .. => "encrypt"
  | decrypt .. => "decrypt"
  | load .. => "load"
  | store .. => "store"
  | operate .. => "operate"
  | schemeName .. => "get_scheme_name"
  | securityName .. => "get_security_name"
  | errorText .. => "get_error_description"
  | lastError .. => "get_last_error"
  | lastErrorText .. => "get_last_error_description"

/-- The call asks for a text. -/
def asksText : Call → Bool
  | text .. | schemeName .. | securityName .. | errorText .. | lastErrorText .. => true
  | _ => false

/-- The answer of a call whose body ends like this. -/
def answer (c : Call) : Except Failure Answer → Answer
  | .ok answer => answer
  | .error failure => if c.asksText then .size 0 else .code failure.code

/-! ### Arguments -/

/-- What a place in host memory holds; a null pointer is refused. -/
def require {α : Type} (slot : Slot α) (name : String) : Act Frame α :=
  match slot with
  | some content => return content
  | none => Act.refuse (.nullArgument name)

/-- The elements of an array in host memory. -/
def readArray {α : Type} (array : HostArray α) (name : String) : Act Frame (List α) :=
  Act.ofExcept (array.read (.nullArgument name))

/-- The parameters that a host passes, if it passes a list. The type of each is checked. -/
def readParams : Option (HostArray Param) → Act Frame (Option (List Param))
  | none => return none
  | some array => do
    let params ← readArray array "params"
    discard (Act.ofExcept (params.mapM (·.type)))
    return some params

/-- The announced elements behind a pointer; none behind a null pointer, whatever is announced. -/
def announced {α : Type} (array : HostArray α) : List α :=
  (array.elements.getD []).take array.count.toNat

/-- A text in a buffer, and the room it takes. -/
def answerText (buffer : TextBuffer) (text : String) : Answer × TextBuffer :=
  let octets := Text.Utf8.encode text
  (.size (.ofNat (Text.roomFor octets)),
    buffer.change fun all =>
      Text.copyInto (all.take buffer.count.toNat) octets ++ all.drop buffer.count.toNat)

/-- A list of results at the front of an array in host memory. -/
def putAll {α : Type} (array : HostArray α) (results : List α) : HostArray α :=
  array.change (Engine.putFront results)

/-- An array for each default set that a host wants, with room for as much of the set as the host's
array can take. -/
def scratch (arity : Nat) (hosts : List (HostArray Param)) : Act Frame (List (List Param)) :=
  hosts.mapM fun host => do
    let size := min host.count.toNat arity
    if 0 < size then discard (require host.elements "params")
    return List.replicate size (Param.ofUInt64 "" 0)

/-! ### The calls -/

/-- Releases whatever a handle stands for. Only a benchmark has its session resolved; an object is
released whatever session it belongs to. -/
def destroyAny (h : Handle) : Act Frame Unit := do
  if h.isNull then return ()
  else if h.tag.hasClass .instanceBits then
    let (address, benchmark) ← Frame.bindBenchmark h
    Frame.onWorld (Act.change (Benchmark.release · address benchmark))
  else if h.tag.hasClass .object then
    match ← Frame.onWorld (World.follow h.pointer) with
    | (address, .object object) => Frame.onWorld (Act.change (Object.release · address object))
    | _ => Act.stop .misread
  else if h.tag = .engine then
    match ← Frame.onWorld (World.follow h.pointer) with
    | (address, .engine _) => Frame.onWorld (Act.change (·.clear address))
    | _ => Act.stop .misread
  else if h.tag = .descriptor then return ()
  else Act.refuse (.unknownTag h.tag)

/-- The descriptor and the default sets of a catalog entry, written into the host's memory only when
all of them fit. -/
def describeEntry (engine entry : Handle) (descriptor : Slot RawDescriptor)
    (slots : HostArray (HostArray Param)) :
    Act Frame (RawDescriptor × HostArray (HostArray Param)) := do
  let e ← Frame.bindEngine engine
  if descriptor.isNone then Act.refuse .noDescriptorSlot
  else
    let arity ← Act.ofExcept (e.arity entry)
    let count ← Act.ofExcept (e.setCount entry)
    let blank ← scratch arity ((announced slots).take count)
    match e.describe entry ⟨.plain, blank⟩ with
    | (.error failure, _) => Act.refuse failure
    | (.ok (), outline) =>
      return (outline.descriptor.raw, slots.change (overwrite putAll · outline.slots))

/-- What a call does, up to the handling of its failures. -/
def body : Call → Act Frame Answer
  | version major minor revision => do
    discard (require major "p_major")
    discard (require minor "p_minor")
    discard (require revision "p_revision")
    Frame.write (version (some versionMajor) (some versionMinor) (some versionRevision))
    return .code .success
  | start engine settings => do
    if engine.isNone then Act.refuse .noEngineSlot
    else
      let read ← Act.ofExcept (EngineSettings.ofOctets (announced settings))
      let made ← Frame.onWorld (Engine.start .matrixProduct read)
      Frame.write (start (some made) settings)
      return .code .success
  | destroy handle => do
    destroyAny handle
    return .code .success
  | count engine slot => do
    let e ← Frame.bindEngine engine
    discard (require slot "p_count")
    Frame.write (count engine (some (.ofNat e.catalog.length)))
    return .code .success
  | subscribe engine slots => do
    let e ← Frame.bindEngine engine
    let before ← readArray slots "p_h_bench_descs"
    let entries ← Act.ofExcept (e.subscribe before)
    Frame.write (subscribe engine (putAll slots entries))
    return .code .success
  | details engine entry arity sets => do
    let e ← Frame.bindEngine engine
    discard (require arity "p_param_count")
    discard (require sets "p_default_count")
    let size ← Act.ofExcept (e.arity entry)
    let count ← Act.ofExcept (e.setCount entry)
    Frame.write (details engine entry (some (.ofNat size)) (some (.ofNat count)))
    return .code .success
  | describe engine entry descriptor slots => do
    let (raw, slots) ← describeEntry engine entry descriptor slots
    Frame.write (describe engine entry (some raw) slots)
    return .code .success
  | create engine entry params benchmark => do
    let e ← Frame.bindEngine engine
    discard (require benchmark "h_bench")
    let read ← readParams params
    let created ← Frame.onWorld (e.create entry read)
    Frame.write (create engine entry params (some created))
    return .code .success
  | text engine entry params buffer => do
    let e ← Frame.bindEngine engine
    let read ← readParams params
    let (answer, buffer) := answerText buffer (← Act.ofExcept (e.text entry read))
    Frame.write (text engine entry params buffer)
    return answer
  | concretize benchmark descriptor => do
    let (address, b) ← Frame.bindBenchmark benchmark
    let raw ← require descriptor "p_bench_desc"
    let concrete ← Act.ofExcept (Descriptor.ofRaw raw)
    Frame.onWorld (b.concretize address concrete)
    return .code .success
  | encode benchmark packs encoded => do
    let (_, b) ← Frame.bindBenchmark benchmark
    let memory ← require packs "p_parameters"
    discard (require encoded "h_encoded")
    let read ← Act.ofExcept memory.read
    let made ← Frame.onWorld (b.encode read)
    Frame.write (encode benchmark packs (some made))
    return .code .success
  | decode benchmark encoded packs => do
    let (_, b) ← Frame.bindBenchmark benchmark
    let memory ← require packs "p_native"
    let before ← Act.ofExcept memory.read
    let after ← Frame.onWorld (b.decode encoded before)
    Frame.write (decode benchmark encoded (some (memory.store after)))
    return .code .success
  | encrypt benchmark encoded encrypted => do
    let (_, b) ← Frame.bindBenchmark benchmark
    discard (require encrypted "h_encrypted")
    let made ← Frame.onWorld (b.encrypt encoded)
    Frame.write (encrypt benchmark encoded (some made))
    return .code .success
  | decrypt benchmark encrypted decrypted => do
    let (_, b) ← Frame.bindBenchmark benchmark
    discard (require decrypted "h_decrypted")
    let made ← Frame.onWorld (b.decrypt encrypted)
    Frame.write (decrypt benchmark encrypted (some made))
    return .code .success
  | load benchmark handles loaded => do
    let (_, b) ← Frame.bindBenchmark benchmark
    discard (require loaded "h_remote")
    let read ← readArray handles "p_local"
    let made ← Frame.onWorld (b.load read)
    Frame.write (load benchmark handles (some made))
    return .code .success
  | store benchmark result slots => do
    let (_, b) ← Frame.bindBenchmark benchmark
    let before ← readArray slots "p_local"
    let stored ← Frame.onWorld (b.store result before)
    Frame.write (store benchmark result (putAll slots stored))
    return .code .success
  | operate benchmark loaded selections result => do
    let (_, b) ← Frame.bindBenchmark benchmark
    discard (require result "h_result")
    let read ← readArray selections "p_indexers"
    let made ← Frame.onWorld (b.operate loaded read)
    Frame.write (operate benchmark loaded selections (some made))
    return .code .success
  | schemeName engine id buffer => do
    let e ← Frame.bindEngine engine
    let (answer, buffer) := answerText buffer (← Act.ofExcept (e.schemeName id))
    Frame.write (schemeName engine id buffer)
    return answer
  | securityName engine id buffer => do
    let e ← Frame.bindEngine engine
    let (answer, buffer) := answerText buffer (← Act.ofExcept (e.securityName id))
    Frame.write (securityName engine id buffer)
    return answer
  | errorText engine code buffer => do
    let e ← Frame.bindEngine engine
    let (answer, buffer) :=
      answerText buffer (← Frame.lookSession e.session fun s => s.errorText code)
    Frame.write (errorText engine code buffer)
    return answer
  | lastError engine => do
    let e ← Frame.bindEngine engine
    let code ← Frame.lookSession e.session fun s => s.lastError.code
    return .code code
  | lastErrorText engine buffer => do
    let e ← Frame.bindEngine engine
    let (answer, buffer) :=
      answerText buffer (← Frame.lookSession e.session fun s => s.lastError.message)
    Frame.write (lastErrorText engine buffer)
    return answer

/-- How a call went: what its body yields or why it failed, and the call with the host memory after
it. -/
structure Ending where
  /-- The answer of the body, or the failure. -/
  outcome : Except Failure Answer
  /-- The call with the host memory after it. -/
  memory : Call

/-- Carries out the body of a call. A refusal and a panic of a backend end the call with a failure,
which is recorded in the session resolved so far. -/
def attempt (c : Call) : Act World Ending := fun w =>
  match c.body ⟨w, none, c⟩ with
  | (.ok answer, f) => (.ok ⟨.ok answer, f.memory⟩, f.world)
  | (.error (.refused failure), f) => (.ok ⟨.error failure, f.memory⟩, f.blame failure)
  | (.error (.panicked message), f) =>
    let failure := .panicked c.name message
    (.ok ⟨.error failure, f.memory⟩, f.blame failure)
  | (.error stop, f) => (.error stop, f.world)

/-- Performs a call. A host that keeps its side of the agreement always gets a reply. -/
def perform (c : Call) : Act World Reply := do
  let ending ← c.attempt
  return ⟨c.answer ending.outcome, ending.memory⟩

end Call

end HandleBench
