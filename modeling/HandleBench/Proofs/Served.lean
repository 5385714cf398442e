import HandleBench.Proofs.HostResults
import HandleBench.Proofs.Sessions

/-!
# Calls that are served and calls that are refused

`Call.Served` tells what a call that succeeds has done: what was resolved, which act of an engine or
of a benchmark was carried out on the world, and that its results are in the host memory. There is
one rule for each call, four for releasing. A call that does not succeed has been refused with a
plain failure, with one exception, a byte carrier that was told to fail when a benchmark of it is
created, `Call.Provokes`. Both are shown for the bodies of all calls at once, `Call.body_served`.
-/

namespace HandleBench

open Call (announced answerText putAll)

namespace Call

/-- The call succeeds in the world `w`: it leaves this world and this reply. -/
inductive Served (w : World) : Call → World → Reply → Prop where
  /-- The version is written. -/
  | version {major minor revision : UInt64} :
    Served w (version (some major) (some minor) (some revision)) w
      ⟨.code .success, version (some versionMajor) (some versionMinor) (some versionRevision)⟩
  /-- An engine of the built-in backend is started. -/
  | start {slot : Handle} {settings : HostArray UInt8} {read : EngineSettings} {made : Handle}
    {w' : World} (reads : EngineSettings.ofOctets (announced settings) = .ok read)
    (starts : Engine.start .matrixProduct read w = (.ok made, w')) :
    Served w (start (some slot) settings) w' ⟨.code .success, start (some made) settings⟩
  /-- There is nothing to release. -/
  | destroyNothing {h : Handle} (nothing : Event.ofDestroy h = .nothing) :
    Served w (destroy h) w ⟨.code .success, destroy h⟩
  /-- An engine is released. -/
  | destroyEngine {h : Handle} {found : Nat × Engine} (finds : Engine.Found w h found) :
    Served w (destroy h) (w.clear found.1) ⟨.code .success, destroy h⟩
  /-- A benchmark is released. -/
  | destroyBenchmark {h : Handle} {found : Nat × Benchmark} (finds : Benchmark.Found w h found) :
    Served w (destroy h) (Benchmark.release w found.1 found.2) ⟨.code .success, destroy h⟩
  /-- An object is released. -/
  | destroyObject {session : SessionId} {h : Handle} {found : Nat × ObjectCell}
    (finds : Object.Found w session h found) :
    Served w (destroy h) (Object.release w found.1 found.2) ⟨.code .success, destroy h⟩
  /-- The size of the catalog is written. -/
  | count {h : Handle} {slot : UInt64} {found : Nat × Engine} (finds : Engine.Found w h found) :
    Served w (count h (some slot)) w
      ⟨.code .success, count h (some (.ofNat found.2.catalog.length))⟩
  /-- The handles of all catalog entries are written. -/
  | subscribe {h : Handle} {slots : HostArray Handle} {found : Nat × Engine} {made : List Handle}
    (finds : Engine.Found w h found) (makes : found.2.subscribe (announced slots) = .ok made) :
    Served w (subscribe h slots) w ⟨.code .success, subscribe h (putAll slots made)⟩
  /-- The size and the count of default sets are written. -/
  | details {h entry : Handle} {arity sets : UInt64} {found : Nat × Engine} {size count : Nat}
    (finds : Engine.Found w h found) (sizes : found.2.arity entry = .ok size)
    (counts : found.2.setCount entry = .ok count) :
    Served w (details h entry (some arity) (some sets)) w
      ⟨.code .success, details h entry (some (.ofNat size)) (some (.ofNat count))⟩
  /-- The descriptor and the default sets are written. -/
  | describe {h entry : Handle} {raw : RawDescriptor} {slots : HostArray (HostArray Param)}
    {found : Nat × Engine} {size count : Nat} {outline : Engine.Outline}
    (finds : Engine.Found w h found) (sizes : found.2.arity entry = .ok size)
    (counts : found.2.setCount entry = .ok count)
    (describes : found.2.describe entry
      ⟨.plain, ((announced slots).take count).map (blank size)⟩ = (.ok (), outline)) :
    Served w (describe h entry (some raw) slots) w
      ⟨.code .success, describe h entry (some outline.descriptor.raw)
        (slots.change (overwrite putAll · outline.slots))⟩
  /-- A benchmark is created. -/
  | create {h entry : Handle} {params : Option (HostArray Param)} {slot made : Handle}
    {found : Nat × Engine} {w' : World} (finds : Engine.Found w h found)
    (creates : found.2.create entry (params.map announced) w = (.ok made, w')) :
    Served w (create h entry params (some slot)) w'
      ⟨.code .success, create h entry params (some made)⟩
  /-- The text of an entry is written. -/
  | text {h entry : Handle} {params : Option (HostArray Param)} {buffer : TextBuffer}
    {found : Nat × Engine} {content : String} (finds : Engine.Found w h found)
    (tells : found.2.text entry (params.map announced) = .ok content) :
    Served w (text h entry params buffer) w
      ⟨(answerText buffer content).1, text h entry params (answerText buffer content).2⟩
  /-- A benchmark gets a concrete descriptor. -/
  | concretize {h : Handle} {raw : RawDescriptor} {concrete : Descriptor}
    {found : Nat × Benchmark} {w' : World} (finds : Benchmark.Found w h found)
    (reads : Descriptor.ofRaw raw = .ok concrete)
    (works : found.2.concretize found.1 concrete w = (.ok (), w')) :
    Served w (concretize h (some raw)) w' ⟨.code .success, concretize h (some raw)⟩
  /-- Samples are encoded. -/
  | encode {h slot made : Handle} {packs : HostPacks} {read : List Pack}
    {found : Nat × Benchmark} {w' : World} (finds : Benchmark.Found w h found)
    (reads : packs.read = .ok read) (works : found.2.encode read w = (.ok made, w')) :
    Served w (encode h (some packs) (some slot)) w'
      ⟨.code .success, encode h (some packs) (some made)⟩
  /-- Data is decoded into the packs of the host, each of which takes what was decoded for it. -/
  | decode {h source : Handle} {packs filled : HostPacks} {before after : List Pack}
    {found : Nat × Benchmark} {w' : World} (finds : Benchmark.Found w h found)
    (reads : packs.read = .ok before)
    (works : found.2.decode source before w = (.ok after, w'))
    (takes : packs.TakesAll HostPack.Takes after filled) :
    Served w (decode h source (some packs)) w'
      ⟨.code .success, decode h source (some filled)⟩
  /-- Encoded data is encrypted. -/
  | encrypt {h source slot made : Handle} {found : Nat × Benchmark} {w' : World}
    (finds : Benchmark.Found w h found) (works : found.2.encrypt source w = (.ok made, w')) :
    Served w (encrypt h source (some slot)) w' ⟨.code .success, encrypt h source (some made)⟩
  /-- Encrypted data is decrypted. -/
  | decrypt {h source slot made : Handle} {found : Nat × Benchmark} {w' : World}
    (finds : Benchmark.Found w h found) (works : found.2.decrypt source w = (.ok made, w')) :
    Served w (decrypt h source (some slot)) w' ⟨.code .success, decrypt h source (some made)⟩
  /-- Encrypted data is loaded. -/
  | load {h slot made : Handle} {handles : HostArray Handle} {found : Nat × Benchmark}
    {w' : World} (finds : Benchmark.Found w h found)
    (works : found.2.load (announced handles) w = (.ok made, w')) :
    Served w (load h handles (some slot)) w' ⟨.code .success, load h handles (some made)⟩
  /-- Results are stored. -/
  | store {h result : Handle} {slots : HostArray Handle} {found : Nat × Benchmark}
    {stored : List Handle} {w' : World} (finds : Benchmark.Found w h found)
    (works : found.2.store result (announced slots) w = (.ok stored, w')) :
    Served w (store h result slots) w' ⟨.code .success, store h result (putAll slots stored)⟩
  /-- The workload is run. -/
  | operate {h loaded slot made : Handle} {selections : HostArray Selection}
    {found : Nat × Benchmark} {w' : World} (finds : Benchmark.Found w h found)
    (works : found.2.operate loaded (announced selections) w = (.ok made, w')) :
    Served w (operate h loaded selections (some slot)) w'
      ⟨.code .success, operate h loaded selections (some made)⟩
  /-- The name of a scheme is written. -/
  | schemeName {h : Handle} {id : Int32} {buffer : TextBuffer} {found : Nat × Engine}
    {name : String} (finds : Engine.Found w h found) (names : found.2.schemeName id = .ok name) :
    Served w (schemeName h id buffer) w
      ⟨(answerText buffer name).1, schemeName h id (answerText buffer name).2⟩
  /-- The name of a security level is written. -/
  | securityName {h : Handle} {id : Int32} {buffer : TextBuffer} {found : Nat × Engine}
    {name : String} (finds : Engine.Found w h found) (names : found.2.securityName id = .ok name) :
    Served w (securityName h id buffer) w
      ⟨(answerText buffer name).1, securityName h id (answerText buffer name).2⟩
  /-- The text of an error code is written. -/
  | errorText {h : Handle} {code : Int32} {buffer : TextBuffer} {found : Nat × Engine}
    {content : String} (finds : Engine.Found w h found)
    (tells : content = (w.sessions[found.2.session]?.map (·.errorText code)).getD default) :
    Served w (errorText h code buffer) w
      ⟨(answerText buffer content).1, errorText h code (answerText buffer content).2⟩
  /-- The code of the last failure is the answer. -/
  | lastError {h : Handle} {found : Nat × Engine} {code : ReturnCode}
    (finds : Engine.Found w h found)
    (tells : code = (w.sessions[found.2.session]?.map (·.lastError.code)).getD default) :
    Served w (lastError h) w ⟨.code code, lastError h⟩
  /-- The message of the last failure is written. -/
  | lastErrorText {h : Handle} {buffer : TextBuffer} {found : Nat × Engine} {content : String}
    (finds : Engine.Found w h found)
    (tells : content = (w.sessions[found.2.session]?.map (·.lastError.message)).getD default) :
    Served w (lastErrorText h buffer) w
      ⟨(answerText buffer content).1, lastErrorText h (answerText buffer content).2⟩

/-- The call creates a benchmark of a byte carrier that was told to fail with the code. -/
def Provokes (w : World) (c : Call) (code : ReturnCode) : Prop :=
  ∃ engine entry params slot found description config,
    c = create engine entry params slot ∧ Engine.Found w engine found ∧
      found.2.find entry = .ok description ∧ description.backend = .byteCarrier config ∧
      config.createFailsWith = some code

/-- The failure of the call is plain, or it is the one that a byte carrier was told to make. -/
def Explained (w : World) (c : Call) (failure : Failure) : Prop :=
  failure.Plain ∨ ∃ code, c.Provokes w code ∧
    failure = .worded (.backend code) "mock create_benchmark failed"

/-- From here the call is served, or it stops; if it is refused, the failure is explained. -/
def Goes (w : World) (c : Call) (session : Option SessionId) (act : Act Frame Answer) : Prop :=
  act.Ends ⟨w, session, c⟩ (fun answer f => Served w c f.world ⟨answer, f.memory⟩)
    fun reason _ => ∀ failure, reason = .refused failure → Explained w c failure

section Goes

variable {w w' : World} {c : Call} {session : Option SessionId} {h : Handle} {α : Type}

theorem goes_refuse {failure : Failure} (hp : failure.Plain) :
    Goes w c session (Act.refuse failure) := by
  intro failure' he
  cases he
  exact .inl hp

theorem goes_stop {reason : Stop} (hs : ∀ failure, reason ≠ .refused failure) :
    Goes w c session (Act.stop reason) := by
  intro failure he
  exact absurd he (hs failure)

theorem goes_require {slot : Slot α} {name : String} {next : α → Act Frame Answer}
    (hn : ∀ content, slot = some content → Goes w c session (next content)) :
    Goes w c session (require slot name >>= next) := by
  cases slot with
  | none => exact goes_refuse rfl
  | some content => exact hn content rfl

theorem goes_discard_require {slot : Slot α} {name : String} {next : Unit → Act Frame Answer}
    (hn : ∀ content, slot = some content → Goes w c session (next ())) :
    Goes w c session (discard (require slot name) >>= next) := by
  cases slot with
  | none => exact goes_refuse rfl
  | some content => exact hn content rfl

theorem goes_ofExcept {e : Except Failure α} {next : α → Act Frame Answer}
    (hp : FailsPlainly e) (hn : ∀ a, e = .ok a → Goes w c session (next a)) :
    Goes w c session (Act.ofExcept e >>= next) := by
  cases e with
  | error failure => exact goes_refuse (hp failure rfl)
  | ok a => exact hn a rfl

theorem goes_readArray {array : HostArray α} {name : String} {next : List α → Act Frame Answer}
    (hn : Goes w c session (next (announced array))) :
    Goes w c session (readArray array name >>= next) := by
  refine goes_ofExcept (HostArray.read_plain array rfl) ?_
  intro read hr
  rw [read_eq_announced hr]
  exact hn

theorem goes_readParams {params : Option (HostArray Param)}
    {next : Option (List Param) → Act Frame Answer}
    (hn : Goes w c session (next (params.map announced))) :
    Goes w c session (readParams params >>= next) := by
  cases params with
  | none => exact hn
  | some array =>
    rw [readParams, Act.bind_bind]
    refine goes_readArray ?_
    cases ht : (announced array).mapM (·.type) with
    | error failure => exact goes_refuse (failsOnly_mapM Param.type_plain failure ht)
    | ok types => exact hn

/-- An array that is not null or not needed comes as a blank one. -/
theorem scratch_goes {arity : Nat} {hosts : List (HostArray Param)}
    {next : List (List Param) → Act Frame Answer}
    (hn : Goes w c session (next (hosts.map (blank arity)))) :
    Goes w c session (scratch arity hosts >>= next) := by
  induction hosts generalizing next with
  | nil => exact hn
  | cons host hosts ih =>
    unfold scratch at ih ⊢
    rw [List.mapM_cons, Act.bind_bind]
    have one : ∀ {next : List Param → Act Frame Answer},
        Goes w c session (next (blank arity host)) → Goes w c session ((do
          let size := min host.count.toNat arity
          if 0 < size then discard (require host.elements "params")
          return List.replicate size (Param.ofUInt64 "" 0)) >>= next) := by
      intro next hb
      dsimp only
      split
      · rw [Act.bind_bind]
        exact goes_discard_require fun _ _ => hb
      · exact hb
    refine one ?_
    rw [Act.bind_bind]
    exact ih hn

/-- A tame act on the world is the last that can be refused. -/
theorem goes_onWorld {act : Act World α} {next : α → Act Frame Answer} (ht : act.Tame True)
    (hn : ∀ a w', act w = (.ok a, w') → (next a).Ends ⟨w', session, c⟩
      (fun answer f => Served w c f.world ⟨answer, f.memory⟩) fun _ _ => False) :
    Goes w c session (Frame.onWorld act >>= next) := by
  refine Act.ends_bind.2 (Frame.ends_onWorld.2 (Act.ends_of_forall ?_ ?_))
  · intro a w' ha
    exact (hn a w' ha).mono (fun _ _ hs => hs) fun _ _ hf => hf.elim
  · intro reason w' ha failure he
    subst he
    exact .inl (ht.plain_of_error ha)

theorem goes_engine {next : Engine → Act Frame Answer}
    (hn : ∀ found, Engine.Found w h found → Goes w c (some found.2.session) (next found.2)) :
    Goes w c none (Frame.bindEngine h >>= next) := by
  rw [Frame.bindEngine, Act.bind_bind]
  refine Act.ends_bind.2 (Frame.ends_onWorld.2 (Act.ends_of_forall ?_ ?_))
  · intro found w' ha
    obtain ⟨rfl, hf⟩ := (Engine.resolve_atomic w h).of_ok ha
    exact hn found hf
  · intro reason w' ha failure he
    subst he
    exact .inl ((Engine.resolve_tame h).plain_of_error ha)

theorem goes_benchmark {next : Nat × Benchmark → Act Frame Answer}
    (hn : ∀ found, Benchmark.Found w h found → Goes w c (some found.2.session) (next found)) :
    Goes w c none (Frame.bindBenchmark h >>= next) := by
  rw [Frame.bindBenchmark, Act.bind_bind]
  refine Act.ends_bind.2 (Frame.ends_onWorld.2 (Act.ends_of_forall ?_ ?_))
  · intro found w' ha
    obtain ⟨rfl, hf⟩ := (Benchmark.resolve_atomic w h).of_ok ha
    exact hn found hf
  · intro reason w' ha failure he
    subst he
    exact .inl ((Benchmark.resolve_tame h).plain_of_error ha)

end Goes

/-! ### The calls -/

variable {w : World} {h : Handle}

/-- Whatever a pointer leads to is there. -/
theorem goes_follow {c : Call} {p : Pointer} {next : Nat × Cell → Act Frame Answer}
    (hn : ∀ a cell, p = .cell a → w.cells[a]? = some cell → Goes w c none (next (a, cell))) :
    Goes w c none (Frame.onWorld (World.follow p) >>= next) := by
  refine Act.ends_bind.2 (Frame.ends_onWorld.2 (Act.ends_of_forall ?_ ?_))
  · rintro ⟨a, cell⟩ w' ha
    have hf : (World.follow p).Atomic w False _ := World.follow_atomic (k := .object) False.elim
    obtain ⟨rfl, hp, hc⟩ := hf.of_ok ha
    exact hn a cell hp hc
  · intro reason w' ha failure he
    subst he
    exact .inl ((World.follow_tame p).plain_of_error ha)

theorem destroy_goes (w : World) (h : Handle) : Goes w (destroy h) none (destroy h).body := by
  show Goes w (destroy h) none (destroyAny h >>= fun _ => pure (.code .success))
  unfold destroyAny
  split
  · next hn => exact Served.destroyNothing (Event.ofDestroy_null hn)
  next hn =>
  split
  · rw [Act.bind_bind]
    exact goes_benchmark fun found hf => Served.destroyBenchmark hf
  split
  · next ht =>
    rw [Act.bind_bind]
    refine goes_follow fun a cell hp hc => ?_
    cases cell with
    | object o =>
      have hf : Object.Found w o.session h (a, o) := ⟨hp, hc, rfl, ht⟩
      exact Served.destroyObject hf
    | _ => exact goes_stop fun _ hs => by cases hs
  split
  · next ht =>
    rw [Act.bind_bind]
    refine goes_follow fun a cell hp hc => ?_
    cases cell with
    | engine e =>
      have hf : Engine.Found w h (a, e) := ⟨hp, hc, ht⟩
      exact Served.destroyEngine hf
    | _ => exact goes_stop fun _ hs => by cases hs
  split
  · next hd => exact Served.destroyNothing (Event.ofDestroy_entry hd)
  · exact goes_refuse rfl

theorem start_goes (w : World) (slot : Slot Handle) (settings : HostArray UInt8) :
    Goes w (start slot settings) none (start slot settings).body := by
  show Goes w _ none (if slot.isNone then _ else _)
  cases slot with
  | none => exact goes_refuse rfl
  | some slot =>
    refine goes_ofExcept (EngineSettings.ofOctets_plain _) fun read hr => ?_
    refine Act.ends_bind.2 (Frame.ends_onWorld.2 (Act.ends_of_forall ?_ ?_))
    · intro made w' hs
      exact Served.start hr hs
    · intro reason w' hs failure he
      subst he
      exact .inl (Engine.start_failure hs)

theorem describe_goes (w : World) (h entry : Handle) (descriptor : Slot RawDescriptor)
    (slots : HostArray (HostArray Param)) :
    Goes w (describe h entry descriptor slots) none (describe h entry descriptor slots).body := by
  show Goes w _ none (describeEntry h entry descriptor slots >>= fun x => _)
  unfold describeEntry
  rw [Act.bind_bind]
  refine goes_engine fun found hf => ?_
  cases descriptor with
  | none => exact goes_refuse rfl
  | some raw =>
    show Goes w _ _ ((Act.ofExcept (found.2.arity entry) >>= _) >>= _)
    rw [Act.bind_bind]
    refine goes_ofExcept (found.2.arity_plain entry) fun size hs => ?_
    rw [Act.bind_bind]
    refine goes_ofExcept (found.2.setCount_plain entry) fun count hc => ?_
    rw [Act.bind_bind]
    refine scratch_goes ?_
    split
    · next failure memory hd =>
      have hp := found.2.describe_plain entry
        ⟨.plain, ((announced slots).take count).map (blank size)⟩
      rw [hd] at hp
      exact goes_refuse (hp failure rfl)
    · next outline hd => exact Served.describe hf hs hc hd

theorem create_goes (w : World) (h entry : Handle) (params : Option (HostArray Param))
    (slot : Slot Handle) :
    Goes w (create h entry params slot) none (create h entry params slot).body := by
  refine goes_engine fun found hf => ?_
  refine goes_discard_require fun place hp => ?_
  subst hp
  refine goes_readParams ?_
  refine Act.ends_bind.2 (Frame.ends_onWorld.2 (Act.ends_of_forall ?_ ?_))
  · intro made w' hc
    exact Served.create hf hc
  · intro reason w' hc failure he
    subst he
    rcases Engine.create_failure hc with hp | ⟨description, config, code, hd, hb, hcode, rfl⟩
    · exact .inl hp
    · exact .inr ⟨code, ⟨h, entry, params, some place, found, description, config, rfl, hf, hd, hb,
        hcode⟩, rfl⟩

/-- Every call that gets through is served, and every other is refused for a reason that is
explained. -/
theorem body_served (w : World) (c : Call) : Goes w c none c.body := by
  cases c with
  | version major minor revision =>
    refine goes_discard_require fun _ hmajor => ?_
    refine goes_discard_require fun _ hminor => ?_
    refine goes_discard_require fun _ hrevision => ?_
    subst hmajor hminor hrevision
    exact Served.version
  | start slot settings => exact start_goes w slot settings
  | destroy h => exact destroy_goes w h
  | count h slot =>
    refine goes_engine fun found hf => ?_
    refine goes_discard_require fun _ hs => ?_
    subst hs
    exact Served.count hf
  | subscribe h slots =>
    refine goes_engine fun found hf => ?_
    refine goes_readArray ?_
    refine goes_ofExcept (found.2.subscribe_plain _) fun made hm => ?_
    exact Served.subscribe hf hm
  | details h entry arity sets =>
    refine goes_engine fun found hf => ?_
    refine goes_discard_require fun _ ha => ?_
    refine goes_discard_require fun _ hs => ?_
    subst ha hs
    refine goes_ofExcept (found.2.arity_plain entry) fun size hs => ?_
    refine goes_ofExcept (found.2.setCount_plain entry) fun count hc => ?_
    exact Served.details hf hs hc
  | describe h entry descriptor slots => exact describe_goes w h entry descriptor slots
  | create h entry params slot => exact create_goes w h entry params slot
  | text h entry params buffer =>
    refine goes_engine fun found hf => ?_
    refine goes_readParams ?_
    refine goes_ofExcept (found.2.text_plain entry _) fun content ht => ?_
    exact Served.text hf ht
  | concretize h descriptor =>
    refine goes_benchmark fun found hf => ?_
    refine goes_require fun raw hr => ?_
    subst hr
    refine goes_ofExcept (Descriptor.ofRaw_plain raw) fun concrete hd => ?_
    refine goes_onWorld (found.2.concretize_tame found.1 concrete) fun _ w' hw => ?_
    exact Served.concretize hf hd hw
  | encode h packs slot =>
    refine goes_benchmark fun found hf => ?_
    refine goes_require fun memory hm => ?_
    refine goes_discard_require fun _ hs => ?_
    subst hm hs
    refine goes_ofExcept memory.read_plain fun read hr => ?_
    refine goes_onWorld (found.2.encode_tame read) fun made w' hw => ?_
    exact Served.encode hf hr hw
  | decode h source packs =>
    refine goes_benchmark fun found hf => ?_
    refine goes_require fun memory hm => ?_
    subst hm
    refine goes_ofExcept memory.read_plain fun before hb => ?_
    refine goes_onWorld (found.2.decode_tame source before) fun after w' hw => ?_
    exact Served.decode hf hb hw (HostPacks.takes_decoded hb hw)
  | encrypt h source slot =>
    refine goes_benchmark fun found hf => ?_
    refine goes_discard_require fun _ hs => ?_
    subst hs
    refine goes_onWorld (found.2.encrypt_tame source) fun made w' hw => ?_
    exact Served.encrypt hf hw
  | decrypt h source slot =>
    refine goes_benchmark fun found hf => ?_
    refine goes_discard_require fun _ hs => ?_
    subst hs
    refine goes_onWorld (found.2.decrypt_tame source) fun made w' hw => ?_
    exact Served.decrypt hf hw
  | load h handles slot =>
    refine goes_benchmark fun found hf => ?_
    refine goes_discard_require fun _ hs => ?_
    subst hs
    refine goes_readArray ?_
    refine goes_onWorld (found.2.load_tame _) fun made w' hw => ?_
    exact Served.load hf hw
  | store h result slots =>
    refine goes_benchmark fun found hf => ?_
    refine goes_readArray ?_
    refine goes_onWorld (found.2.store_tame result _) fun stored w' hw => ?_
    exact Served.store hf hw
  | operate h loaded selections slot =>
    refine goes_benchmark fun found hf => ?_
    refine goes_discard_require fun _ hs => ?_
    subst hs
    refine goes_readArray ?_
    refine goes_onWorld (found.2.operate_tame loaded _ fun _ => trivial) fun made w' hw => ?_
    exact Served.operate hf hw
  | schemeName h id buffer =>
    refine goes_engine fun found hf => ?_
    refine goes_ofExcept (found.2.schemeName_plain id) fun name hn => ?_
    exact Served.schemeName hf hn
  | securityName h id buffer =>
    refine goes_engine fun found hf => ?_
    refine goes_ofExcept (found.2.securityName_plain id) fun name hn => ?_
    exact Served.securityName hf hn
  | errorText h code buffer =>
    refine goes_engine fun found hf => ?_
    exact Served.errorText hf rfl
  | lastError h =>
    refine goes_engine fun found hf => ?_
    exact Served.lastError hf rfl
  | lastErrorText h buffer =>
    refine goes_engine fun found hf => ?_
    exact Served.lastErrorText hf rfl

end Call

end HandleBench
