import HandleBench.Proofs.Jobs
import HandleBench.Proofs.PlainFailures

/-!
# Sessions under the steps of the pipeline

Sessions hold the counts of live benchmarks and the last failures. The steps of the pipeline, and
whatever else works on objects, do not touch them and make no engines. Such an act is called *tame*,
provided that it also refuses with plain failures only and panics only where it may: `Act.Tame`. An
act made of tame acts is tame, and so one lemma for each act in it shows this of a whole job,
`Benchmark.carryOut_tame`. The only jobs that panic are those of a backend that was told to.
-/

namespace HandleBench

/-- The backend that an instance runs on. -/
def Instance.backend : Instance → Backend
  | product _ => .matrixProduct
  | carrier config => .byteCarrier config

/-- The backend was told to panic. -/
def Backend.Panics : Backend → Prop
  | matrixProduct => False
  | byteCarrier config => config.operatePanics = true

/-- What a tame act stops for: it refuses with a plain failure, or it panics and may do so. -/
def Stop.Tame (panics : Prop) : Stop → Prop
  | .refused failure => failure.Plain
  | .panicked _ => panics
  | .released | .misread => True

/-- The engine in a cell. -/
def Cell.engine? : Cell → Option Engine
  | .engine e => some e
  | _ => none

namespace World

/-- The engine that a pointer leads to. -/
def engine? (w : World) : Pointer → Option Engine := w.view Cell.engine?

/-- The last failure of a session. Without one, or without a session, it is a success. -/
def lastError (w : World) (id : SessionId) : LastError :=
  (w.sessions[id]?.map (·.lastError)).getD ⟨.success, "Success"⟩

/-- The count of live benchmarks and the last failure of every session are the same, and there are
no other engines. -/
structure Quiet (w w' : World) : Prop where
  /-- No session is gone. -/
  size : w.sessions.size ≤ w'.sessions.size
  /-- The counts of live benchmarks are the same. -/
  live : w'.live = w.live
  /-- So are the last failures. -/
  lastError : w'.lastError = w.lastError
  /-- The engines that are there were there. -/
  engines : ∀ p e, w'.engine? p = some e → w.engine? p = some e

variable {w w' w'' : World} {c : Cell} {a : Nat}

theorem live_congr (h : w'.sessions = w.sessions) : w'.live = w.live := by
  funext id
  rw [live, live, h]

theorem lastError_congr (h : w'.sessions = w.sessions) : w'.lastError = w.lastError := by
  funext id
  rw [lastError, lastError, h]

theorem Quiet.of_sessions (h : w'.sessions = w.sessions)
    (he : ∀ p e, w'.engine? p = some e → w.engine? p = some e) : w.Quiet w' :=
  ⟨Nat.le_of_eq (by rw [h]), live_congr h, lastError_congr h, he⟩

theorem Quiet.refl (w : World) : w.Quiet w := .of_sessions rfl fun _ _ h => h

theorem Quiet.trans (h : w.Quiet w') (h' : w'.Quiet w'') : w.Quiet w'' := by
  refine ⟨Nat.le_trans h.size h'.size, h'.live.trans h.live, h'.lastError.trans h.lastError, ?_⟩
  intro p e he
  exact h.engines p e (h'.engines p e he)

/-- Payloads may be anything. -/
theorem Quiet.of_cells (h : w'.sessions = w.sessions) (hc : w'.cells = w.cells) : w.Quiet w' := by
  refine .of_sessions h ?_
  intro p e he
  cases p with
  | word => exact he
  | cell a => simpa only [engine?, view, hc] using he

/-- A new cell may hold anything but an engine. -/
theorem Quiet.push (h : w'.sessions = w.sessions) (hc : w'.cells = w.cells.push c)
    (hn : c.engine? = none) : w.Quiet w' := by
  refine .of_sessions h ?_
  intro p e he
  rw [engine?, view_push Cell.engine? hc] at he
  split at he
  · rw [hn] at he
    cases he
  · exact he

/-- So may a cell that is overwritten. -/
theorem Quiet.set (h : w'.sessions = w.sessions) (hc : w'.cells = w.cells.setIfInBounds a c)
    (hn : c.engine? = none) : w.Quiet w' := by
  by_cases ha : a < w.cells.size
  · refine .of_sessions h ?_
    intro p e he
    rw [engine?, view_set Cell.engine? hc ha] at he
    split at he
    · rw [hn] at he
      cases he
    · exact he
  · refine .of_cells h ?_
    rw [hc, Array.setIfInBounds_eq_of_size_le (by omega)]

theorem Quiet.clear (w : World) (address : Nat) : w.Quiet (w.clear address) := .set rfl rfl rfl

end World

/-- An engine that a handle is resolved to is there. -/
theorem Engine.Found.engine? {w : World} {h : Handle} {found : Nat × Engine}
    (hf : Engine.Found w h found) : w.engine? h.pointer = some found.2 := by
  simp [World.engine?, World.view, hf.pointer, hf.cell, Cell.engine?]

/-! ### Tame acts -/

variable {panics : Prop}

namespace Act

variable {α β : Type}

/-- Wherever the act is carried out, sessions and engines stay as they are, and it stops only for
what a tame act stops for. -/
def Tame (act : Act World α) (panics : Prop) : Prop :=
  ∀ w, w.Quiet (act w).2 ∧ ∀ reason, (act w).1 = .error reason → reason.Tame panics

namespace Tame

variable {act : Act World α} {failure : Failure} {w w' : World} {a : α} {reason : Stop}

theorem quiet_of_ok (h : act.Tame True) (ha : act w = (.ok a, w')) : w.Quiet w' := by
  have hq := (h w).1
  rwa [ha] at hq

theorem plain_of_error (h : act.Tame True) (ha : act w = (.error (.refused failure), w')) :
    failure.Plain :=
  (h w).2 (.refused failure) (by rw [ha])

theorem of_panicked (h : act.Tame panics) {message : String}
    (ha : act w = (.error (.panicked message), w')) : panics :=
  (h w).2 (.panicked message) (by rw [ha])

protected theorem pure (a : α) : (pure a : Act World α).Tame panics := by
  intro w
  exact ⟨.refl w, fun reason h => by cases h⟩

theorem stop (h : reason.Tame panics) : (stop reason : Act World α).Tame panics := by
  intro w
  refine ⟨.refl w, ?_⟩
  intro reason' hr
  cases hr
  exact h

theorem refuse (h : failure.Plain) : (refuse failure : Act World α).Tame panics := stop h

theorem ofExcept {e : Except Failure α} (h : FailsPlainly e) : (ofExcept e).Tame panics := by
  cases e with
  | ok a => exact Tame.pure a
  | error failure => exact refuse (h failure rfl)

theorem look (f : World → α) : (look f).Tame panics := by
  intro w
  exact ⟨.refl w, fun reason h => by cases h⟩

theorem change {f : World → World} (h : ∀ w : World, w.Quiet (f w)) : (change f).Tame panics := by
  intro w
  exact ⟨h w, fun reason h => by cases h⟩

/-- One tame act after another is tame, whether the second happens or not. -/
protected theorem bind {next : α → Act World β} (h : act.Tame panics)
    (hn : ∀ a, (next a).Tame panics) : (act >>= next).Tame panics := by
  intro w
  obtain ⟨hq, hp⟩ := h w
  rw [bind_apply]
  cases ha : act w with
  | mk result w' =>
    rw [ha] at hq hp
    cases result with
    | ok a =>
      obtain ⟨hq', hp'⟩ := hn a w'
      exact ⟨hq.trans hq', hp'⟩
    | error reason =>
      refine ⟨hq, ?_⟩
      intro reason' hr
      cases hr
      exact hp reason rfl

end Tame

end Act

theorem World.follow_tame (p : Pointer) : (follow p).Tame panics := by
  intro w
  have misread : (Act.stop .misread : Act World (Nat × Cell)).Tame panics := .stop trivial
  have released : (Act.stop .released : Act World (Nat × Cell)).Tame panics := .stop trivial
  unfold follow
  split
  · exact misread w
  · split
    · exact misread w
    · exact released w
    · exact Act.Tame.pure _ w

/-! ### Objects -/

namespace Object

variable (session : SessionId) (h : Handle)

theorem mint_tame (object : ObjectCell) (size : UInt64) (tag : Tag) :
    (mint object size tag).Tame panics := by
  refine .bind ?_ fun address => .pure _
  intro w
  exact ⟨.push rfl rfl rfl, fun reason h => by cases h⟩

theorem create_tame (size : UInt64) (bits : Tag) (value : Payload) :
    (create session size bits value).Tame panics := by
  refine .bind (.ofExcept (requireUnreserved_plain bits)) fun _ => ?_
  refine .bind (.look _) fun index => ?_
  refine .bind (.change fun w => .of_cells rfl rfl) fun _ => ?_
  exact mint_tame _ size _

theorem resolve_tame (required : Tag) : (resolve session h required).Tame panics := by
  refine .bind (.ofExcept (h.checkObject_plain required)) fun _ => ?_
  split
  · exact .refuse rfl
  refine .bind (World.follow_tame h.pointer) fun found => ?_
  split
  · split
    · exact .pure _
    · exact .refuse rfl
  · exact .stop trivial

theorem retrieve_tame (required : Tag) (expected : PayloadKind) :
    (retrieve session h required expected).Tame panics := by
  refine .bind (resolve_tame session h required) fun found => ?_
  refine .bind (.look _) fun value => ?_
  split
  · exact .pure _
  · exact .refuse rfl

theorem duplicate_tame (bits : Option Tag) (required : Tag) :
    (duplicate session h bits required).Tame panics := by
  have shared : ∀ (object : ObjectCell) (tag : Tag),
      (Act.change (fun w : World => w.addHolder object.payload) >>=
        fun _ => mint object h.size tag).Tame panics := by
    intro object tag
    exact .bind (.change fun w => .of_cells rfl rfl) fun _ => mint_tame object h.size tag
  refine .bind (resolve_tame session h required) fun found => ?_
  cases bits with
  | none => exact shared found.2 h.tag
  | some bits =>
    refine .bind (.ofExcept (requireUnreserved_plain bits)) fun _ => ?_
    exact shared found.2 (.object ||| bits)

theorem destroy_tame : (destroy session h).Tame panics := by
  refine .bind (resolve_tame session h 0) fun found => ?_
  exact .change fun w => .set rfl rfl rfl

theorem holders_tame : (holders session h).Tame panics := by
  refine .bind (resolve_tame session h 0) fun found => ?_
  exact .look _

end Object

/-! ### Jobs -/

namespace Carrier

variable (session : SessionId) (h : Handle)

theorem share_tame : (share session h).Tame panics := Object.duplicate_tame session h none dataBit

theorem store_tame (slots : List Handle) : (store session h slots).Tame panics := by
  refine .bind (share_tame session h) fun stored => ?_
  cases slots with
  | nil => exact .bind (Object.destroy_tame session stored) fun _ => .pure _
  | cons slot slots => exact .pure _

theorem operate_tame (config : CarrierConfig) (hp : config.operatePanics = true → panics) :
    (operate config session h).Tame panics := by
  unfold operate
  split
  · next hc => exact .stop (hp hc)
  split
  · exact .refuse rfl
  · exact share_tame session h

end Carrier

namespace Product

variable (p : Product) (session : SessionId) (h : Handle)

theorem encode_tame (packs : List Pack) : (p.encode session packs).Tame panics := by
  refine .bind (.ofExcept (p.operands_plain packs)) fun components => ?_
  exact Object.create_tame session _ _ _

theorem load_tame (handles : List Handle) : (load session handles).Tame panics := by
  unfold load
  split
  · exact Object.duplicate_tame session _ _ _
  · exact .refuse rfl

theorem store_tame (slots : List Handle) : (store session h slots).Tame panics := by
  cases slots with
  | nil => exact .pure _
  | cons slot slots => exact .bind (Object.duplicate_tame session h _ _) fun stored => .pure _

theorem operate_tame (selections : List Selection) :
    (p.operate session h selections).Tame panics := by
  refine .bind (.ofExcept (p.selections_plain selections)) fun selected => ?_
  refine .bind (Object.retrieve_tame session h _ _) fun components => ?_
  refine .bind (.ofExcept (results_plain components _ _)) fun results => ?_
  exact Object.create_tame session _ _ _

end Product

namespace Benchmark

variable (b : Benchmark) (h : Handle)

theorem resolve_tame : (resolve h).Tame panics := by
  unfold resolve
  split
  · exact .refuse rfl
  split
  · exact .refuse rfl
  refine .bind (World.follow_tame h.pointer) fun found => ?_
  split
  · exact .pure _
  · exact .stop trivial

theorem concretize_tame (address : Nat) (concrete : Descriptor) :
    (b.concretize address concrete).Tame panics := by
  refine .bind (.ofExcept (b.inst.concretize_plain concrete)) fun inst => ?_
  exact .change fun w => .set rfl rfl rfl

theorem encode_tame (packs : List Pack) : (b.encode packs).Tame panics := by
  obtain ⟨session, inst⟩ := b
  cases inst with
  | product p => exact p.encode_tame session packs
  | carrier config => exact Object.create_tame session _ _ _

theorem decode_tame (packs : List Pack) : (b.decode h packs).Tame panics := by
  obtain ⟨session, inst⟩ := b
  cases inst with
  | product p => exact .bind (Object.retrieve_tame session h _ _) fun _ => .pure _
  | carrier config => exact .bind (Object.retrieve_tame session h _ _) fun _ => .pure _

theorem encrypt_tame : (b.encrypt h).Tame panics := by
  obtain ⟨session, inst⟩ := b
  cases inst with
  | product p => exact Object.duplicate_tame session h _ _
  | carrier config => exact Carrier.share_tame session h

theorem decrypt_tame : (b.decrypt h).Tame panics := by
  obtain ⟨session, inst⟩ := b
  cases inst with
  | product p => exact Object.duplicate_tame session h _ _
  | carrier config => exact Carrier.share_tame session h

theorem load_tame (handles : List Handle) : (b.load handles).Tame panics := by
  obtain ⟨session, inst⟩ := b
  cases inst with
  | product p => exact Product.load_tame session handles
  | carrier config =>
    cases handles with
    | nil => exact .refuse rfl
    | cons first rest => exact Carrier.share_tame session first

theorem store_tame (slots : List Handle) : (b.store h slots).Tame panics := by
  obtain ⟨session, inst⟩ := b
  cases inst with
  | product p => exact Product.store_tame session h slots
  | carrier config => exact Carrier.store_tame session h slots

theorem operate_tame (selections : List Selection) (hp : b.inst.backend.Panics → panics) :
    (b.operate h selections).Tame panics := by
  obtain ⟨session, inst⟩ := b
  cases inst with
  | product p => exact p.operate_tame session h selections
  | carrier config => exact Carrier.operate_tame session h config hp

/-- Every job of a benchmark is tame, and it panics only if the backend was told to. -/
theorem carryOut_tame (address : Nat) (job : Job) (hp : b.inst.backend.Panics → panics) :
    (b.carryOut address job).Tame panics := by
  cases job with
  | concretize concrete => exact .bind (b.concretize_tame address concrete) fun _ => .pure _
  | encode packs => exact .bind (b.encode_tame packs) fun _ => .pure _
  | decode encoded packs => exact .bind (b.decode_tame encoded packs) fun _ => .pure _
  | encrypt encoded => exact .bind (b.encrypt_tame encoded) fun _ => .pure _
  | decrypt encrypted => exact .bind (b.decrypt_tame encrypted) fun _ => .pure _
  | load handles => exact .bind (b.load_tame handles) fun _ => .pure _
  | store result slots => exact b.store_tame result slots
  | operate loaded selections => exact .bind (b.operate_tame loaded selections hp) fun _ => .pure _

end Benchmark

/-! ### Creating benchmarks -/

/-- The world with one live benchmark more in a session. -/
def World.takeSlot (w : World) (id : SessionId) : World :=
  w.changeSession id fun s => { s with live := s.live + 1 }

/-- A slot is refused exactly if as many are taken as there may be. -/
theorem World.acquireSlot_cases (w : World) (id : SessionId) (limit : Option Nat) :
    (∃ k, limit = some k ∧ k ≤ w.live id ∧
      acquireSlot id limit w = (.error (.refused (.benchmarkLimit k)), w)) ∨
    (∀ k, limit = some k → w.live id < k) ∧ acquireSlot id limit w = (.ok (), w.takeSlot id) := by
  unfold acquireSlot
  cases limit with
  | none => exact .inr ⟨fun k hk => (by cases hk), rfl⟩
  | some k =>
    by_cases hk : k ≤ w.live id
    · refine .inl ⟨k, rfl, hk, ?_⟩
      simp [Option.filter, hk]
    · refine .inr ⟨?_, ?_⟩
      · intro k' hk'
        cases hk'
        omega
      · simp [Option.filter, hk, takeSlot]

/-- Creating a benchmark is refused for the limit if no slot is left, and only then. Otherwise it is
up to the backend; if that refuses, the slot is given back. -/
theorem Benchmark.create_cases (w : World) (session : SessionId) (limit : Option Nat)
    (description : Description) (params : Option (List Param)) :
    (∃ k, limit = some k ∧ k ≤ w.live session ∧
      create session limit description params w = (.error (.refused (.benchmarkLimit k)), w)) ∨
    (∀ k, limit = some k → w.live session < k) ∧
      ((∃ failure, instantiate description params = .error failure ∧
        create session limit description params w = (.error (.refused failure), w)) ∨
      ∃ inst, instantiate description params = .ok inst ∧
        create session limit description params w =
          (.ok ⟨.cell w.cells.size, 0, inst.classTag ||| .instanceBits⟩,
            { w.takeSlot session with cells := w.cells.push (.benchmark ⟨session, inst⟩) })) := by
  rcases w.acquireSlot_cases session limit with ⟨k, hl, hk, ha⟩ | ⟨hroom, ha⟩
  · refine .inl ⟨k, hl, hk, ?_⟩
    rw [create, Act.bind_of_stop ha]
  · refine .inr ⟨hroom, ?_⟩
    rw [create, Act.bind_of_ok ha]
    cases hi : instantiate description params with
    | error failure =>
      refine .inl ⟨failure, rfl, ?_⟩
      exact congrArg (Except.error (Stop.refused failure), ·) (w.releaseSlot_acquired session)
    | ok inst => exact .inr ⟨inst, rfl, rfl⟩

/-! ### Engines -/

namespace Engine

variable (e : Engine) (h : Handle)

theorem resolve_tame : (resolve h).Tame panics := by
  unfold resolve
  split
  · exact .refuse rfl
  refine .bind (World.follow_tame h.pointer) fun found => ?_
  split
  · exact .pure _
  · exact .stop trivial

theorem own_tame : (e.own h).Tame panics := by
  refine .bind (Benchmark.resolve_tame h) fun found => ?_
  dsimp only
  split
  · exact .pure _
  · exact .refuse rfl

/-- The built-in backend can be registered, so starting an engine of it fails only for the version
that the settings ask for. -/
theorem start_failure {settings : EngineSettings} {w w' : World} {failure : Failure}
    (hs : start .matrixProduct settings w = (.error (.refused failure), w')) : failure.Plain := by
  unfold start at hs
  cases hv : settings.checkVersion with
  | error failure' =>
    rw [hv] at hs
    cases hs
    exact settings.checkVersion_plain _ hv
  | ok =>
    rw [hv] at hs
    cases hs

/-- An engine creates a benchmark of a catalog entry in its own session and within its limit. -/
theorem create_eq {e : Engine} {h : Handle} {description : Description}
    (hd : e.find h = .ok description) (params : Option (List Param)) :
    e.create h params = Benchmark.create e.session e.settings.maxLive description params := by
  rw [create, hd]
  rfl

/-- An engine that creates a benchmark has had room for it, and it puts the instance that the
backend makes to a new address. -/
theorem create_makes {e : Engine} {h made : Handle} {params : Option (List Param)} {w w' : World}
    (hc : e.create h params w = (.ok made, w')) :
    ∃ description inst, e.find h = .ok description ∧
      Benchmark.instantiate description params = .ok inst ∧
      (∀ k, e.settings.maxLive = some k → w.live e.session < k) ∧
      made = ⟨.cell w.cells.size, 0, inst.classTag ||| .instanceBits⟩ ∧
      w' = { w.takeSlot e.session with
        cells := w.cells.push (.benchmark ⟨e.session, inst⟩) } := by
  cases hd : e.find h with
  | error failure =>
    rw [create, hd] at hc
    cases hc
  | ok description =>
    rw [create_eq hd] at hc
    rcases Benchmark.create_cases w e.session e.settings.maxLive description params with
      ⟨k, -, -, hr⟩ | ⟨hroom, ⟨failure, -, hr⟩ | ⟨inst, hi, hr⟩⟩
    · rw [hr] at hc
      cases hc
    · rw [hr] at hc
      cases hc
    · rw [hr] at hc
      cases hc
      exact ⟨description, inst, rfl, hi, hroom, rfl, rfl⟩

/-- Creating a benchmark fails with a plain failure, or it is that of a byte carrier which was told
to fail. -/
theorem create_failure {e : Engine} {h : Handle} {params : Option (List Param)} {w w' : World}
    {failure : Failure} (hc : e.create h params w = (.error (.refused failure), w')) :
    failure.Plain ∨ ∃ description config code, e.find h = .ok description ∧
      description.backend = .byteCarrier config ∧ config.createFailsWith = some code ∧
      failure = .worded (.backend code) "mock create_benchmark failed" := by
  cases hd : e.find h with
  | error failure' =>
    rw [create, hd] at hc
    cases hc
    exact .inl (e.find_plain h _ hd)
  | ok description =>
    rw [create_eq hd] at hc
    rcases Benchmark.create_cases w e.session e.settings.maxLive description params with
      ⟨k, -, -, hr⟩ | ⟨-, ⟨failure', hi, hr⟩ | ⟨inst, hi, hr⟩⟩
    · rw [hr] at hc
      cases hc
      exact .inl rfl
    · rw [hr] at hc
      cases hc
      rcases Benchmark.instantiate_failure hi with
        hs | rfl | ⟨tag, rfl⟩ | ⟨config, code, hb, hcode, rfl⟩
      · exact .inl (Failure.plain_of_isOfShape hs)
      · exact .inl rfl
      · exact .inl rfl
      · exact .inr ⟨description, config, code, rfl, hb, hcode, rfl⟩
    · rw [hr] at hc
      cases hc

end Engine

end HandleBench
