import HandleBench.Proofs.BareInstances
import HandleBench.Proofs.Runs

/-!
# Deeds

Whatever succeeds has done one of a dozen things to the world, and it has done it in one session:
`World.Deed` has a rule for each of them. A deed puts nothing into cells but what belongs to its
session, and takes nothing away that belongs to another. `Move.perform_deed` says of every move that
it is a deed in its *home*, the session that it works in, and that whatever it has resolved belongs
there. What is to be kept by every move is then shown by going through the deeds once.
-/

namespace HandleBench

/-! ### Instances and their backends -/

/-- An instance runs on the backend of its description. -/
theorem Description.backend_of_instantiate {d : Description} {params : Option (List Param)}
    {inst : Instance} (h : d.instantiate params = .ok inst) : inst.backend = d.backend := by
  unfold instantiate at h
  split at h
  · next hb =>
    rw [hb]
    cases params with
    | none => cases h
    | some params =>
      simp only at h
      cases hp : Product.ofParams d.descriptor params with
      | error failure =>
        rw [hp] at h
        cases h
      | ok p =>
        rw [hp] at h
        cases h
        rfl
  · next config hb =>
    rw [hb]
    split at h
    · cases h
    · cases h
      rfl

theorem Benchmark.backend_of_instantiate {d : Description} {params : Option (List Param)}
    {inst : Instance} (h : instantiate d params = .ok inst) : inst.backend = d.backend := by
  obtain ⟨inst', hi, h⟩ := Except.bind_eq_ok.1 h
  obtain ⟨_, _, h⟩ := Except.bind_eq_ok.1 h
  cases h
  exact Description.backend_of_instantiate hi

/-! ### Deeds -/

namespace World

/-- What can be done to the world in a session. -/
inductive Deed (w : World) (id : SessionId) : World → Prop where
  /-- Nothing. -/
  | nothing : Deed w id w
  /-- The record of the session is changed, but not its count of live benchmarks. -/
  | edited (f : Session → Session) (live : ∀ s, (f s).live = s.live) :
    Deed w id (w.changeSession id f)
  /-- The session is opened. -/
  | opened (errors : NameTable) (new : id = w.sessions.size) :
    Deed w id { w with sessions := w.sessions.push ⟨⟨.success, "Success"⟩, errors, 0⟩ }
  /-- The session is opened and gets its engine. -/
  | engine (errors : NameTable) (e : Engine) (new : id = w.sessions.size) (own : e.session = id) :
    Deed w id { w with
      sessions := w.sessions.push ⟨⟨.success, "Success"⟩, errors, 0⟩
      cells := w.cells.push (.engine e) }
  /-- An engine of the session makes a benchmark of a catalog entry. -/
  | benchmark {p : Pointer} {e : Engine} {d : Description} {params : Option (List Param)}
    (inst : Instance) (maker : w.engine? p = some e) (own : e.session = id) (listed : d ∈ e.catalog)
    (makes : Benchmark.instantiate d params = .ok inst) :
    Deed w id { w.takeSlot id with cells := w.cells.push (.benchmark ⟨id, inst⟩) }
  /-- A benchmark gets a concrete descriptor. -/
  | concretized {h : Handle} {found : Nat × Benchmark} (inst : Instance)
    (finds : Benchmark.Found w h found) (own : found.2.session = id)
    (bare : inst.bare = found.2.inst.bare) :
    Deed w id { w with
      cells := w.cells.setIfInBounds found.1 (.benchmark { found.2 with inst }) }
  /-- A payload is made, with an object that holds it. -/
  | made (value : Payload) :
    Deed w id { w with
      payloads := w.payloads.push (some ⟨value, 1⟩)
      cells := w.cells.push (.object ⟨id, w.payloads.size⟩) }
  /-- The payload of an object is shared. -/
  | shared {h : Handle} {found : Nat × ObjectCell} (finds : Object.Found w id h found) :
    Deed w id (w.share found.2)
  /-- The payload of an object is shared, and the new handle is released at once. -/
  | passed {h : Handle} {found : Nat × ObjectCell} (finds : Object.Found w id h found) :
    Deed w id (Object.release (w.share found.2) w.cells.size found.2)
  /-- An object is released. -/
  | dropped {h : Handle} {found : Nat × ObjectCell} (finds : Object.Found w id h found) :
    Deed w id (Object.release w found.1 found.2)
  /-- A benchmark is released. -/
  | freed {h : Handle} {found : Nat × Benchmark} (finds : Benchmark.Found w h found)
    (own : found.2.session = id) : Deed w id (Benchmark.release w found.1 found.2)
  /-- An engine is released. -/
  | closed {h : Handle} {found : Nat × Engine} (finds : Engine.Found w h found)
    (own : found.2.session = id) : Deed w id (w.clear found.1)

/-- What the handle leads to belongs to the session. -/
def Owned (w : World) (id : SessionId) (h : Handle) : Prop :=
  ∃ g, w.grantAt h.pointer = some g ∧ g.session = id

end World

theorem Object.Found.owned {w : World} {id : SessionId} {h : Handle} {found : Nat × ObjectCell}
    (hf : Found w id h found) : w.Owned id h := ⟨_, hf.grant, rfl⟩

theorem Benchmark.Found.owned {w : World} {id : SessionId} {h : Handle} {found : Nat × Benchmark}
    (hf : Found w h found) (hs : found.2.session = id) : w.Owned id h := ⟨_, hf.grant, hs⟩

/-! ### Objects and jobs -/

/-- If it succeeds, the act is a deed in the session, and the handles that were asked for belong
there. -/
def Act.Deeds {α : Type} (act : Act World α) (w : World) (id : SessionId) (asks : List Handle) :
    Prop :=
  act.Ends w (fun _ w' => w.Deed id w' ∧ ∀ x ∈ asks, w.Owned id x) fun _ _ => True

namespace Act

variable {α β : Type} {w : World} {id : SessionId} {asks : List Handle} {act : Act World α}

/-- Nothing that comes later undoes a deed if it leaves the world alone. -/
theorem Deeds.andThen (h : act.Deeds w id asks) (f : α → β) :
    (do return f (← act) : Act World β).Deeds w id asks :=
  Ends.map h

theorem Deeds.mono {asks' : List Handle} (h : act.Deeds w id asks) (hs : ∀ x ∈ asks', x ∈ asks) :
    act.Deeds w id asks' :=
  Ends.mono h (fun _ _ ⟨hd, ho⟩ => ⟨hd, fun x hx => ho x (hs x hx)⟩) fun _ _ _ => trivial

theorem deeds_refuse (failure : Failure) : (refuse failure : Act World α).Deeds w id asks := trivial

theorem deeds_ofExcept {e : Except Failure β} {next : β → Act World α}
    (hn : ∀ b, e = .ok b → (next b).Deeds w id asks) : (ofExcept e >>= next).Deeds w id asks :=
  ends_bind.2 (ends_ofExcept hn fun _ _ => trivial)

end Act

namespace Object

variable {w : World} {id : SessionId} {h : Handle} {α : Type}

theorem deeds_resolve {required : Tag} {next : Nat × ObjectCell → Act World α}
    (hn : ∀ found, Found w id h found → (next found).Deeds w id [h]) :
    (resolve id h required >>= next).Deeds w id [h] := by
  refine Act.ends_bind.2 (Act.Ends.mono (resolve_atomic w id h required) ?_ fun _ _ _ => trivial)
  rintro found w' ⟨rfl, hf⟩
  exact hn found hf

theorem create_deeds (w : World) (id : SessionId) (size : UInt64) (bits : Tag) (value : Payload) :
    (create id size bits value).Deeds w id [] :=
  Act.deeds_ofExcept fun _ _ => ⟨.made value, by simp⟩

theorem retrieve_owned (w : World) (id : SessionId) (h : Handle) (required : Tag)
    (expected : PayloadKind) :
    (retrieve id h required expected).Ends w (fun _ w' => w' = w ∧ w.Owned id h)
      fun _ _ => True := by
  refine Act.ends_bind.2 (Act.Ends.mono (resolve_atomic w id h required) ?_ fun _ _ _ => trivial)
  rintro found w' ⟨rfl, hf⟩
  refine Act.ends_bind_look ?_
  split
  · exact ⟨rfl, hf.owned⟩
  · trivial

theorem retrieve_deeds (w : World) (id : SessionId) (h : Handle) (required : Tag)
    (expected : PayloadKind) : (retrieve id h required expected).Deeds w id [h] := by
  refine Act.Ends.mono (retrieve_owned w id h required expected) ?_ fun _ _ _ => trivial
  rintro value w' ⟨rfl, ho⟩
  exact ⟨.nothing, by simpa using ho⟩

theorem duplicate_deeds (w : World) (id : SessionId) (h : Handle) (bits : Option Tag)
    (required : Tag) : (duplicate id h bits required).Deeds w id [h] := by
  refine Act.Ends.mono (duplicate_shares w id h bits required) ?_ fun _ _ _ => trivial
  rintro made w' ⟨found, hf, rfl, -⟩
  exact ⟨.shared hf, by simpa using hf.owned⟩

theorem destroy_deeds (w : World) (id : SessionId) (h : Handle) : (destroy id h).Deeds w id [h] :=
  deeds_resolve fun _ hf => ⟨.dropped hf, by simpa using hf.owned⟩

theorem holders_deeds (w : World) (id : SessionId) (h : Handle) : (holders id h).Deeds w id [h] :=
  deeds_resolve fun _ hf => ⟨.nothing, by simpa using hf.owned⟩

end Object

theorem Carrier.store_deeds (w : World) (id : SessionId) (result : Handle) (slots : List Handle) :
    (store id result slots).Deeds w id [result] := by
  refine Act.ends_bind.2 (Act.Ends.mono (Object.duplicate_shares w id result none dataBit) ?_
    fun _ _ _ => trivial)
  rintro made w' ⟨found, hf, rfl, hp, ht⟩
  cases slots with
  | nil =>
    refine Act.ends_of_eq_ok (Act.bind_of_ok (destroy_shared hf hp ht)) ?_
    exact ⟨.passed hf, by simpa using hf.owned⟩
  | cons slot slots => exact ⟨.shared hf, by simpa using hf.owned⟩

theorem Product.operate_deeds (w : World) (p : Product) (id : SessionId) (loaded : Handle)
    (selections : List Selection) : (p.operate id loaded selections).Deeds w id [loaded] := by
  refine Act.deeds_ofExcept fun chosen _ => ?_
  refine Act.ends_bind.2 (Act.Ends.mono (Object.retrieve_owned w id loaded loadedBit .matrices) ?_
    fun _ _ _ => trivial)
  rintro components w' ⟨rfl, ho⟩
  refine Act.deeds_ofExcept fun results _ => ?_
  refine Act.Ends.mono (Object.create_deeds w' id dataSize operatedBit _) ?_ fun _ _ _ => trivial
  rintro made w'' ⟨hd, -⟩
  exact ⟨hd, by simpa using ho⟩

namespace Benchmark

variable {w : World}

theorem concretize_deeds {h : Handle} {found : Nat × Benchmark} (hf : Found w h found)
    (concrete : Descriptor) :
    (found.2.concretize found.1 concrete).Deeds w found.2.session [] := by
  refine Act.deeds_ofExcept fun inst hi => ?_
  exact ⟨.concretized inst hf rfl (Instance.bare_concretize hi), by simp⟩

theorem encode_deeds (w : World) (b : Benchmark) (packs : List Pack) :
    (b.encode packs).Deeds w b.session [] := by
  obtain ⟨session, inst⟩ := b
  cases inst with
  | product p => exact Act.deeds_ofExcept fun components _ => Object.create_deeds w session _ _ _
  | carrier config => exact Object.create_deeds w session _ _ _

theorem decode_deeds (w : World) (b : Benchmark) (encoded : Handle) (packs : List Pack) :
    (b.decode encoded packs).Deeds w b.session [encoded] := by
  obtain ⟨session, inst⟩ := b
  cases inst with
  | product p => exact (Object.retrieve_deeds w session encoded _ _).andThen _
  | carrier config => exact (Object.retrieve_deeds w session encoded _ _).andThen _

theorem encrypt_deeds (w : World) (b : Benchmark) (encoded : Handle) :
    (b.encrypt encoded).Deeds w b.session [encoded] := by
  obtain ⟨session, inst⟩ := b
  cases inst with
  | product p =>
    exact Object.duplicate_deeds w session encoded (some Product.encryptedBit) Product.encodedBit
  | carrier config => exact Object.duplicate_deeds w session encoded none Carrier.dataBit

theorem decrypt_deeds (w : World) (b : Benchmark) (encrypted : Handle) :
    (b.decrypt encrypted).Deeds w b.session [encrypted] := by
  obtain ⟨session, inst⟩ := b
  cases inst with
  | product p =>
    exact Object.duplicate_deeds w session encrypted
      (some (Product.decryptedBit ||| Product.plainBit)) Product.encryptedBit
  | carrier config => exact Object.duplicate_deeds w session encrypted none Carrier.dataBit

theorem load_deeds (w : World) (b : Benchmark) (handles : List Handle) :
    (b.load handles).Deeds w b.session (handles.take 1) := by
  obtain ⟨session, inst⟩ := b
  cases inst with
  | product p =>
    match handles with
    | [] => exact Act.deeds_refuse _
    | [source] =>
      exact Object.duplicate_deeds w session source (some Product.loadedBit) Product.encryptedBit
    | _ :: _ :: _ => exact Act.deeds_refuse _
  | carrier config =>
    match handles with
    | [] => exact Act.deeds_refuse _
    | source :: rest => exact Object.duplicate_deeds w session source none Carrier.dataBit

theorem store_deeds (w : World) (b : Benchmark) (result : Handle) (slots : List Handle) :
    (b.store result slots).Deeds w b.session ((Job.store result slots).asks b.inst) := by
  obtain ⟨session, inst⟩ := b
  cases inst with
  | product p =>
    cases slots with
    | nil => exact ⟨.nothing, by simp [Job.asks]⟩
    | cons slot slots => exact (Object.duplicate_deeds w session result _ _).andThen _
  | carrier config =>
    cases slots with
    | nil => exact Carrier.store_deeds w session result []
    | cons slot slots => exact Carrier.store_deeds w session result (slot :: slots)

theorem operate_deeds (w : World) (b : Benchmark) (loaded : Handle)
    (selections : List Selection) : (b.operate loaded selections).Deeds w b.session [loaded] := by
  obtain ⟨session, inst⟩ := b
  cases inst with
  | product p => exact p.operate_deeds w session loaded selections
  | carrier config =>
    show (Carrier.operate config session loaded).Deeds w session [loaded]
    unfold Carrier.operate
    split
    · trivial
    · split
      · exact Act.deeds_refuse _
      · exact Object.duplicate_deeds w session loaded none Carrier.dataBit

/-- A job of a benchmark is a deed in its session, and the objects that it works on belong there. -/
theorem carryOut_deeds {h : Handle} {found : Nat × Benchmark} (hf : Found w h found) (job : Job) :
    (found.2.carryOut found.1 job).Deeds w found.2.session (job.asks found.2.inst) := by
  obtain ⟨address, b⟩ := found
  cases job with
  | concretize concrete => exact (concretize_deeds hf concrete).andThen _
  | encode packs => exact (encode_deeds w b packs).andThen _
  | decode encoded packs => exact (decode_deeds w b encoded packs).andThen _
  | encrypt encoded => exact (encrypt_deeds w b encoded).andThen _
  | decrypt encrypted => exact (decrypt_deeds w b encrypted).andThen _
  | load handles => exact (load_deeds w b handles).andThen _
  | store result slots => exact store_deeds w b result slots
  | operate loaded selections => exact (operate_deeds w b loaded selections).andThen _

end Benchmark

theorem World.addErrorText_deeds (w : World) (id : SessionId) (code : Int32) (text : String) :
    (addErrorText id code text).Deeds w id [] := by
  refine Act.ends_of_forall ?_ fun _ _ _ => trivial
  intro _ w' ha
  unfold addErrorText at ha
  split at ha
  · cases ha
    exact ⟨.edited _ fun _ => rfl, by simp⟩
  · cases ha

/-! ### Engines and their methods -/

theorem Engine.mem_of_find {e : Engine} {h : Handle} {d : Description} (hd : e.find h = .ok d) :
    d ∈ e.catalog := by
  unfold find at hd
  split at hd
  · cases hd
  · split at hd
    · next hi =>
      cases hd
      obtain ⟨_, _, hi⟩ := Option.bind_eq_some_iff.1 hi
      exact List.mem_of_getElem? hi
    · cases hd

namespace Engine

variable {w w' : World} {e : Engine} {p : Pointer} {h : Handle}

theorem make_deeds (w : World) (settings : EngineSettings) (registry : Registry) :
    (make settings registry).Deeds w w.sessions.size [] :=
  ⟨.engine registry.errors _ rfl rfl, by simp⟩

theorem start_deeds (w : World) (backend : Backend) (settings : EngineSettings) :
    (start backend settings).Deeds w w.sessions.size [] := by
  unfold start
  refine Act.deeds_ofExcept fun _ _ => ?_
  split
  · exact make_deeds w settings _
  · exact Act.deeds_refuse _

theorem create_deeds (he : w.engine? p = some e) (params : Option (List Param)) :
    (e.create h params).Deeds w e.session [] := by
  refine Act.ends_of_forall ?_ fun _ _ _ => trivial
  intro made w' hc
  obtain ⟨d, inst, hd, hi, -, -, rfl⟩ := create_makes hc
  exact ⟨.benchmark inst he rfl (mem_of_find hd) hi, by simp⟩

/-- What follows the resolving of a benchmark is about one of the session of the engine. -/
theorem ends_own {α : Type} {next : Nat × Benchmark → Act World α} {yields : α → World → Prop}
    (hn : ∀ found, Benchmark.Found w h found → found.2.session = e.session →
      (next found).Ends w yields fun _ _ => True) :
    (e.own h >>= next).Ends w yields fun _ _ => True := by
  refine Act.ends_bind.2 (Act.Ends.mono (own_atomic w e h) ?_ fun _ _ _ => trivial)
  rintro found w' ⟨rfl, hf, hs⟩
  exact hn found hf hs

theorem destroyBenchmark_deeds (w : World) (e : Engine) (h : Handle) :
    (e.destroyBenchmark h).Deeds w e.session (if h.isNull then [] else [h]) := by
  unfold destroyBenchmark
  split
  · exact ⟨.nothing, by simp⟩
  · exact ends_own fun found hf hs => ⟨.freed hf hs, by simpa using hf.owned hs⟩

theorem destroy_deeds (w : World) (e : Engine) (h : Handle) :
    (e.destroy h).Deeds w e.session [] := by
  unfold destroy
  split
  · exact ⟨.nothing, by simp⟩
  split
  · exact (destroyBenchmark_deeds w e h).mono (by simp)
  split
  · exact (Object.destroy_deeds w e.session h).mono (by simp)
  split
  · exact ⟨.nothing, by simp⟩
  · exact Act.deeds_refuse _

end Engine

/-- A method of an engine is a deed in its session, and the benchmarks and objects that it resolves
belong there. -/
theorem Method.perform_deeds {w : World} {p : Pointer} {e : Engine} (he : w.engine? p = some e)
    (m : Method) :
    (m.perform e).Ends w (fun _ w' => w.Deed e.session w' ∧
      ∀ x ∈ m.asks w, x.2 ≠ .entry → w.Owned e.session x.1) fun _ _ => True := by
  have looks : ∀ {α : Type} (result : Except Failure α) (event : α → Event),
      (∀ x ∈ m.asks w, x.2 = .entry) →
        (do return event (← Act.ofExcept result) : Act World Event).Ends w (fun _ w' =>
          w.Deed e.session w' ∧ ∀ x ∈ m.asks w, x.2 ≠ .entry → w.Owned e.session x.1)
          fun _ _ => True := by
    intro α result event hentry
    refine Act.ends_bind.2 (Act.ends_ofExcept (fun _ _ => ⟨.nothing, ?_⟩) fun _ _ => trivial)
    exact fun x hx hne => absurd (hentry x hx) hne
  cases m with
  | entries => exact ⟨.nothing, by simp [asks]⟩
  | subscribe slots => exact looks (e.subscribe slots) _ (by simp [asks])
  | schemeName id => exact looks (e.schemeName id) _ (by simp [asks])
  | securityName id => exact looks (e.securityName id) _ (by simp [asks])
  | arity h => exact looks (e.arity h) _ (by simp [asks])
  | setCount h => exact looks (e.setCount h) _ (by simp [asks])
  | text h params => exact looks (e.text h params) _ (by simp [asks])
  | describe h memory => exact looks (e.describe h memory).1 _ (by simp [asks])
  | create h params =>
    refine Act.Ends.mono ((Engine.create_deeds he params).andThen _) ?_ fun _ _ _ => trivial
    exact fun _ w' hd => ⟨hd.1, by simp [asks]⟩
  | destroyBenchmark h =>
    refine Act.Ends.mono ((Engine.destroyBenchmark_deeds w e h).andThen _) ?_ fun _ _ _ => trivial
    rintro _ w' ⟨hd, ho⟩
    refine ⟨hd, ?_⟩
    cases hn : h.isNull with
    | true => simp [asks, hn]
    | false => simpa [asks, hn] using ho
  | destroy h =>
    refine Act.Ends.mono ((Engine.destroy_deeds w e h).andThen _) ?_ fun _ _ _ => trivial
    exact fun _ w' hd => ⟨hd.1, by simp [asks]⟩
  | give h job =>
    refine Act.ends_bind_look ?_
    rw [Engine.carryOut_eq, Act.bind_bind]
    refine Engine.ends_own fun found hf hs => ?_
    refine Act.ends_bind.2 (Act.Ends.mono (Benchmark.carryOut_deeds hf job) ?_ fun _ _ _ => trivial)
    rintro made w' ⟨hd, ho⟩
    simp only [id, asks, hf.benchmark?]
    refine ⟨hs ▸ hd, ?_⟩
    rw [hs] at ho
    simpa using ⟨hf.owned hs, ho⟩

/-! ### Exported calls -/

namespace Call

variable {w w' : World} {c : Call} {reply : Reply} {b : Benchmark} {job : Job}

/-- The session that a call works in: a new one, that of what is released, or the one that its
failures are recorded in. -/
def home (w : World) : Call → Option SessionId
  | start .. => some w.sessions.size
  | destroy h => (w.grantAt h.pointer).map Grant.session
  | c => c.sessionIn w

/-- A call that gives a job and is served has had the job done, and what came of it is in the host
memory. -/
theorem Served.works (hs : c.Served w w' reply) (hj : c.jobIn w = some (b, job)) :
    ∃ h a made, c.lead = some (.benchmark, h) ∧ Benchmark.Found w h (a, b) ∧
      b.carryOut a job w = (.ok made, w') ∧ reply.memory.made = made := by
  have hjob := job_of_jobIn hj
  cases hs with
  | @concretize h raw concrete found _ finds reads works =>
    have hc : (Call.concretize h (some raw)).job? = some (.concretize concrete) := by
      simp [job?, reads, Except.toOption]
    rw [jobIn_eq rfl hc finds] at hj
    cases hj
    exact ⟨h, found.1, [], rfl, finds, Act.bind_of_ok works, rfl⟩
  | @encode h slot made packs read found _ finds reads works =>
    have hc : (Call.encode h (some packs) (some slot)).job? = some (.encode read) := by
      simp [job?, reads, Except.toOption]
    rw [jobIn_eq rfl hc finds] at hj
    cases hj
    exact ⟨h, found.1, [made], rfl, finds, Act.bind_of_ok works, rfl⟩
  | @decode h source packs filled before after found _ finds reads works takes =>
    have hc : (Call.decode h source (some packs)).job? = some (.decode source before) := by
      simp [job?, reads, Except.toOption]
    rw [jobIn_eq rfl hc finds] at hj
    cases hj
    exact ⟨h, found.1, [], rfl, finds, Act.bind_of_ok works, rfl⟩
  | @encrypt h source slot made found _ finds works =>
    rw [jobIn_eq rfl rfl finds] at hj
    cases hj
    exact ⟨h, found.1, [made], rfl, finds, Act.bind_of_ok works, rfl⟩
  | @decrypt h source slot made found _ finds works =>
    rw [jobIn_eq rfl rfl finds] at hj
    cases hj
    exact ⟨h, found.1, [made], rfl, finds, Act.bind_of_ok works, rfl⟩
  | @load h slot made handles found _ finds works =>
    rw [jobIn_eq rfl hjob finds] at hj
    cases hj
    obtain ⟨read, hr, rfl⟩ := Option.map_eq_some_iff.1 hjob
    rw [← read_eq_announced (Except.eq_ok_of_toOption hr)] at works
    exact ⟨h, found.1, [made], rfl, finds, Act.bind_of_ok works, rfl⟩
  | @store h result slots found stored _ finds works =>
    rw [jobIn_eq rfl hjob finds] at hj
    cases hj
    obtain ⟨read, hr, rfl⟩ := Option.map_eq_some_iff.1 hjob
    have hr := Except.eq_ok_of_toOption hr
    rw [← read_eq_announced hr] at works
    have hl := ((Benchmark.store_atomic w found.2 result read).of_ok works).2.2
    exact ⟨h, found.1, stored, rfl, finds, works, announced_putAll hr hl⟩
  | @operate h loaded slot made selections found _ finds works =>
    rw [jobIn_eq rfl hjob finds] at hj
    cases hj
    obtain ⟨read, hr, rfl⟩ := Option.map_eq_some_iff.1 hjob
    rw [← read_eq_announced (Except.eq_ok_of_toOption hr)] at works
    exact ⟨h, found.1, [made], rfl, finds, Act.bind_of_ok works, rfl⟩
  | _ => cases hjob

theorem home_eq_sessionIn (hd : ∀ h, c ≠ destroy h) (hl : c.lead ≠ none) :
    c.home w = c.sessionIn w := by
  cases c with
  | start => exact absurd rfl hl
  | destroy h => exact absurd rfl (hd h)
  | _ => rfl

theorem ne_destroy_of_jobIn (hj : c.jobIn w = some (b, job)) (h : Handle) : c ≠ destroy h := by
  rintro rfl
  cases hj

theorem home_of_job {h : Handle} {a : Nat} (hj : c.jobIn w = some (b, job))
    (hl : c.lead = some (.benchmark, h)) (hf : Benchmark.Found w h (a, b)) :
    c.home w = some b.session := by
  rw [home_eq_sessionIn (ne_destroy_of_jobIn hj) (by simp [hl]), sessionIn, hl]
  exact Benchmark.found_iff.2 ⟨(a, b), hf, rfl⟩

/-- A call that is served is a deed in its home. -/
theorem Served.deed (hs : c.Served w w' reply) :
    w' = w ∨ ∃ id, c.home w = some id ∧ w.Deed id w' := by
  have home : ∀ {h : Handle} {found : Nat × Benchmark}, Benchmark.Found w h found →
      w.sessionOf .benchmark h = some found.2.session :=
    fun hf => Benchmark.found_iff.2 ⟨_, hf, rfl⟩
  have owner : ∀ {h : Handle} {g : Grant}, w.grantAt h.pointer = some g →
      (destroy h).home w = some g.session :=
    fun hg => congrArg (Option.map Grant.session) hg
  cases hs with
  | @start slot settings read made w' reads starts =>
    exact .inr ⟨_, rfl, ((Engine.start_deeds w .matrixProduct read).of_ok starts).1⟩
  | destroyEngine finds => exact .inr ⟨_, owner finds.grant, .closed finds rfl⟩
  | destroyBenchmark finds => exact .inr ⟨_, owner finds.grant, .freed finds rfl⟩
  | destroyObject finds => exact .inr ⟨_, owner finds.grant, .dropped finds⟩
  | @create h entry params slot made found w' finds creates =>
    refine .inr ⟨_, Engine.found_iff.2 ⟨found, finds, rfl⟩, ?_⟩
    exact ((Engine.create_deeds finds.engine? (params.map announced)).of_ok creates).1
  | concretize finds _ works =>
    exact .inr ⟨_, home finds, ((Benchmark.concretize_deeds finds _).of_ok works).1⟩
  | encode finds _ works =>
    exact .inr ⟨_, home finds, ((Benchmark.encode_deeds w _ _).of_ok works).1⟩
  | decode finds _ works =>
    exact .inr ⟨_, home finds, ((Benchmark.decode_deeds w _ _ _).of_ok works).1⟩
  | encrypt finds works =>
    exact .inr ⟨_, home finds, ((Benchmark.encrypt_deeds w _ _).of_ok works).1⟩
  | decrypt finds works =>
    exact .inr ⟨_, home finds, ((Benchmark.decrypt_deeds w _ _).of_ok works).1⟩
  | load finds works =>
    exact .inr ⟨_, home finds, ((Benchmark.load_deeds w _ _).of_ok works).1⟩
  | store finds works =>
    exact .inr ⟨_, home finds, ((Benchmark.store_deeds w _ _ _).of_ok works).1⟩
  | operate finds works =>
    exact .inr ⟨_, home finds, ((Benchmark.operate_deeds w _ _ _).of_ok works).1⟩
  | _ => exact .inl rfl

/-- A session that is resolved is the home of the call. -/
theorem home_of_sessionIn {id : SessionId} (h : c.sessionIn w = some id) : c.home w = some id := by
  by_cases hd : ∃ x, c = destroy x
  · obtain ⟨x, rfl⟩ := hd
    obtain ⟨-, g, hg, -, hs⟩ := World.sessionOf_eq_some.1 h
    rw [home, hg, ← hs]
    rfl
  · have hl : c.lead ≠ none := by
      intro hl
      rw [sessionIn, hl] at h
      cases h
    rw [home_eq_sessionIn (fun x hx => hd ⟨x, hx⟩) hl, h]

/-- The engines, benchmarks and objects that a call resolves belong to its home. -/
theorem Served.owned (hs : c.Served w w' reply) (hr : ∀ x ∈ c.asks w, w.ReadAs x.1 x.2) :
    ∀ x ∈ c.asks w, x.2 ≠ .entry → ∃ id, c.home w = some id ∧ w.Owned id x.1 := by
  intro x hx hne
  by_cases hd : ∃ h, c = destroy h
  · obtain ⟨h, rfl⟩ := hd
    exact absurd hx List.not_mem_nil
  have read := hr x hx
  rw [asks_eq fun h he => hd ⟨h, he⟩] at hx
  rcases List.mem_append.1 hx with hx | hx
  · rcases List.mem_append.1 hx with hx | hx
    · obtain ⟨⟨k, h⟩, hl, rfl⟩ := Option.map_eq_some_iff.1 (Option.mem_toList.1 hx)
      obtain ⟨ht, hg⟩ := read
      obtain ⟨g, hg, hk⟩ := hg hne
      refine ⟨g.session, home_of_sessionIn ?_, g, hg, rfl⟩
      rw [sessionIn, hl]
      exact World.sessionOf_eq_some.2 ⟨ht, g, hg, hk, rfl⟩
    · obtain ⟨h, -, rfl⟩ := Option.map_eq_some_iff.1 (Option.mem_toList.1 hx)
      exact absurd rfl hne
  · split at hx
    · next b job hj =>
      obtain ⟨y, hy, rfl⟩ := List.mem_map.1 hx
      obtain ⟨h, a, made, hl, hf, hw, -⟩ := hs.works hj
      exact ⟨b.session, home_of_job hj hl hf, ((Benchmark.carryOut_deeds hf job).of_ok hw).2 y hy⟩
    · exact absurd hx List.not_mem_nil

end Call

/-! ### Moves -/

namespace Move

/-- The session that a move works in. -/
def home (w : World) : Move → Option SessionId
  | openSession _ | start .. | make .. => some w.sessions.size
  | addErrorText id .. | setLastError id _ | create id .. | retrieve id .. | duplicate id ..
  | holders id _ | release id _ => some id
  | method engine _ => w.sessionOf .engine engine
  | call c => c.home w

/-- A move that succeeds is a deed in its home, and the engines, benchmarks and objects that it has
resolved belong there. -/
theorem perform_deed (w : World) (m : Move) :
    m.perform.Ends w (fun _ w' => (w' = w ∨ ∃ id, m.home w = some id ∧ w.Deed id w') ∧
      ∀ x ∈ m.asks w, x.2 ≠ .entry → ∃ id, m.home w = some id ∧ w.Owned id x.1)
      fun _ _ => True := by
  -- a function of a session that asks for one object at most
  have plain : ∀ {α : Type} {act : Act World α} {id : SessionId} {asks : List Handle}
      (event : α → Event), act.Deeds w id asks → m.home w = some id →
        m.asks w = asks.map (·, Kind.object) →
        (do return event (← act) : Act World Event).Ends w (fun _ w' =>
          (w' = w ∨ ∃ id, m.home w = some id ∧ w.Deed id w') ∧
            ∀ x ∈ m.asks w, x.2 ≠ .entry → ∃ id, m.home w = some id ∧ w.Owned id x.1)
          fun _ _ => True := by
    intro α act id asks event hd hh ha
    refine Act.Ends.mono (hd.andThen event) ?_ fun _ _ _ => trivial
    rintro _ w' ⟨hd, ho⟩
    refine ⟨.inr ⟨id, hh, hd⟩, fun x hx _ => ⟨id, hh, ?_⟩⟩
    rw [ha] at hx
    obtain ⟨y, hy, rfl⟩ := List.mem_map.1 hx
    exact ho y hy
  cases m with
  | openSession errors => exact ⟨.inr ⟨_, rfl, .opened errors rfl⟩, by simp [asks]⟩
  | addErrorText id code text => exact plain _ (World.addErrorText_deeds w id code text) rfl rfl
  | setLastError id error =>
    exact ⟨.inr ⟨id, rfl, .edited _ fun _ => rfl⟩, by simp [asks]⟩
  | create id size bits value =>
    exact plain _ (Object.create_deeds w id size bits value) rfl rfl
  | retrieve id h required expected =>
    exact plain _ (Object.retrieve_deeds w id h required expected) rfl rfl
  | duplicate id h bits required =>
    exact plain _ (Object.duplicate_deeds w id h bits required) rfl rfl
  | holders id h => exact plain _ (Object.holders_deeds w id h) rfl rfl
  | release id h => exact plain _ (Object.destroy_deeds w id h) rfl rfl
  | start backend settings =>
    refine Act.ends_bind_look ?_
    exact plain _ (Engine.start_deeds w backend settings) rfl rfl
  | make settings registry =>
    refine Act.ends_bind_look ?_
    exact plain _ (Engine.make_deeds w settings registry) rfl rfl
  | method engine m =>
    refine Act.ends_bind.2 (Act.Ends.mono (Engine.resolve_atomic w engine) ?_ fun _ _ _ => trivial)
    rintro found w' ⟨rfl, hf⟩
    have hh : (method engine m).home w' = some found.2.session :=
      Engine.found_iff.2 ⟨found, hf, rfl⟩
    refine Act.Ends.mono (m.perform_deeds hf.engine?) ?_ fun _ _ _ => trivial
    rintro event w'' ⟨hd, ho⟩
    refine ⟨.inr ⟨_, hh, hd⟩, List.forall_mem_cons.2 ⟨fun _ => ⟨_, hh, _, hf.grant, rfl⟩, ?_⟩⟩
    exact fun x hx hne => ⟨_, hh, ho x hx hne⟩
  | call c =>
    rcases perform_call w c with ⟨_, _, w', ha, hp, -, hr⟩ | ⟨_, -, hp⟩ | ⟨-, _, hp⟩
    · have hs := Call.served_of_attempt ha
      exact Act.ends_of_eq_ok hp ⟨hs.deed, hs.owned hr⟩
    · exact Act.ends_of_eq_error hp trivial
    · exact Act.ends_of_eq_error hp trivial

end Move

namespace Host

variable {s : Host} {m : Move}

/-- Whatever a host does is a deed in the home of its move, also if the move fails. -/
theorem Reachable.deed (hs : s.Reachable) (hm : s.Permits m) :
    (s.after m).world = s.world ∨
      ∃ id, m.home s.world = some id ∧ s.world.Deed id (s.after m).world := by
  have deeds := m.perform_deed s.world
  generalize hafter : s.after m = s'
  have step := hs.step hm
  rw [hafter] at step
  cases step with
  | done _ performs _ _ => exact (deeds.of_ok performs).1
  | @sets id error is =>
    subst is
    exact .inr ⟨id, rfl, .edited _ fun _ => rfl⟩
  | @fails c failure is _ _ =>
    subst is
    show s.world.blamed _ failure = _ ∨ _
    cases hin : c.sessionIn s.world with
    | none => exact .inl rfl
    | some id => exact .inr ⟨id, Call.home_of_sessionIn hin, .edited _ fun _ => rfl⟩
  | stops => exact .inl rfl

end Host

end HandleBench
