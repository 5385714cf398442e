import HandleBench.Proofs.Calls

/-!
# Moves of a host

A host moves by calling the functions of a session, the methods of an engine, or the exported calls.
A move tells its event when it succeeds and stops when it fails. Every move keeps to its event, and
a move that fails does so with every handle and every payload as it was.
-/

namespace HandleBench

/-! ### Methods of engines -/

/-- A method of an engine with the arguments of the host. -/
inductive Method where
  /-- Asks for the handles of all catalog entries. -/
  | entries
  /-- Asks for the handles of all catalog entries in slots. -/
  | subscribe (slots : List Handle)
  /-- Asks for the name of a scheme. -/
  | schemeName (id : Int32)
  /-- Asks for the name of a security level. -/
  | securityName (id : Int32)
  /-- Asks for the size of an entry's default sets. -/
  | arity (entry : Handle)
  /-- Asks for the count of an entry's default sets. -/
  | setCount (entry : Handle)
  /-- Asks for an entry's text. -/
  | text (entry : Handle) (params : Option (List Param))
  /-- Asks for an entry's descriptor and default sets. -/
  | describe (entry : Handle) (memory : Engine.Outline)
  /-- Creates a benchmark. -/
  | create (entry : Handle) (params : Option (List Param))
  /-- Releases a benchmark. -/
  | destroyBenchmark (benchmark : Handle)
  /-- Releases any handle. -/
  | destroy (h : Handle)
  /-- Gives a benchmark a job. -/
  | give (benchmark : Handle) (job : Job)

/-- Gives a benchmark a job and yields the handles that come of it. -/
def Engine.carryOut (e : Engine) (h : Handle) : Job → Act World (List Handle)
  | .concretize concrete => do
    e.concretize h concrete
    return []
  | .encode packs => return [← e.encode h packs]
  | .decode encoded packs => do
    let _ ← e.decode h encoded packs
    return []
  | .encrypt encoded => return [← e.encrypt h encoded]
  | .decrypt encrypted => return [← e.decrypt h encrypted]
  | .load handles => return [← e.load h handles]
  | .store result slots => e.store h result slots
  | .operate loaded selections => return [← e.operate h loaded selections]

/-- An engine gives a job to the benchmark it has resolved. -/
theorem Engine.carryOut_eq (e : Engine) (h : Handle) (job : Job) :
    e.carryOut h job = e.own h >>= fun found => found.2.carryOut found.1 job := by
  cases job <;> first | rfl | exact Act.bind_bind _ _ _

namespace Method

/-- The handles that the host passes. -/
def handles : Method → List Handle
  | entries | subscribe _ | schemeName _ | securityName _ => []
  | arity h | setCount h | text h _ | describe h _ | create h _ | destroyBenchmark h
  | destroy h => [h]
  | give h job => h :: job.handles

/-- The handles that the method resolves, and as what. -/
def asks (w : World) : Method → List (Handle × Kind)
  | entries | subscribe _ | schemeName _ | securityName _ | destroy _ => []
  | arity h | setCount h | text h _ | describe h _ | create h _ => [(h, .entry)]
  | destroyBenchmark h => if h.isNull then [] else [(h, .benchmark)]
  | give h job =>
    (h, .benchmark) ::
      match w.benchmark? h with
      | some b => (job.asks b.inst).map (·, Kind.object)
      | none => []

/-- Calls the method. -/
def perform (e : Engine) : Method → Act World Event
  | entries => return .entries e.entries
  | subscribe slots => return .entries (← Act.ofExcept (e.subscribe slots))
  | schemeName id => do
    let _ ← Act.ofExcept (e.schemeName id)
    return .nothing
  | securityName id => do
    let _ ← Act.ofExcept (e.securityName id)
    return .nothing
  | arity h => do
    let _ ← Act.ofExcept (e.arity h)
    return .nothing
  | setCount h => do
    let _ ← Act.ofExcept (e.setCount h)
    return .nothing
  | text h params => do
    let _ ← Act.ofExcept (e.text h params)
    return .nothing
  | describe h memory => do
    Act.ofExcept (e.describe h memory).1
    return .nothing
  | create h params => return .benchmark (← e.create h params) e.session
  | destroyBenchmark h => do
    e.destroyBenchmark h
    return .ofDestroy h
  | destroy h => do
    e.destroy h
    return .ofDestroy h
  | give h job => do
    let w ← Act.look id
    let made ← e.carryOut h job
    match w.benchmark? h with
    | some b => return job.event w b made
    | none => return .nothing

theorem perform_atomic (w : World) (e : Engine) (m : Method) :
    (m.perform e).Atomic w (∀ h ∈ m.handles, w.Honest h) fun event w' =>
      w.Change w' event ∧ ∀ x ∈ m.asks w, w.ReadAs x.1 x.2 := by
  have entry : ∀ {h : Handle}, w.ReadAs h .entry → ∀ x ∈ [(h, Kind.entry)], w.ReadAs x.1 x.2 := by
    simp
  have descriptors : ∀ h ∈ e.entries, ∃ i, h = .descriptor i := fun h hh => by
    obtain ⟨i, -, hi⟩ := List.mem_map.1 hh
    exact ⟨i, hi.symm⟩
  cases m with
  | entries => exact Act.atomic_pure ⟨.entries descriptors rfl rfl, by simp [asks]⟩
  | subscribe slots =>
    refine Act.Atomic.bind_ofExcept fun hs he => ?_
    have hs : hs = e.entries := by
      unfold Engine.subscribe at he
      split at he
      · exact (Except.ok.inj he).symm
      · cases he
    exact Act.atomic_pure ⟨.entries (hs ▸ descriptors) rfl rfl, by simp [asks]⟩
  | schemeName id =>
    exact Act.Atomic.bind_ofExcept fun _ _ => Act.atomic_pure ⟨.refl w, by simp [asks]⟩
  | securityName id =>
    exact Act.Atomic.bind_ofExcept fun _ _ => Act.atomic_pure ⟨.refl w, by simp [asks]⟩
  | arity h =>
    exact Act.Atomic.bind_ofExcept fun _ ha =>
      Act.atomic_pure ⟨.refl w, entry (Engine.readAs_of_about ha)⟩
  | setCount h =>
    exact Act.Atomic.bind_ofExcept fun _ ha =>
      Act.atomic_pure ⟨.refl w, entry (Engine.readAs_of_about ha)⟩
  | text h params =>
    exact Act.Atomic.bind_ofExcept fun _ ha =>
      Act.atomic_pure ⟨.refl w, entry (Engine.readAs_of_about ha)⟩
  | describe h memory =>
    refine Act.Atomic.bind_ofExcept fun _ hd => Act.atomic_pure ⟨.refl w, entry ?_⟩
    unfold Engine.describe at hd
    split at hd
    · cases hd
    · next hf => exact Engine.readAs_of_find hf
  | create h params =>
    refine Act.Atomic.andThen (Engine.create_atomic w e h params _) ?_
    rintro made w' ⟨hc, hr⟩
    exact ⟨hc, entry hr⟩
  | destroyBenchmark h =>
    refine Act.Atomic.andThen ((Engine.destroyBenchmark_atomic w e h).mono
      (fun hh => hh h List.mem_cons_self) fun _ _ hc => hc) ?_
    rintro _ w' ⟨hc, hr⟩
    refine ⟨hc, ?_⟩
    cases hn : h.isNull with
    | true => simp [asks, hn]
    | false => simpa [asks, hn] using hr hn
  | destroy h =>
    refine Act.Atomic.andThen ((Engine.destroy_atomic w e h).mono
      (fun hh => hh h List.mem_cons_self) fun _ _ hc => hc) ?_
    intro _ w' hc
    exact ⟨hc, by simp [asks]⟩
  | give h job =>
    refine Act.Atomic.bind_look ?_
    rw [Engine.carryOut_eq, Act.bind_bind]
    refine Act.Atomic.bind ((Engine.own_atomic w e h).mono
      (fun hh => hh h List.mem_cons_self) fun _ _ hf => hf) fun found ⟨hf, _⟩ => ?_
    refine Act.Atomic.andThen ((Benchmark.carryOut_atomic hf job).mono
      (fun hh x hx => hh x (List.mem_cons_of_mem h hx)) fun _ _ hc => hc) ?_
    rintro made w' ⟨hc, hr⟩
    simp only [id, asks, hf.benchmark?]
    exact ⟨hc, by simpa using ⟨hf.readAs, hr⟩⟩

theorem handles_of_asks {w : World} {m : Method} : ∀ x ∈ m.asks w, x.1 ∈ m.handles := by
  intro x hx
  cases m with
  | destroyBenchmark h =>
    by_cases hn : h.isNull = true
    · rw [asks, if_pos hn] at hx
      exact absurd hx List.not_mem_nil
    · rw [asks, if_neg hn] at hx
      rw [List.mem_singleton.1 hx]
      exact List.mem_cons_self
  | give h job =>
    rcases List.mem_cons.1 hx with rfl | hx
    · exact List.mem_cons_self
    · refine List.mem_cons_of_mem h ?_
      split at hx
      · next b _ =>
        obtain ⟨y, hy, rfl⟩ := List.mem_map.1 hx
        exact job.handles_of_asks b.inst y hy
      · exact absurd hx List.not_mem_nil
  | arity | setCount | text | describe | create =>
    rw [List.mem_singleton.1 hx]
    exact List.mem_cons_self
  | _ => exact absurd hx List.not_mem_nil

theorem perform_given (w : World) (e : Engine) (m : Method) :
    (m.perform e).Ends w (fun event _ => ∀ x ∈ event.given, x ∈ m.handles) fun _ _ => True := by
  cases m with
  | entries => exact fun x hx => absurd hx List.not_mem_nil
  | destroyBenchmark h | destroy h => exact Act.ends_bind_of_last fun _ _ => Event.given_ofDestroy h
  | give h job =>
    refine Act.ends_bind_of_last fun w' _ => Act.ends_bind_of_last fun made _ => ?_
    split
    · next b _ =>
      exact fun x hx => List.mem_cons_of_mem h (job.given_event w' b made x hx)
    · exact fun x hx => absurd hx List.not_mem_nil
  | _ => exact Act.ends_bind_of_last fun _ _ x hx => absurd hx List.not_mem_nil

end Method

/-! ### Moves -/

/-- A move of a host. -/
inductive Move where
  /-- Opens a session. -/
  | openSession (errors : NameTable)
  /-- Adds the text of an error code to a session. -/
  | addErrorText (session : SessionId) (code : Int32) (text : String)
  /-- Sets the last failure of a session. -/
  | setLastError (session : SessionId) (error : LastError)
  /-- Makes a payload in a session. -/
  | create (session : SessionId) (size : UInt64) (bits : Tag) (value : Payload)
  /-- Retrieves a payload through a session. -/
  | retrieve (session : SessionId) (h : Handle) (required : Tag) (expected : PayloadKind)
  /-- Shares a payload through a session. -/
  | duplicate (session : SessionId) (h : Handle) (bits : Option Tag) (required : Tag)
  /-- Counts the holders of a payload through a session. -/
  | holders (session : SessionId) (h : Handle)
  /-- Releases an object through a session. -/
  | release (session : SessionId) (h : Handle)
  /-- Starts an engine of a backend. -/
  | start (backend : Backend) (settings : EngineSettings)
  /-- Makes an engine of registrations. -/
  | make (settings : EngineSettings) (registry : Registry)
  /-- Calls a method of an engine. -/
  | method (engine : Handle) (method : Method)
  /-- Makes an exported call. -/
  | call (c : Call)

theorem World.addErrorText_atomic (w : World) (id : SessionId) (code : Int32) (text : String)
    (honest : Prop) :
    (addErrorText id code text).Atomic w honest fun _ w' =>
      w'.cells = w.cells ∧ w'.payloads = w.payloads := by
  refine Act.ends_of_forall ?_ ?_
  · intro _ w' h
    unfold addErrorText at h
    split at h
    · cases h
      exact ⟨rfl, rfl⟩
    · cases h
  · intro reason w' h
    unfold addErrorText at h
    split at h
    · cases h
    · cases h
      exact ⟨rfl, fun _ => trivial⟩

namespace Move

/-- The handles that the host passes. -/
def handles : Move → List Handle
  | retrieve _ h .. | duplicate _ h .. | holders _ h | release _ h => [h]
  | method engine m => engine :: m.handles
  | call c => c.handles
  | _ => []

/-- The handles that the move resolves, and as what. -/
def asks (w : World) : Move → List (Handle × Kind)
  | retrieve _ h .. | duplicate _ h .. | holders _ h | release _ h => [(h, .object)]
  | method engine m => (engine, .engine) :: m.asks w
  | call c => c.asks w
  | _ => []

/-- Makes the move, which stops if it fails. -/
def perform : Move → Act World Event
  | openSession errors => do
    let _ ← World.openSession errors
    return .nothing
  | addErrorText session code text => do
    World.addErrorText session code text
    return .nothing
  | setLastError session error => do
    Act.change (·.changeSession session fun s => { s with lastError := error })
    return .nothing
  | create session size bits value =>
    return .created (← Object.create session size bits value) session value
  | retrieve session h required expected => do
    let _ ← Object.retrieve session h required expected
    return .nothing
  | duplicate session h bits required =>
    return .shared (← Object.duplicate session h bits required) h
  | holders session h => do
    let _ ← Object.holders session h
    return .nothing
  | release session h => do
    Object.destroy session h
    return .released h
  | start backend settings => do
    let w ← Act.look id
    return .engine (← Engine.start backend settings) w.sessions.size
  | make settings registry => do
    let w ← Act.look id
    return .engine (← Engine.make settings registry) w.sessions.size
  | method engine m => do
    let (_, e) ← Engine.resolve engine
    m.perform e
  | call c => do
    let w ← Act.look id
    let ending ← c.attempt
    match ending.outcome with
    | .ok _ => return c.event w ending.memory
    | .error failure => Act.refuse failure

/-- A move other than a call keeps to its event or fails and changes nothing. -/
theorem perform_atomic (w : World) (m : Move) (hm : ∀ c, m ≠ .call c) :
    m.perform.Atomic w (∀ h ∈ m.handles, w.Honest h) fun event w' =>
      w.Change w' event ∧ ∀ x ∈ m.asks w, w.ReadAs x.1 x.2 := by
  cases m with
  | openSession errors => exact ⟨.nothing rfl rfl, by simp [asks]⟩
  | addErrorText session code text =>
    refine Act.Atomic.andThen (World.addErrorText_atomic w session code text _) ?_
    rintro _ w' ⟨hc, hp⟩
    exact ⟨.nothing (World.grantAt_congr hc) hp, by simp [asks]⟩
  | setLastError session error => exact ⟨.nothing rfl rfl, by simp [asks]⟩
  | create session size bits value =>
    refine Act.Atomic.andThen (Object.create_atomic w session size bits value _) ?_
    intro h w' hc
    exact ⟨hc, by simp [asks]⟩
  | retrieve session h required expected =>
    simp only [handles, asks, List.forall_mem_singleton]
    refine Act.Atomic.andThen (Object.retrieve_atomic w session h required expected) ?_
    rintro _ w' ⟨rfl, hr, -⟩
    exact ⟨.refl w', hr⟩
  | duplicate session h bits required =>
    simp only [handles, asks, List.forall_mem_singleton]
    exact Act.Atomic.andThen (Object.duplicate_atomic w session h bits required)
      fun _ _ hc => hc
  | holders session h =>
    simp only [handles, asks, List.forall_mem_singleton]
    refine Act.Atomic.andThen (Object.holders_atomic w session h) ?_
    rintro _ w' ⟨rfl, hr⟩
    exact ⟨.refl w', hr⟩
  | release session h =>
    simp only [handles, asks, List.forall_mem_singleton]
    exact Act.Atomic.andThen (Object.destroy_atomic w session h) fun _ _ hc => hc
  | start backend settings =>
    refine Act.Atomic.bind_look ?_
    refine Act.Atomic.andThen (Engine.start_atomic w backend settings _) fun h w' hc => ?_
    exact ⟨hc, by simp [asks]⟩
  | make settings registry =>
    refine Act.Atomic.bind_look ?_
    refine Act.Atomic.andThen (Engine.make_atomic w settings registry _) fun h w' hc => ?_
    exact ⟨hc, by simp [asks]⟩
  | method engine m =>
    refine Act.Atomic.bind ((Engine.resolve_atomic w engine).mono
      (fun hh => hh engine List.mem_cons_self) fun _ _ hf => hf) fun found hf => ?_
    refine (Method.perform_atomic w found.2 m).mono
      (fun hh x hx => hh x (List.mem_cons_of_mem engine hx)) fun event w' ⟨hc, hr⟩ => ⟨hc, ?_⟩
    exact List.forall_mem_cons.2 ⟨hf.readAs, hr⟩
  | call c => exact absurd rfl (hm c)

/-- A call that is made as a move keeps to its event, fails and leaves a record of its failure, or
stops only because a handle was not honest. -/
theorem perform_call (w : World) (c : Call) :
    (∃ answer memory w', c.attempt w = (.ok ⟨.ok answer, memory⟩, w') ∧
      (call c).perform w = (.ok (c.event w memory), w') ∧
      w.Change w' (c.event w memory) ∧ ∀ x ∈ c.asks w, w.ReadAs x.1 x.2) ∨
    (∃ failure, c.attempt w = (.ok ⟨.error failure, c⟩, w.blamed (c.sessionIn w) failure) ∧
      (call c).perform w =
        (.error (.refused failure), w.blamed (c.sessionIn w) failure)) ∨
    ¬ c.Trusted w ∧ ∃ reason, (call c).perform w = (.error reason, w) := by
  have performed : ∀ {act : Except Stop Call.Ending} {w' : World}, c.attempt w = (act, w') →
      (call c).perform w = (match act with
        | .ok ending =>
          match ending.outcome with
          | .ok _ => (.ok (c.event w ending.memory), w')
          | .error failure => (.error (.refused failure), w')
        | .error reason => (.error reason, w')) := by
    intro act w' ha
    show (c.attempt >>= _) w = _
    rw [Act.bind_apply, ha]
    cases act with
    | error reason => rfl
    | ok ending =>
      obtain ⟨outcome, memory⟩ := ending
      cases outcome <;> rfl
  rcases c.attempt_cases w with ⟨answer, memory, w', ha, hd⟩ | ⟨failure, ha⟩ | ⟨ht, reason, ha⟩
  · exact .inl ⟨answer, memory, w', ha, performed ha, hd.change, hd.read⟩
  · exact .inr (.inl ⟨failure, ha, performed ha⟩)
  · exact .inr (.inr ⟨ht, reason, performed ha⟩)

/-- A move keeps to its event. If it fails, all handles and payloads are as they were, and the
library has stopped of its own accord unless a handle was not honest. -/
theorem perform_ends (w : World) (m : Move) :
    m.perform.Ends w (fun event w' => w.Change w' event ∧ ∀ x ∈ m.asks w, w.ReadAs x.1 x.2)
      fun reason w' => w'.cells = w.cells ∧ w'.payloads = w.payloads ∧
        ((∀ h ∈ m.handles, w.Honest h) → reason.Fair) := by
  by_cases hm : ∃ c, m = .call c
  · obtain ⟨c, rfl⟩ := hm
    rcases perform_call w c with ⟨_, _, w', -, hp, hc, hr⟩ | ⟨failure, -, hp⟩ | ⟨ht, reason, hp⟩
    · exact Act.ends_of_eq_ok hp ⟨hc, hr⟩
    · refine Act.ends_of_eq_error hp ?_
      exact ⟨w.cells_blamed _ _, w.payloads_blamed _ _, fun _ => trivial⟩
    · exact Act.ends_of_eq_error hp ⟨rfl, rfl, fun hh => absurd hh ht⟩
  · refine Act.Ends.mono (perform_atomic w m fun c hc => hm ⟨c, hc⟩) (fun _ _ hy => hy) ?_
    rintro reason w' ⟨rfl, hf⟩
    exact ⟨rfl, rfl, hf⟩

/-- A move asks only about handles that the host passes. -/
theorem handles_of_asks {w : World} {m : Move} (x : Handle × Kind) (hx : x ∈ m.asks w) :
    x.1 ∈ m.handles := by
  cases m with
  | retrieve | duplicate | holders | release =>
    rw [List.mem_singleton.1 hx]
    exact List.mem_cons_self
  | method engine m =>
    rcases List.mem_cons.1 hx with rfl | hx
    · exact List.mem_cons_self
    · exact List.mem_cons_of_mem engine (Method.handles_of_asks x hx)
  | call c => exact c.handles_of_asks x hx
  | _ => exact absurd hx List.not_mem_nil

/-- A move shares or releases only handles that the host passes. -/
theorem perform_given (w : World) (m : Move) :
    m.perform.Ends w (fun event _ => ∀ x ∈ event.given, x ∈ m.handles) fun _ _ => True := by
  cases m with
  | start | make =>
    exact Act.ends_bind_of_last fun _ _ =>
      Act.ends_bind_of_last fun _ _ x hx => absurd hx List.not_mem_nil
  | duplicate session h bits required | release session h =>
    exact Act.ends_bind_of_last fun _ _ x hx => hx
  | method engine m =>
    refine Act.ends_bind_of_last fun found w' => ?_
    exact (m.perform_given w' found.2).mono
      (fun _ _ hg x hx => List.mem_cons_of_mem engine (hg x hx)) fun _ _ _ => trivial
  | call c =>
    refine Act.ends_bind_of_last fun w' _ => Act.ends_bind_of_last fun ending _ => ?_
    split
    · exact c.given_event w' ending.memory
    · exact trivial
  | _ => exact Act.ends_bind_of_last fun _ _ x hx => absurd hx List.not_mem_nil

end Move

end HandleBench
