import HandleBench.Proofs.Receipts
import HandleBench.Proofs.Releases

/-!
# Two ways to the same engine

A host that is linked against the library calls the methods of an engine; any other host makes
exported calls. The two layers resolve handles on their own and in different ways, but within the
agreement on host memory a call does what the method does: it succeeds, leaves the same world, and
the host receives the results of the method, or it fails for the same reason and records it.

An exported call for the pipeline goes straight to the benchmark, where the engine resolves it first
and compares the sessions. Releasing is written twice, once for every handle and once for those of
an engine.
-/

namespace HandleBench

namespace Call

/-! ### Calls and methods -/

/-- The call goes well or fails in the world `w` as the outcome says, answers accordingly, and
leaves this host memory and this world. -/
structure Comes (c : Call) (w : World) (outcome : Except Failure Answer) (memory : Call)
    (w' : World) : Prop where
  /-- How it went. -/
  ending : c.attempt w = (.ok ⟨outcome, memory⟩, w')
  /-- What the host gets. -/
  reply : c.perform w = (.ok ⟨c.answer outcome, memory⟩, w')

/-- The call does in the world `w` what the method of the engine does. It goes well exactly if the
method does, the host receives the results of the method, and the world is the same; otherwise the
call fails for the same reason, whose code and message become the last failure of the session, and
leaves the host memory as it is. A panic becomes a critical failure. -/
def Mirrors (c : Call) (e : Engine) (method : Act World Results) (w : World) : Prop :=
  match method w with
  | (.ok results, w') => ∃ answer memory,
    c.Receives results answer memory ∧ c.Comes w (.ok answer) memory w'
  | (.error (.refused failure), w') => w' = w ∧
    c.Comes w (.error failure) c (w.record e.session failure)
  | (.error (.panicked message), w') => w' = w ∧
    (Failure.panicked c.name message).code = .critical ∧
    c.Comes w (.error (.panicked c.name message)) c
      (w.record e.session (.panicked c.name message))
  | (.error _, _) => False

end Call

/-! ### Catalog entries -/

namespace Engine

variable {e : Engine} {h : Handle}

theorem arity_eq (e : Engine) (h : Handle) :
    e.arity h = (e.find h).map Description.arity := by
  rw [arity]
  cases e.find h <;> rfl

theorem setCount_eq (e : Engine) (h : Handle) :
    e.setCount h = (e.find h).map (·.defaultSets.length) := by
  rw [setCount]
  cases e.find h <;> rfl

theorem describe_of_find {description : Description} (hd : e.find h = .ok description)
    (memory : Outline) :
    e.describe h memory = ((fillSlots 0 memory.slots description.defaultSets).1,
      ⟨description.descriptor, (fillSlots 0 memory.slots description.defaultSets).2⟩) := by
  rw [describe, hd]

theorem describe_of_no_find {failure : Failure} (hd : e.find h = .error failure)
    (memory : Outline) : e.describe h memory = (.error failure, memory) := by
  rw [describe, hd]

end Engine

/-! ### Bodies of calls -/

namespace Frame

variable {α : Type} {w : World} {session : Option SessionId} {c : Call}

/-- Carries out the method that there is for a call and replies with its results. -/
def deliver (c : Call) (method : Act World Results) : Act Frame Answer := do
  let results ← onWorld method
  write (c.reply results).memory
  return (c.reply results).answer

/-- What is done on the world and then handed over can be handed over as a whole. -/
theorem deliver_eq {act act' : Act World α} (h : act w = act' w) (results : α → Results) :
    (do
      let a ← onWorld act
      write (c.reply (results a)).memory
      return (c.reply (results a)).answer) (⟨w, session, c⟩ : Frame) =
      deliver c (do
        let a ← act'
        return results a) ⟨w, session, c⟩ := by
  simp only [deliver, Act.bind_apply, onWorld_apply, h]
  cases act' w with
  | mk result w' => cases result <;> rfl

/-- There may be nothing to hand over but that it went well. -/
theorem deliver_nothing {act act' : Act World Unit} (h : act w = act' w)
    (hc : c.reply .nothing = ⟨.code .success, c⟩) :
    (do
      onWorld act
      return Answer.code .success) (⟨w, session, c⟩ : Frame) =
      deliver c (do
        act'
        return .nothing) ⟨w, session, c⟩ := by
  simp only [deliver, Act.bind_apply, onWorld_apply, h]
  cases act' w with
  | mk result w' =>
    cases result with
    | error reason => rfl
    | ok =>
      simp only [Act.pure_apply, hc]
      rfl

/-- A computation that needs no state is handed over like an act on the world. -/
theorem deliver_ofExcept (x : Except Failure α) (results : α → Results) :
    (do
      let a ← Act.ofExcept x
      write (c.reply (results a)).memory
      return (c.reply (results a)).answer) (⟨w, session, c⟩ : Frame) =
      deliver c (do
        let a ← Act.ofExcept x
        return results a) ⟨w, session, c⟩ := by
  cases x <;> rfl

end Frame

namespace Call

open HostArray (read_of_present)

variable {w : World} {c : Call} {e : Engine} {h : Handle} {found : Nat × Benchmark}

theorem readArray_eq {α : Type} {array : HostArray α} (hp : array.Present) (name : String) :
    readArray array name = (pure (announced array) : Act Frame _) := by
  rw [readArray, read_of_present hp]
  rfl

/-- The body of a call to a benchmark delivers what the method of its engine does. -/
theorem body_of_benchmark (hl : c.lead = some (.benchmark, h)) (hd : c ≠ destroy h)
    (hf : Benchmark.Found w h found) (hs : found.2.session = e.session) (ha : c.Agreed) :
    ∃ method, c.method e = some method ∧
      c.body ⟨w, none, c⟩ = Frame.deliver c method ⟨w, some e.session, c⟩ := by
  have bound : ∀ next : Nat × Benchmark → Act Frame Answer,
      (Frame.bindBenchmark h >>= next) ⟨w, none, c⟩ = next found ⟨w, some e.session, c⟩ := by
    intro next
    rw [Act.bind_of_ok (Frame.bindBenchmark_eq hf), hs]
  have own : ∀ {α : Type} (act : Nat × Benchmark → Act World α),
      act found w = (e.own h >>= act) w := fun act => (Act.bind_of_ok (Engine.own_eq hf hs)).symm
  cases c with
  | destroy h' =>
    cases hl
    exact absurd rfl hd
  | concretize h' descriptor =>
    cases hl
    obtain ⟨raw, concrete, rfl, hr⟩ := ha
    have hv : (concretize h (some raw)).method e = some do
        e.concretize h concrete
        return .nothing := by
      simp [Call.method, hr, Except.toOption]
    refine ⟨_, hv, (bound _).trans ?_⟩
    show (Act.ofExcept (Descriptor.ofRaw raw) >>= _) _ = _
    rw [hr]
    exact Frame.deliver_nothing (own fun found => found.2.concretize found.1 concrete) rfl
  | encode h' packs slot =>
    cases hl
    obtain ⟨hslot, memory, rfl, hm⟩ := ha
    obtain ⟨out, rfl⟩ := Option.isSome_iff_exists.1 hslot
    refine ⟨_, rfl, (bound _).trans ?_⟩
    show (Act.ofExcept memory.read >>= _) _ = _
    rw [HostPacks.read_of_complete hm]
    exact Frame.deliver_eq (own fun found => found.2.encode memory.contents) .handle
  | decode h' source packs =>
    cases hl
    obtain ⟨memory, rfl, hm⟩ := ha
    refine ⟨_, rfl, (bound _).trans ?_⟩
    show (Act.ofExcept memory.read >>= _) _ = _
    rw [HostPacks.read_of_complete hm]
    exact Frame.deliver_eq (own fun found => found.2.decode source memory.contents) .packs
  | encrypt h' source slot =>
    cases hl
    obtain ⟨out, rfl⟩ := Option.isSome_iff_exists.1 ha
    refine ⟨_, rfl, (bound _).trans ?_⟩
    exact Frame.deliver_eq (own fun found => found.2.encrypt source) .handle
  | decrypt h' source slot =>
    cases hl
    obtain ⟨out, rfl⟩ := Option.isSome_iff_exists.1 ha
    refine ⟨_, rfl, (bound _).trans ?_⟩
    exact Frame.deliver_eq (own fun found => found.2.decrypt source) .handle
  | load h' sources slot =>
    cases hl
    obtain ⟨hslot, hp⟩ := ha
    obtain ⟨out, rfl⟩ := Option.isSome_iff_exists.1 hslot
    refine ⟨_, rfl, (bound _).trans ?_⟩
    show (readArray sources "p_local" >>= _) _ = _
    rw [readArray_eq hp]
    exact Frame.deliver_eq (own fun found => found.2.load (announced sources)) .handle
  | store h' result slots =>
    cases hl
    refine ⟨_, rfl, (bound _).trans ?_⟩
    show (readArray slots "p_local" >>= _) _ = _
    rw [readArray_eq ha]
    exact Frame.deliver_eq (own fun found => found.2.store result (announced slots)) .handles
  | operate h' loaded selections slot =>
    cases hl
    obtain ⟨hslot, hp⟩ := ha
    obtain ⟨out, rfl⟩ := Option.isSome_iff_exists.1 hslot
    refine ⟨_, rfl, (bound _).trans ?_⟩
    show (readArray selections "p_indexers" >>= _) _ = _
    rw [readArray_eq hp]
    exact Frame.deliver_eq (own fun found => found.2.operate loaded (announced selections)) .handle
  | _ => cases hl

/-- Describing a catalog entry through arrays of its own, the call delivers what the method leaves
in the arrays of the host. -/
theorem body_describe {entry : Handle} {raw : RawDescriptor} {slots : HostArray (HostArray Param)}
    {engine : Nat × Engine} (hf : Engine.Found w h engine)
    (hp : ∀ slot ∈ announced slots, slot.Present) :
    ∃ method, (describe h entry (some raw) slots).method engine.2 = some method ∧
      (describe h entry (some raw) slots).body ⟨w, none, describe h entry (some raw) slots⟩ =
        Frame.deliver (describe h entry (some raw) slots) method
          ⟨w, some engine.2.session, describe h entry (some raw) slots⟩ := by
  obtain ⟨a, e⟩ := engine
  refine ⟨_, rfl, ?_⟩
  show (describeEntry h entry (some raw) slots >>= _) _ = _
  rw [describeEntry, Act.bind_bind, Act.bind_of_ok (Frame.bindEngine_eq hf)]
  show ((Act.ofExcept (e.arity entry) >>= _) >>= _) _ = _
  cases hd : e.find entry with
  | error failure =>
    rw [Engine.arity_eq, Engine.describe_of_no_find hd, hd]
    rfl
  | ok description =>
    have hs : ∀ f : Frame, scratch description.arity
        ((announced slots).take description.defaultSets.length) f = (.ok _, f) := fun f =>
      scratch_eq fun slot hm => hp slot (List.mem_of_mem_take hm)
    obtain ⟨houtcome, hfilled⟩ := fillSlots_scratch hp description.uniform
    rw [Engine.arity_eq, Engine.setCount_eq, hd]
    show ((scratch description.arity
      ((announced slots).take description.defaultSets.length) >>= _) >>= _) _ = _
    rw [Act.bind_bind, Act.bind_of_ok (hs _)]
    simp only [Engine.describe_of_find hd, Description.arity, houtcome]
    cases ho : (Engine.fillSlots 0 ((announced slots).map announced) description.defaultSets).1 with
    | error failure => rfl
    | ok =>
      simp only [hfilled ho]
      rfl

/-- The body of a call to an engine delivers what its method does. -/
theorem body_of_engine {engine : Nat × Engine} (hl : c.lead = some (.engine, h))
    (hf : Engine.Found w h engine) (ha : c.Agreed) :
    ∃ method, c.method engine.2 = some method ∧
      c.body ⟨w, none, c⟩ = Frame.deliver c method ⟨w, some engine.2.session, c⟩ := by
  have bound : ∀ next : Engine → Act Frame Answer,
      (Frame.bindEngine h >>= next) ⟨w, none, c⟩ =
        next engine.2 ⟨w, some engine.2.session, c⟩ :=
    fun next => Act.bind_of_ok (Frame.bindEngine_eq hf)
  cases c with
  | count h' slot =>
    cases hl
    obtain ⟨out, rfl⟩ := Option.isSome_iff_exists.1 ha
    exact ⟨_, rfl, (bound _).trans rfl⟩
  | subscribe h' slots =>
    cases hl
    refine ⟨_, rfl, (bound _).trans ?_⟩
    show (readArray slots "p_h_bench_descs" >>= _) _ = _
    rw [readArray_eq ha]
    exact Frame.deliver_ofExcept (engine.2.subscribe (announced slots))
      .handles
  | details h' entry arity sets =>
    cases hl
    obtain ⟨_, rfl⟩ := Option.isSome_iff_exists.1 ha.1
    obtain ⟨_, rfl⟩ := Option.isSome_iff_exists.1 ha.2
    refine ⟨_, rfl, (bound _).trans ?_⟩
    show (Act.ofExcept (engine.2.arity entry) >>= _) _ = _
    cases engine.2.arity entry with
    | error failure => rfl
    | ok size =>
      exact Frame.deliver_ofExcept (engine.2.setCount entry) (.sizes size)
  | describe h' entry descriptor slots =>
    cases hl
    obtain ⟨raw, rfl⟩ := Option.isSome_iff_exists.1 ha.1
    exact body_describe hf ha.2.2
  | create h' entry params slot =>
    cases hl
    obtain ⟨out, rfl⟩ := Option.isSome_iff_exists.1 ha.1
    refine ⟨_, rfl, (bound _).trans ?_⟩
    show (readParams params >>= _) _ = _
    rw [Act.bind_of_ok (readParams_eq ha.2)]
    exact Frame.deliver_eq rfl .handle
  | text h' entry params buffer =>
    cases hl
    refine ⟨_, rfl, (bound _).trans ?_⟩
    show (readParams params >>= _) _ = _
    rw [Act.bind_of_ok (readParams_eq ha)]
    exact Frame.deliver_ofExcept (engine.2.text entry (params.map announced)) .text
  | schemeName h' id buffer =>
    cases hl
    exact ⟨_, rfl, (bound _).trans (Frame.deliver_ofExcept (engine.2.schemeName id) .text)⟩
  | securityName h' id buffer =>
    cases hl
    exact ⟨_, rfl, (bound _).trans (Frame.deliver_ofExcept (engine.2.securityName id) .text)⟩
  | errorText | lastError | lastErrorText => exact ha.elim
  | _ => cases hl

/-! ### Calls that mirror methods -/

theorem Comes.of_ending {outcome : Except Failure Answer} {memory : Call} {w' : World}
    (h : c.attempt w = (.ok ⟨outcome, memory⟩, w')) : c.Comes w outcome memory w' :=
  ⟨h, perform_of_attempt h⟩

/-- A call mirrors the method that its body delivers. -/
theorem mirrors_of_body {method : Act World Results} (ht : c.Trusted w) (ha : c.Agreed)
    (hv : c.method e = some method)
    (hb : c.body ⟨w, none, c⟩ = Frame.deliver c method ⟨w, some e.session, c⟩) :
    c.Mirrors e method w := by
  have hsound := body_sound w c
  unfold Mirrors
  unfold Frame.deliver at hb
  rw [Act.bind_apply, Frame.onWorld_apply] at hb
  cases hm : method w with
  | mk result w' =>
    rw [hm] at hb
    cases result with
    | ok results =>
      exact ⟨_, _, receives_reply ha hv hm, Comes.of_ending (attempt_of_body hb)⟩
    | error reason =>
      -- what is left by a body that stops tells that the method has changed nothing
      obtain ⟨hsame, hfair⟩ := hsound.of_error hb
      obtain rfl : w' = w := congrArg Frame.world hsame
      cases reason with
      | refused failure =>
        refine ⟨rfl, Comes.of_ending ?_⟩
        rw [attempt, hb]
        rfl
      | panicked message =>
        refine ⟨rfl, rfl, Comes.of_ending ?_⟩
        rw [attempt, hb]
        rfl
      | released => exact hfair ht
      | misread => exact hfair ht

/-- Releasing mirrors the method if both go well with the same world. -/
theorem mirrors_destroy {w' : World} (hm : e.destroy h w = (.ok (), w'))
    (hc : (destroy h).attempt w = (.ok ⟨.ok (.code .success), destroy h⟩, w')) :
    ∃ method, (destroy h).method e = some method ∧ (destroy h).Mirrors e method w := by
  refine ⟨_, rfl, ?_⟩
  unfold Mirrors
  rw [Act.bind_of_ok hm]
  exact ⟨_, _, .nothing _, Comes.of_ending hc⟩

end Call

/-! ### The simulation -/

namespace Host

variable {s : Host} {c : Call} {engine : Handle} {session : SessionId}

/-- The call goes to the engine with this handle and session or to one of its benchmarks, or it
releases one of its benchmarks or objects, or a catalog entry. -/
def Directs (s : Host) (engine : Handle) (session : SessionId) : Call → Prop
  | .destroy h => h ∈ s.ledger.entries ∨ (h, .benchmark session) ∈ s.ledger.held ∨
    ∃ root, (h, .object session root) ∈ s.ledger.held
  | c => c.lead = some (.engine, engine) ∨
    ∃ h, c.lead = some (.benchmark, h) ∧ (h, .benchmark session) ∈ s.ledger.held

/-- **Both layers do the same.** Every call of a host that goes to one of its engines, with
arguments as agreed, does exactly what the method of the engine does, and the host finds the results
of the method in its memory. -/
theorem Reachable.layersAgree (hs : s.Reachable) (he : (engine, .engine session) ∈ s.ledger.held)
    (hc : s.Permits (.call c)) (hd : s.Directs engine session c) (ha : c.Agreed) :
    ∃ found, Engine.resolve engine s.world = (.ok found, s.world) ∧ found.2.session = session ∧
      ∃ method, c.method found.2 = some method ∧ c.Mirrors found.2 method s.world := by
  have hb := hs.agrees.backed
  have ht : c.Trusted s.world := hs.honest hc
  obtain ⟨found, hf, rfl⟩ := hb.engine_found he
  refine ⟨found, Engine.resolve_eq_ok hf, rfl, ?_⟩
  by_cases hr : ∃ h, c = .destroy h
  · obtain ⟨h, rfl⟩ := hr
    have released := hb.destroy_known (hc h (by simp [Move.handles, Call.handles, Call.lead]))
    rcases hd with hm | hm | ⟨root, hm⟩
    · obtain ⟨i, rfl⟩ := hb.descriptors h hm
      have unchanged : s.world.without (Handle.descriptor i).pointer = s.world := rfl
      rw [unchanged] at released
      exact Call.mirrors_destroy (Engine.destroy_entry rfl) released
    · obtain ⟨benchmark, hbf, hsame⟩ := hb.benchmark_found hm
      rw [hbf.without_eq] at released
      exact Call.mirrors_destroy (Engine.destroy_benchmark hbf hsame) released
    · obtain ⟨object, hof, -⟩ := hb.object_found hm
      rw [hof.without_eq] at released
      exact Call.mirrors_destroy (Engine.destroy_object hof (hb.not_benchmark hm)) released
  · have hlead : c.lead = some (.engine, engine) ∨
        ∃ h, c.lead = some (.benchmark, h) ∧ (h, .benchmark found.2.session) ∈ s.ledger.held := by
      cases c with
      | destroy h => exact absurd ⟨h, rfl⟩ hr
      | _ => exact hd
    rcases hlead with hl | ⟨h, hl, hm⟩
    · obtain ⟨method, hv, hbody⟩ := Call.body_of_engine hl hf ha
      exact ⟨method, hv, Call.mirrors_of_body ht ha hv hbody⟩
    · obtain ⟨benchmark, hbf, hsame⟩ := hb.benchmark_found hm
      obtain ⟨method, hv, hbody⟩ :=
        Call.body_of_benchmark hl (fun hx => hr ⟨h, hx⟩) hbf hsame ha
      exact ⟨method, hv, Call.mirrors_of_body ht ha hv hbody⟩

/-- The sample host once it has encoded an octet. -/
def keeper : Host := sample.after (.method sampleEngine (.give sampleBenchmark (.encode [⟨5, [[9]]⟩])))

/-- The call in which it decodes what it has encoded, with room for one octet more. -/
def keeperDecode : Call :=
  .decode sampleBenchmark ⟨.cell 4, 0, .object ||| Carrier.dataBit⟩
    (some (.ofList [⟨5, .ofList [.memory [0xAA, 0xAA]]⟩]))

/-- The host finds the octet in its memory, in front of what was there. -/
theorem layersAgree_keeper : keeper.Permits (.call keeperDecode) ∧
    keeper.Directs sampleEngine 0 keeperDecode ∧ keeperDecode.Agreed ∧
    ∃ after w, keeperDecode.Comes keeper.world (.ok (.code .success))
      (.decode sampleBenchmark ⟨.cell 4, 0, .object ||| Carrier.dataBit⟩ (some after)) w ∧
      after.read = .ok [⟨5, [[9, 0xAA]]⟩] := by
  have hs : keeper.Reachable := reachable_sample.after (by decide)
  have hc : keeper.Permits (.call keeperDecode) := by decide
  have he : (sampleEngine, .engine 0) ∈ keeper.ledger.held := by decide
  have hd : keeper.Directs sampleEngine 0 keeperDecode := .inr ⟨sampleBenchmark, rfl, by decide⟩
  have ha : keeperDecode.Agreed := ⟨_, rfl, by decide, by decide⟩
  obtain ⟨found, hf, -, method, hv, hm⟩ := hs.layersAgree he hc hd ha
  cases hf
  cases hv
  obtain ⟨answer, memory, hreceives, hcomes⟩ := hm
  cases hreceives with
  | decode takes complete reads => exact ⟨hc, hd, ha, _, _, hcomes, reads⟩

end Host

end HandleBench
