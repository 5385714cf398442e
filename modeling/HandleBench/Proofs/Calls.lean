import HandleBench.Call
import HandleBench.Proofs.Jobs

/-!
# Exported calls and the world

An exported call first resolves an engine or a benchmark, its *lead*, and with it the session that
its failures are recorded in. From there on it is all or nothing: if it fails, the world and the
host memory are as they were. If it succeeds, it does to the handles of the host what its event
says, and every handle that it resolved can be taken for what was asked for.
-/

namespace HandleBench

namespace Grant

/-- The session of what is granted. -/
def session : Grant → SessionId
  | engine session | benchmark session | object session _ => session

end Grant

namespace World

/-- The session that is resolved with a handle taken for one of the kind. -/
def sessionOf (w : World) (k : Kind) (h : Handle) : Option SessionId :=
  if h.tag.Claims k then ((w.grantAt h.pointer).filter (·.kind == k)).map Grant.session else none

/-- The benchmark behind a handle. -/
def benchmark? (w : World) (h : Handle) : Option Benchmark :=
  match h.pointer with
  | .word _ => none
  | .cell a =>
    match w.cells[a]? with
    | some (.benchmark b) => some b
    | _ => none

theorem sessionOf_eq_some {w : World} {k : Kind} {h : Handle} {id : SessionId} :
    w.sessionOf k h = some id ↔
      h.tag.Claims k ∧ ∃ g, w.grantAt h.pointer = some g ∧ g.kind = k ∧ g.session = id := by
  unfold sessionOf
  split
  · next ht =>
    simp only [ht, true_and, Option.map_eq_some_iff, Option.filter_eq_some_iff, beq_iff_eq]
    exact ⟨fun ⟨g, ⟨hg, hk⟩, hs⟩ => ⟨g, hg, hk, hs⟩, fun ⟨g, hg, hk, hs⟩ => ⟨g, ⟨hg, hk⟩, hs⟩⟩
  · next ht => exact ⟨fun h => (by cases h), fun h => absurd h.1 ht⟩

end World

/-- A handle is resolved exactly if a session comes with it. -/
theorem Engine.found_iff {w : World} {h : Handle} {id : SessionId} :
    w.sessionOf .engine h = some id ↔ ∃ found, Found w h found ∧ found.2.session = id := by
  rw [World.sessionOf_eq_some]
  constructor
  · rintro ⟨ht, g, hg, hk, hs⟩
    obtain ⟨a, c, hp, hc, hcg⟩ := World.cell_of_grantAt hg
    cases c with
    | engine e =>
      obtain rfl := Option.some.inj hcg
      exact ⟨(a, e), ⟨hp, hc, ht⟩, hs⟩
    | released => cases hcg
    | _ => obtain rfl := Option.some.inj hcg; cases hk
  · rintro ⟨found, hf, hs⟩
    exact ⟨hf.tag, _, hf.grant, rfl, hs⟩

theorem Benchmark.found_iff {w : World} {h : Handle} {id : SessionId} :
    w.sessionOf .benchmark h = some id ↔ ∃ found, Found w h found ∧ found.2.session = id := by
  rw [World.sessionOf_eq_some]
  constructor
  · rintro ⟨ht, g, hg, hk, hs⟩
    obtain ⟨a, c, hp, hc, hcg⟩ := World.cell_of_grantAt hg
    cases c with
    | benchmark b =>
      obtain rfl := Option.some.inj hcg
      exact ⟨(a, b), ⟨hp, hc, ht⟩, hs⟩
    | released => cases hcg
    | _ => obtain rfl := Option.some.inj hcg; cases hk
  · rintro ⟨found, hf, hs⟩
    exact ⟨hf.tag, _, hf.grant, rfl, hs⟩

theorem Benchmark.Found.benchmark? {w : World} {h : Handle} {found : Nat × Benchmark}
    (hf : Benchmark.Found w h found) : w.benchmark? h = some found.2 := by
  simp [World.benchmark?, hf.pointer, hf.cell]

namespace Call

/-! ### What a call is about -/

/-- The handle that a call resolves first, and as what. -/
def lead : Call → Option (Kind × Handle)
  | version .. | start .. => none
  | destroy h => some (.benchmark, h)
  | count h _ | subscribe h _ | details h .. | describe h .. | create h .. | text h ..
  | schemeName h .. | securityName h .. | errorText h .. | lastError h | lastErrorText h _ =>
    some (.engine, h)
  | concretize h _ | encode h .. | decode h .. | encrypt h .. | decrypt h .. | load h ..
  | store h .. | operate h .. => some (.benchmark, h)

/-- The session that a failure of the call is recorded in. -/
def sessionIn (w : World) (c : Call) : Option SessionId :=
  c.lead.bind fun (k, h) => w.sessionOf k h

/-- The handle of a catalog entry that the call asks about. -/
def topic : Call → Option Handle
  | details _ entry .. | describe _ entry .. | create _ entry .. | text _ entry .. => some entry
  | _ => none

/-- The job that the call gives to a benchmark, if its other arguments can be read. -/
def job? : Call → Option Job
  | concretize _ (some raw) => (Descriptor.ofRaw raw).toOption.map .concretize
  | encode _ (some packs) _ => packs.read.toOption.map .encode
  | decode _ encoded (some packs) => packs.read.toOption.map (.decode encoded)
  | encrypt _ encoded _ => some (.encrypt encoded)
  | decrypt _ encrypted _ => some (.decrypt encrypted)
  | load _ handles _ => (handles.read (.nullArgument "p_local")).toOption.map .load
  | store _ result slots => (slots.read (.nullArgument "p_local")).toOption.map (.store result)
  | operate _ loaded selections _ =>
    (selections.read (.nullArgument "p_indexers")).toOption.map (.operate loaded)
  | _ => none

/-- The handles that the host passes. -/
def handles : Call → List Handle
  | version .. | start .. => []
  | load h handles _ => h :: announced handles
  | decode h source _ | encrypt h source _ | decrypt h source _ | store h source _
  | operate h source _ _ => [h, source]
  | c => (c.lead.map (·.2)).toList ++ c.topic.toList

/-- The handles in the host memory that a call writes handles to. -/
def made : Call → List Handle
  | start (some h) _ | create _ _ _ (some h) | encode _ _ (some h) | encrypt _ _ (some h)
  | decrypt _ _ (some h) | load _ _ (some h) | operate _ _ _ (some h) => [h]
  | subscribe _ slots | store _ _ slots => announced slots
  | _ => []

/-- The job that the call gives, with the benchmark that it gives it to. -/
def jobIn (w : World) (c : Call) : Option (Benchmark × Job) := do
  let job ← c.job?
  let (_, h) ← c.lead
  let b ← w.benchmark? h
  return (b, job)

/-- What a call does to the handles of the host if it succeeds and leaves the host memory like
this. -/
def event (w : World) (c memory : Call) : Event :=
  match c with
  | start .. => .ofFirst memory.made (.engine · w.sessions.size)
  | destroy h => .ofDestroy h
  | subscribe .. => .entries memory.made
  | create engine .. =>
    match w.sessionOf .engine engine with
    | some session => .ofFirst memory.made (.benchmark · session)
    | none => .nothing
  | c =>
    match c.jobIn w with
    | some (b, job) => job.event w b memory.made
    | none => .nothing

/-- The handles that a call resolves, and as what. Whatever is to be released may be of any kind. -/
def asks (w : World) : Call → List (Handle × Kind)
  | destroy _ => []
  | c =>
    (c.lead.map fun (k, h) => (h, k)).toList ++ (c.topic.map (·, Kind.entry)).toList ++
      match c.jobIn w with
      | some (b, job) => (job.asks b.inst).map (·, Kind.object)
      | none => []

/-- A call that was begun in the world has succeeded. -/
structure Done (w : World) (c : Call) (f : Frame) : Prop where
  /-- It has done what its event says. -/
  change : w.Change f.world (c.event w f.memory)
  /-- The handles that it resolved were right. -/
  read : ∀ x ∈ c.asks w, w.ReadAs x.1 x.2

variable {w : World} {c : Call} {f : Frame} {h : Handle}

theorem jobIn_eq {job : Job} {found : Nat × Benchmark} (hl : c.lead = some (.benchmark, h))
    (hj : c.job? = some job) (hf : Benchmark.Found w h found) :
    c.jobIn w = some (found.2, job) := by
  simp [jobIn, hl, hj, hf.benchmark?]

theorem job_of_jobIn {b : Benchmark} {job : Job} (hin : c.jobIn w = some (b, job)) :
    c.job? = some job := by
  obtain ⟨job', hj, hin⟩ := Option.bind_eq_some_iff.1 hin
  obtain ⟨_, _, hin⟩ := Option.bind_eq_some_iff.1 hin
  obtain ⟨_, _, hin⟩ := Option.bind_eq_some_iff.1 hin
  cases hin
  exact hj

theorem asks_eq (hd : ∀ h, c ≠ destroy h) :
    c.asks w = (c.lead.map fun (k, h) => (h, k)).toList ++
      (c.topic.map (·, Kind.entry)).toList ++
        match c.jobIn w with
        | some (b, job) => (job.asks b.inst).map (·, Kind.object)
        | none => [] := by
  cases c with
  | destroy h => exact absurd rfl (hd h)
  | _ => rfl

theorem event_of_job {b : Benchmark} {job : Job} (hj : c.jobIn w = some (b, job)) (memory : Call) :
    c.event w memory = job.event w b memory.made := by
  have hs : c.job? ≠ none := by
    intro hn
    simp [jobIn, hn] at hj
  unfold event
  split <;> first | exact absurd rfl hs | rw [hj]

/-- A call that gives a job is done when the job is. -/
theorem Done.of_job {job : Job} {found : Nat × Benchmark} (hl : c.lead = some (.benchmark, h))
    (hj : c.job? = some job) (hf : Benchmark.Found w h found)
    (hc : w.Change f.world (job.event w found.2 f.memory.made))
    (hr : ∀ x ∈ job.asks found.2.inst, w.ReadAs x .object) : Done w c f := by
  have hin := jobIn_eq hl hj hf
  have he : c.topic = none := by cases c <;> first | rfl | cases hj
  refine ⟨by rwa [event_of_job hin], ?_⟩
  rw [asks_eq fun x hx => (by subst hx; cases hj), hl, he, hin]
  simpa using ⟨hf.readAs, hr⟩

/-- A call about an engine is done when it has found what it asks about. -/
theorem Done.of_engine {found : Nat × Engine} (hl : c.lead = some (.engine, h))
    (hj : c.job? = none) (hf : Engine.Found w h found)
    (hw : w.Change f.world (c.event w f.memory))
    (he : ∀ x ∈ c.topic, w.ReadAs x .entry) : Done w c f := by
  have hin : c.jobIn w = none := by simp [jobIn, hj]
  refine ⟨hw, ?_⟩
  rw [asks_eq fun x hx => (by subst hx; cases hl), hl, hin]
  cases hx : c.topic with
  | none => simpa using hf.readAs
  | some x => simpa using ⟨hf.readAs, he x hx⟩

/-! ### Arguments -/

variable {α β : Type} {honest : Prop} {yields : β → Frame → Prop}

theorem require_bind {slot : Slot α} {name : String} {next : α → Act Frame β}
    (hn : ∀ content, slot = some content → (next content).Atomic f honest yields) :
    (require slot name >>= next).Atomic f honest yields := by
  cases slot with
  | none => exact Act.atomic_refuse
  | some content => exact hn content rfl

theorem discard_require_bind {slot : Slot α} {name : String} {next : Unit → Act Frame β}
    (hn : ∀ content, slot = some content → (next ()).Atomic f honest yields) :
    (discard (require slot name) >>= next).Atomic f honest yields := by
  cases slot with
  | none => exact Act.atomic_refuse
  | some content => exact hn content rfl

theorem readArray_bind {array : HostArray α} {name : String} {next : List α → Act Frame β}
    (hn : ∀ read, array.read (.nullArgument name) = .ok read → (next read).Atomic f honest yields) :
    (readArray array name >>= next).Atomic f honest yields :=
  Act.Atomic.bind_ofExcept hn

theorem readParams_bind {params : Option (HostArray Param)}
    {next : Option (List Param) → Act Frame β}
    (hn : ∀ read, (next read).Atomic f honest yields) :
    (readParams params >>= next).Atomic f honest yields := by
  have : (readParams params).Atomic f honest fun _ f' => f' = f ∧ True := by
    cases params with
    | none => exact Act.atomic_pure ⟨rfl, trivial⟩
    | some array =>
      refine readArray_bind fun read _ => ?_
      cases read.mapM (·.type) with
      | error => exact Act.atomic_refuse
      | ok => exact Act.atomic_pure ⟨rfl, trivial⟩
  exact Act.Atomic.bind this fun read _ => hn read

theorem scratch_bind {arity : Nat} {hosts : List (HostArray Param)}
    {next : List (List Param) → Act Frame β} (hn : ∀ blank, (next blank).Atomic f honest yields) :
    (scratch arity hosts >>= next).Atomic f honest yields := by
  have hs : (scratch arity hosts).Atomic f honest fun _ f' => f' = f := by
    refine Act.atomic_mapM fun host _ => ?_
    dsimp only
    split
    · exact discard_require_bind fun _ _ => Act.atomic_pure rfl
    · exact Act.atomic_pure rfl
  exact Act.Atomic.bind (hs.mono id fun _ _ hf => ⟨hf, trivial⟩) fun blank (_ : True) => hn blank

theorem read_eq_announced {array : HostArray α} {refusal : Failure} {read : List α}
    (hr : array.read refusal = .ok read) : read = announced array := by
  obtain ⟨elements, count⟩ := array
  unfold HostArray.read at hr
  split at hr
  · next h0 =>
    cases hr
    simp only at h0
    simp [announced, h0]
  · split at hr
    · cases hr
    · next els he =>
      cases hr
      simp only at he
      simp [announced, he]

/-- As many results as elements were read are what the array announces afterwards. -/
theorem announced_putAll {array : HostArray α} {refusal : Failure} {before results : List α}
    (hr : array.read refusal = .ok before) (hl : results.length = before.length) :
    announced (putAll array results) = results := by
  obtain ⟨elements, count⟩ := array
  rw [read_eq_announced hr, announced, List.length_take] at hl
  cases elements with
  | none =>
    obtain rfl : results = [] := List.length_eq_zero_iff.1 (by simpa using hl)
    simp [announced, putAll, HostArray.change]
  | some els =>
    simp only [Option.getD_some] at hl
    simp only [announced, putAll, HostArray.change, Engine.putFront, Option.map_some,
      Option.getD_some]
    rcases Nat.le_total count.toNat els.length with hle | hle
    · rw [List.take_append_of_le_length (by omega), List.take_of_length_le (by omega)]
    · rw [List.drop_of_length_le (by omega), List.append_nil, List.take_of_length_le (by omega)]

/-- The handles of the job are among those of the call. -/
theorem handles_of_job {job : Job} (hj : c.job? = some job) : ∀ x ∈ job.handles, x ∈ c.handles := by
  intro x hx
  cases c with
  | encrypt | decrypt =>
    obtain rfl := Option.some.inj hj
    exact List.mem_cons_of_mem _ hx
  | concretize h raw | encode h raw slot =>
    cases raw with
    | none => cases hj
    | some raw =>
      obtain ⟨_, _, rfl⟩ := Option.map_eq_some_iff.1 hj
      exact absurd hx List.not_mem_nil
  | decode h source packs =>
    cases packs with
    | none => cases hj
    | some packs =>
      obtain ⟨_, _, rfl⟩ := Option.map_eq_some_iff.1 hj
      exact List.mem_cons_of_mem _ hx
  | load h sources slot =>
    obtain ⟨read, hr, rfl⟩ := Option.map_eq_some_iff.1 hj
    have hr : sources.read (.nullArgument "p_local") = .ok read := by
      cases he : sources.read (.nullArgument "p_local") with
      | error => rw [he] at hr; cases hr
      | ok => rw [he] at hr; cases hr; rfl
    rw [read_eq_announced hr] at hx
    exact List.mem_cons_of_mem _ hx
  | store | operate =>
    obtain ⟨_, _, rfl⟩ := Option.map_eq_some_iff.1 hj
    exact List.mem_cons_of_mem _ hx
  | _ => cases hj

theorem lead_mem {k : Kind} (hl : c.lead = some (k, h)) : h ∈ c.handles := by
  cases c <;> cases hl <;> exact List.mem_cons_self

theorem topic_mem (ht : c.topic = some h) : h ∈ c.handles := by
  cases c <;> cases ht <;> exact List.mem_cons_of_mem _ List.mem_cons_self

/-- A call asks only about what it was given. -/
theorem handles_of_asks : ∀ x ∈ c.asks w, x.1 ∈ c.handles := by
  intro x hx
  by_cases hd : ∃ h, c = destroy h
  · obtain ⟨h, rfl⟩ := hd
    exact absurd hx List.not_mem_nil
  rw [asks_eq fun h he => hd ⟨h, he⟩] at hx
  rcases List.mem_append.1 hx with hx | hx
  · rcases List.mem_append.1 hx with hx | hx
    · obtain ⟨⟨k, h⟩, hl, rfl⟩ := Option.map_eq_some_iff.1 (Option.mem_toList.1 hx)
      exact lead_mem hl
    · obtain ⟨h, ht, rfl⟩ := Option.map_eq_some_iff.1 (Option.mem_toList.1 hx)
      exact topic_mem ht
  · split at hx
    · next b job hin =>
      obtain ⟨y, hy, rfl⟩ := List.mem_map.1 hx
      exact handles_of_job (job_of_jobIn hin) y (job.handles_of_asks b.inst y hy)
    · exact absurd hx List.not_mem_nil

/-- A call shares or releases only what it was given. -/
theorem given_event (w : World) (c memory : Call) :
    ∀ x ∈ (c.event w memory).given, x ∈ c.handles := by
  intro x hx
  unfold event at hx
  split at hx
  · rw [Event.given_ofFirst fun _ => rfl] at hx
    exact absurd hx List.not_mem_nil
  · exact Event.given_ofDestroy _ x hx
  · exact absurd hx List.not_mem_nil
  · split at hx
    · rw [Event.given_ofFirst fun _ => rfl] at hx
      exact absurd hx List.not_mem_nil
    · exact absurd hx List.not_mem_nil
  · split at hx
    · next b job hin =>
      exact handles_of_job (job_of_jobIn hin) x (job.given_event w b memory.made x hx)
    · exact absurd hx List.not_mem_nil

/-! ### The calls -/

/-- Whatever the call is given is honest. -/
def Trusted (w : World) (c : Call) : Prop := ∀ h ∈ c.handles, w.Honest h

/-- From here the call fails with nothing changed, or is done. -/
def Runs (w : World) (c : Call) (session : Option SessionId) (act : Act Frame Answer) : Prop :=
  act.Atomic ⟨w, session, c⟩ (c.Trusted w) fun _ f => Done w c f

/-- Carrying out the body of the call fails with nothing changed but the session resolved, or the
call is done. -/
def Sound (w : World) (c : Call) (act : Act Frame Answer) : Prop :=
  act.Ends ⟨w, none, c⟩ (fun _ f => Done w c f) fun reason f =>
    f = ⟨w, c.sessionIn w, c⟩ ∧ (c.Trusted w → reason.Fair)

theorem Runs.sound {act : Act Frame Answer} (h : Runs w c none act) (hl : c.lead = none) :
    Sound w c act := by
  have hs : c.sessionIn w = none := by rw [sessionIn, hl]; rfl
  unfold Sound
  rw [hs]
  exact h

/-- A call that resolves its lead first. A session is resolved exactly if that goes well. -/
theorem sound_of_resolve {σ : Type} {k : Kind} {resolve : Act World σ} {session : σ → SessionId}
    {next : σ → Act Frame Answer} (hl : c.lead = some (k, h)) (ht : h ∈ c.handles)
    (hr : resolve.Atomic w (w.Honest h) fun found w' => w' = w ∧
      w.sessionOf k h = some (session found) ∧ Runs w c (some (session found)) (next found))
    (hs : ∀ id, w.sessionOf k h = some id → ∃ found, resolve w = (.ok found, w)) :
    Sound w c (Frame.onWorld resolve >>= fun found => do
      Frame.bindSession (session found)
      next found) := by
  have hin : c.sessionIn w = w.sessionOf k h := by rw [sessionIn, hl]; rfl
  unfold Sound
  rw [hin]
  refine Act.ends_bind.2 (Frame.ends_onWorld.2 (Act.ends_of_forall ?_ ?_))
  · intro found w' hf
    obtain ⟨rfl, hso, hn⟩ := hr.of_ok hf
    rw [hso]
    exact hn
  · intro reason w' hf
    obtain ⟨rfl, hfair⟩ := hr.of_error hf
    refine ⟨?_, fun hh => hfair (hh h ht)⟩
    cases hso : w'.sessionOf k h with
    | none => rfl
    | some id =>
      obtain ⟨found, hok⟩ := hs id hso
      rw [hok] at hf
      cases hf

/-- A call that resolves an engine first. -/
theorem sound_of_engine {next : Engine → Act Frame Answer} (hl : c.lead = some (.engine, h))
    (ht : h ∈ c.handles)
    (hn : ∀ found, Engine.Found w h found → Runs w c (some found.2.session) (next found.2)) :
    Sound w c (Frame.bindEngine h >>= next) := by
  rw [Frame.bindEngine, Act.bind_bind]
  refine sound_of_resolve hl ht ((Engine.resolve_atomic w h).mono id ?_) ?_
  · rintro found w' ⟨rfl, hf⟩
    exact ⟨rfl, Engine.found_iff.2 ⟨found, hf, rfl⟩, hn found hf⟩
  · intro id hid
    obtain ⟨found, hf, -⟩ := Engine.found_iff.1 hid
    exact ⟨found, Engine.resolve_eq_ok hf⟩

/-- A call that resolves a benchmark first. -/
theorem sound_of_benchmark {next : Nat × Benchmark → Act Frame Answer}
    (hl : c.lead = some (.benchmark, h)) (ht : h ∈ c.handles)
    (hn : ∀ found, Benchmark.Found w h found → Runs w c (some found.2.session) (next found)) :
    Sound w c (Frame.bindBenchmark h >>= next) := by
  rw [Frame.bindBenchmark, Act.bind_bind]
  refine sound_of_resolve hl ht ((Benchmark.resolve_atomic w h).mono id ?_) ?_
  · rintro found w' ⟨rfl, hf⟩
    exact ⟨rfl, Benchmark.found_iff.2 ⟨found, hf, rfl⟩, hn found hf⟩
  · intro id hid
    obtain ⟨found, hf, -⟩ := Benchmark.found_iff.1 hid
    exact ⟨found, Benchmark.resolve_eq_ok hf⟩

/-- The last step of a call that works on the world. -/
theorem runs_onWorld {σ : Type} {act : Act World σ} {honest : Prop} {session : Option SessionId}
    {yields : σ → World → Prop} {next : σ → Act Frame Answer} (ha : act.Atomic w honest yields)
    (hh : c.Trusted w → honest)
    (hn : ∀ made w', yields made w' →
      (next made).Ends ⟨w', session, c⟩ (fun _ f => Done w c f) fun _ _ => False) :
    Runs w c session (Frame.onWorld act >>= next) := by
  have h : (Frame.onWorld act).Atomic ⟨w, session, c⟩ (c.Trusted w) _ :=
    Frame.onWorld_atomic (ha.mono hh fun _ _ hy => hy)
  refine Act.Atomic.andThen h ?_
  rintro made ⟨w', session', c'⟩ ⟨hf, hy⟩
  cases hf
  exact hn made w' hy

/-- Releasing is done when the handle is gone. -/
theorem Done.of_release {k : Kind} (hn : h.isNull = false) (ht : h.tag.Claims k) (hk : k ≠ .entry)
    (hc : w.Change f.world (.released h)) : Done w (destroy h) f := by
  refine ⟨?_, by simp [asks]⟩
  rwa [event, Event.ofDestroy_claims hn ht hk]

theorem destroy_sound (w : World) (h : Handle) : Sound w (destroy h) (destroy h).body := by
  show Sound w (destroy h) (destroyAny h >>= fun _ => pure (.code .success))
  unfold destroyAny
  split
  · next hn =>
    refine ⟨?_, by simp [asks]⟩
    show w.Change w (.ofDestroy h)
    rw [Event.ofDestroy_null hn]
    exact .refl w
  next hn =>
  have hn : h.isNull = false := eq_false_of_ne_true hn
  split
  · rw [Act.bind_bind]
    refine sound_of_benchmark rfl List.mem_cons_self fun found hf => ?_
    exact Done.of_release hn hf.tag (by simp) (Benchmark.change_release hf)
  next hb =>
  have hs : (destroy h).sessionIn w = none := if_neg hb
  unfold Sound
  rw [hs]
  show Runs w (destroy h) none _
  have leads : ∀ k, h.tag.Claims k → k ≠ .entry → (destroy h).Trusted w →
      ∃ g, w.grantAt h.pointer = some g ∧ g.kind = k := fun k ht hk hh =>
    (hh h List.mem_cons_self).leads ht hn hk
  split
  · next ht =>
    have ho : h.tag.Claims .object := ht
    have leads := leads .object ho (by simp)
    rw [Act.bind_bind]
    refine Act.Atomic.bind (Frame.onWorld_atomic_of_look (World.follow_atomic leads)) ?_
    rintro ⟨a, cell⟩ ⟨hp, hc⟩
    cases cell with
    | object o =>
      have hf : Object.Found w o.session h (a, o) := ⟨hp, hc, rfl, ho⟩
      exact Done.of_release hn ho (by simp) (Object.change_release hf)
    | _ => exact World.misread_fair leads hp hc (by simp)
  split
  · next ht =>
    have he : h.tag.Claims .engine := ht
    have leads := leads .engine he (by simp)
    rw [Act.bind_bind]
    refine Act.Atomic.bind (Frame.onWorld_atomic_of_look (World.follow_atomic leads)) ?_
    rintro ⟨a, cell⟩ ⟨hp, hc⟩
    cases cell with
    | engine e =>
      refine Done.of_release hn he (by simp) ?_
      exact .released (World.grantAt_cell hp hc) (World.grantAt_cleared hp hc rfl) rfl
    | _ => exact World.misread_fair leads hp hc (by simp)
  split
  · next hd =>
    refine ⟨?_, by simp [asks]⟩
    show w.Change w (.ofDestroy h)
    rw [Event.ofDestroy_entry hd]
    exact .refl w
  · exact Act.atomic_refuse

theorem subscribe_sound (w : World) (h : Handle) (slots : HostArray Handle) :
    Sound w (subscribe h slots) (subscribe h slots).body := by
  refine sound_of_engine rfl List.mem_cons_self fun found hf => ?_
  refine readArray_bind fun before hb => ?_
  refine Act.Atomic.bind_ofExcept fun entries he => ?_
  refine Done.of_engine rfl rfl hf ?_ (by simp [topic])
  have hl : entries = found.2.entries ∧ before.length = found.2.catalog.length := by
    unfold Engine.subscribe at he
    split at he
    · next hl => exact ⟨(Except.ok.inj he).symm, hl⟩
    · cases he
  have hm : (subscribe h (putAll slots entries)).made = entries :=
    announced_putAll hb (by rw [hl.1, hl.2]; simp [Engine.entries])
  show w.Change w (.entries _)
  rw [hm, hl.1]
  refine .entries (fun x hx => ?_) rfl rfl
  obtain ⟨i, -, hi⟩ := List.mem_map.1 hx
  exact ⟨i, hi.symm⟩

theorem describe_sound (w : World) (h entry : Handle) (descriptor : Slot RawDescriptor)
    (slots : HostArray (HostArray Param)) :
    Sound w (describe h entry descriptor slots) (describe h entry descriptor slots).body := by
  show Sound w _ (describeEntry h entry descriptor slots >>= fun x => _)
  unfold describeEntry
  rw [Act.bind_bind]
  refine sound_of_engine rfl List.mem_cons_self fun found hf => ?_
  split
  · exact Act.atomic_refuse
  · simp only [Act.bind_bind]
    refine Act.Atomic.bind_ofExcept fun arity ha => ?_
    refine Act.Atomic.bind_ofExcept fun count _ => ?_
    refine scratch_bind fun blank => ?_
    split
    · exact Act.atomic_refuse
    · refine Done.of_engine rfl rfl hf (.refl w) ?_
      simpa [topic] using Engine.readAs_of_about ha

theorem create_sound (w : World) (h entry : Handle) (params : Option (HostArray Param))
    (slot : Slot Handle) :
    Sound w (create h entry params slot) (create h entry params slot).body := by
  refine sound_of_engine rfl List.mem_cons_self fun found hf => ?_
  refine discard_require_bind fun _ _ => ?_
  refine readParams_bind fun read => ?_
  refine runs_onWorld (Engine.create_atomic w found.2 entry read True) (fun _ => trivial) ?_
  rintro made w' ⟨hc, hr⟩
  refine Done.of_engine rfl rfl hf ?_ (by simpa [topic] using hr)
  show w.Change w' (match w.sessionOf .engine h with | some session => _ | none => _)
  rw [Engine.found_iff.2 ⟨found, hf, rfl⟩]
  exact hc

/-- Every call is sound. -/
theorem body_sound (w : World) (c : Call) : Sound w c c.body := by
  cases c with
  | version major minor revision =>
    refine Runs.sound ?_ rfl
    refine discard_require_bind fun _ _ => discard_require_bind fun _ _ => ?_
    refine discard_require_bind fun _ _ => ?_
    exact ⟨.refl w, by simp [asks, lead, topic, jobIn, job?]⟩
  | start engine settings =>
    refine Runs.sound ?_ rfl
    show Act.Atomic (if _ then _ else _) _ _ _
    split
    · exact Act.atomic_refuse
    · refine Act.Atomic.bind_ofExcept fun read _ => ?_
      refine runs_onWorld (Engine.start_atomic w .matrixProduct read True) (fun _ => trivial) ?_
      intro made w' hc
      exact ⟨hc, by simp [asks, lead, topic, jobIn, job?]⟩
  | destroy h => exact destroy_sound w h
  | count h slot =>
    refine sound_of_engine rfl List.mem_cons_self fun found hf => ?_
    refine discard_require_bind fun _ _ => ?_
    exact Done.of_engine rfl rfl hf (.refl w) (by simp [topic])
  | subscribe h slots => exact subscribe_sound w h slots
  | details h entry arity sets =>
    refine sound_of_engine rfl List.mem_cons_self fun found hf => ?_
    refine discard_require_bind fun _ _ => discard_require_bind fun _ _ => ?_
    refine Act.Atomic.bind_ofExcept fun size ha => ?_
    refine Act.Atomic.bind_ofExcept fun count _ => ?_
    refine Done.of_engine rfl rfl hf (.refl w) ?_
    simpa [topic] using Engine.readAs_of_about ha
  | describe h entry descriptor slots => exact describe_sound w h entry descriptor slots
  | create h entry params slot => exact create_sound w h entry params slot
  | text h entry params buffer =>
    refine sound_of_engine rfl List.mem_cons_self fun found hf => ?_
    refine readParams_bind fun read => ?_
    refine Act.Atomic.bind_ofExcept fun text ht => ?_
    refine Done.of_engine rfl rfl hf (.refl w) ?_
    simpa [topic] using Engine.readAs_of_about ht
  | concretize h descriptor =>
    refine sound_of_benchmark rfl List.mem_cons_self fun found hf => ?_
    refine require_bind fun raw hr => ?_
    refine Act.Atomic.bind_ofExcept fun concrete hd => ?_
    refine runs_onWorld (Benchmark.concretize_atomic hf concrete True) (fun _ => trivial) ?_
    intro _ w' hc
    have hj : (concretize h descriptor).job? = some (.concretize concrete) := by
      simp [job?, hr, hd, Except.toOption]
    exact Done.of_job rfl hj hf hc (by simp [Job.asks])
  | encode h packs slot =>
    refine sound_of_benchmark rfl List.mem_cons_self fun found hf => ?_
    refine require_bind fun memory hm => discard_require_bind fun _ _ => ?_
    refine Act.Atomic.bind_ofExcept fun read hr => ?_
    refine runs_onWorld (found.2.encode_atomic w read True) (fun _ => trivial) ?_
    intro made w' hc
    have hj : (encode h packs slot).job? = some (.encode read) := by
      simp [job?, hm, hr, Except.toOption]
    exact Done.of_job rfl hj hf hc (by simp [Job.asks])
  | decode h source packs =>
    refine sound_of_benchmark rfl List.mem_cons_self fun found hf => ?_
    refine require_bind fun memory hm => ?_
    refine Act.Atomic.bind_ofExcept fun before hb => ?_
    refine runs_onWorld (found.2.decode_atomic w source before)
      (fun hh => hh source (by simp [handles])) ?_
    rintro after w' ⟨rfl, hr⟩
    have hj : (decode h source packs).job? = some (.decode source before) := by
      simp [job?, hm, hb, Except.toOption]
    exact Done.of_job rfl hj hf (.refl w') (by simpa [Job.asks] using hr)
  | encrypt h source slot =>
    refine sound_of_benchmark rfl List.mem_cons_self fun found hf => ?_
    refine discard_require_bind fun _ _ => ?_
    refine runs_onWorld (found.2.encrypt_atomic w source)
      (fun hh => hh source (by simp [handles])) ?_
    rintro made w' ⟨hc, hr⟩
    exact Done.of_job rfl rfl hf hc (by simpa [Job.asks] using hr)
  | decrypt h source slot =>
    refine sound_of_benchmark rfl List.mem_cons_self fun found hf => ?_
    refine discard_require_bind fun _ _ => ?_
    refine runs_onWorld (found.2.decrypt_atomic w source)
      (fun hh => hh source (by simp [handles])) ?_
    rintro made w' ⟨hc, hr⟩
    exact Done.of_job rfl rfl hf hc (by simpa [Job.asks] using hr)
  | load h sources slot =>
    refine sound_of_benchmark rfl List.mem_cons_self fun found hf => ?_
    refine discard_require_bind fun _ _ => readArray_bind fun read hr => ?_
    refine runs_onWorld (found.2.load_atomic w read) ?_ ?_
    · intro hh x hx
      rw [read_eq_announced hr] at hx
      exact hh x (List.mem_cons_of_mem h hx)
    · rintro made w' ⟨hc, ha⟩
      have hj : (load h sources slot).job? = some (.load read) := by
        simp [job?, hr, Except.toOption]
      exact Done.of_job rfl hj hf hc ha
  | store h result slots =>
    refine sound_of_benchmark rfl List.mem_cons_self fun found hf => ?_
    refine readArray_bind fun before hb => ?_
    refine runs_onWorld (found.2.store_atomic w result before)
      (fun hh => hh result (by simp [handles])) ?_
    rintro stored w' ⟨hc, ha, hl⟩
    have hj : (store h result slots).job? = some (.store result before) := by
      simp [job?, hb, Except.toOption]
    refine Done.of_job rfl hj hf ?_ ha
    show w.Change w' (.ofFirst (announced (putAll slots stored)) (.shared · result))
    rwa [announced_putAll hb hl]
  | operate h loaded selections slot =>
    refine sound_of_benchmark rfl List.mem_cons_self fun found hf => ?_
    refine discard_require_bind fun _ _ => readArray_bind fun read hr => ?_
    refine runs_onWorld (found.2.operate_atomic w loaded read)
      (fun hh => hh loaded (by simp [handles])) ?_
    rintro made w' ⟨hc, ha⟩
    have hj : (operate h loaded selections slot).job? = some (.operate loaded read) := by
      simp [job?, hr, Except.toOption]
    exact Done.of_job rfl hj hf hc (by simpa [Job.asks] using ha)
  | schemeName h id buffer =>
    refine sound_of_engine rfl List.mem_cons_self fun found hf => ?_
    refine Act.Atomic.bind_ofExcept fun name _ => ?_
    exact Done.of_engine rfl rfl hf (.refl w) (by simp [topic])
  | securityName h id buffer =>
    refine sound_of_engine rfl List.mem_cons_self fun found hf => ?_
    refine Act.Atomic.bind_ofExcept fun name _ => ?_
    exact Done.of_engine rfl rfl hf (.refl w) (by simp [topic])
  | errorText h code buffer =>
    refine sound_of_engine rfl List.mem_cons_self fun found hf => ?_
    exact Done.of_engine rfl rfl hf (.refl w) (by simp [topic])
  | lastError h =>
    refine sound_of_engine rfl List.mem_cons_self fun found hf => ?_
    exact Done.of_engine rfl rfl hf (.refl w) (by simp [topic])
  | lastErrorText h buffer =>
    refine sound_of_engine rfl List.mem_cons_self fun found hf => ?_
    exact Done.of_engine rfl rfl hf (.refl w) (by simp [topic])

end Call

/-- The world after a failure, recorded if a session was resolved. -/
def World.blamed (w : World) (session : Option SessionId) (failure : Failure) : World :=
  match session with
  | none => w
  | some id => w.record id failure

theorem World.cells_blamed (w : World) (session : Option SessionId) (failure : Failure) :
    (w.blamed session failure).cells = w.cells := by
  cases session <;> rfl

theorem World.payloads_blamed (w : World) (session : Option SessionId) (failure : Failure) :
    (w.blamed session failure).payloads = w.payloads := by
  cases session <;> rfl

namespace Call

variable {w : World} {c : Call}

/-- A call succeeds and is done, or fails and leaves nothing but a record of its failure. It ends in
another way only for a host that is not honest. -/
theorem attempt_cases (w : World) (c : Call) :
    (∃ answer memory w', c.attempt w = (.ok ⟨.ok answer, memory⟩, w') ∧
      Done w c ⟨w', none, memory⟩) ∨
    (∃ failure, c.attempt w = (.ok ⟨.error failure, c⟩, w.blamed (c.sessionIn w) failure)) ∨
    ¬ c.Trusted w ∧ ∃ reason, c.attempt w = (.error reason, w) := by
  have hs := body_sound w c
  unfold Sound Act.Ends at hs
  unfold attempt
  cases hb : c.body ⟨w, none, c⟩ with
  | mk result f =>
    rw [hb] at hs
    cases result with
    | ok answer => exact .inl ⟨answer, f.memory, f.world, rfl, ⟨hs.change, hs.read⟩⟩
    | error reason =>
      obtain ⟨rfl, hfair⟩ := hs
      cases reason with
      | refused failure => exact .inr (.inl ⟨failure, rfl⟩)
      | panicked message => exact .inr (.inl ⟨.panicked c.name message, rfl⟩)
      | released => exact .inr (.inr ⟨fun ht => hfair ht, .released, rfl⟩)
      | misread => exact .inr (.inr ⟨fun ht => hfair ht, .misread, rfl⟩)

/-- A call succeeds only through its body. -/
theorem body_of_attempt {answer : Answer} {memory : Call} {w' : World}
    (ha : c.attempt w = (.ok ⟨.ok answer, memory⟩, w')) :
    ∃ session, c.body ⟨w, none, c⟩ = (.ok answer, ⟨w', session, memory⟩) := by
  unfold attempt at ha
  cases hb : c.body ⟨w, none, c⟩ with
  | mk result f =>
    rw [hb] at ha
    cases result with
    | ok answer' =>
      cases ha
      exact ⟨f.session, rfl⟩
    | error reason => cases reason <;> cases ha

/-- What the host gets of a call that ends. -/
theorem perform_of_attempt {ending : Ending} {w' : World} (ha : c.attempt w = (.ok ending, w')) :
    c.perform w = (.ok ⟨c.answer ending.outcome, ending.memory⟩, w') := by
  rw [perform, Act.bind_of_ok ha]
  rfl

end Call

end HandleBench
