import HandleBench.Proofs.Moves
import HandleBench.Proofs.Served

/-!
# Turns of the sessions

What a move does to the counts of live benchmarks, to the last failures and to the engines depends
on its event only. An engine comes with a session of its own, a benchmark takes a slot of a session
that has one left, a benchmark that goes gives its slot back, and with every other event all of it
stays as it is. This is `World.Turn`; it is shown for what calls and methods do when they succeed,
and with it for every move but the one that sets a last failure, `Move.perform_turn`.
-/

namespace HandleBench

namespace Event

/-- No engine and no benchmark comes, and no handle goes. -/
def Still : Event → Prop
  | engine .. | benchmark .. | released _ => False
  | _ => True

theorem still_ofFirst {made : List Handle} {event : Handle → Event} (h : ∀ x, (event x).Still) :
    (ofFirst made event).Still := by
  cases made with
  | nil => trivial
  | cons x rest => exact h x

end Event

/-- A job brings objects only. -/
theorem Job.event_still (w : World) (b : Benchmark) (made : List Handle) (job : Job) :
    (job.event w b made).Still := by
  cases job with
  | concretize | decode => trivial
  | encode packs =>
    rw [event]
    cases b.inst.encoded packs with
    | none => trivial
    | some value => exact Event.still_ofFirst fun _ => trivial
  | encrypt | decrypt | store => exact Event.still_ofFirst fun _ => trivial
  | load sources =>
    cases sources with
    | nil => trivial
    | cons => exact Event.still_ofFirst fun _ => trivial
  | operate source selections =>
    rw [event]
    cases b.inst.operated (w.value? source) selections with
    | none => exact Event.still_ofFirst fun _ => trivial
    | some value => exact Event.still_ofFirst fun _ => trivial

namespace Call

/-- The call may bring an engine or a benchmark, or release a handle. -/
def turns : Call → Bool
  | start .. | destroy _ | create .. => true
  | _ => false

theorem event_still {c : Call} (hc : c.turns = false) (w : World) (memory : Call) :
    (c.event w memory).Still := by
  unfold event
  split
  · cases hc
  · cases hc
  · trivial
  · cases hc
  · split
    · next b job _ => exact job.event_still w b memory.made
    · trivial

end Call

namespace World

variable {w w' : World} {id : SessionId}

/-! ### One session changed -/

/-- What a change of a session leaves alone is afterwards what it was. -/
theorem getD_changeSession {α : Type} {f : Session → Session} {part : Session → α}
    (hf : ∀ s, part (f s) = part s) (default : α) (i : SessionId) :
    ((w.changeSession id f).sessions[i]?.map part).getD default =
      (w.sessions[i]?.map part).getD default := by
  rw [session?_changeSession]
  split
  · rw [Option.map_map, show part ∘ f = part from funext hf]
  · rfl

/-- If a part of a new session is what it counts for without one, nothing changes. -/
theorem getD_push {α : Type} {s : Session} {part : Session → α} {default : α}
    (h : w'.sessions = w.sessions.push s) (hs : part s = default) (i : SessionId) :
    (w'.sessions[i]?.map part).getD default = (w.sessions[i]?.map part).getD default := by
  rw [h, Array.getElem?_push]
  split
  · next hi =>
    subst hi
    rw [Array.getElem?_eq_none (Nat.le_refl _)]
    exact hs
  · rfl

theorem live_changeSession {f : Session → Session} (hf : ∀ s, (f s).live = s.live) :
    (w.changeSession id f).live = w.live := funext (getD_changeSession hf 0)

theorem lastError_changeSession {f : Session → Session} (hf : ∀ s, (f s).lastError = s.lastError) :
    (w.changeSession id f).lastError = w.lastError := funext (getD_changeSession hf _)

theorem Quiet.changeSession {f : Session → Session} (hl : ∀ s, (f s).live = s.live)
    (he : ∀ s, (f s).lastError = s.lastError) : w.Quiet (w.changeSession id f) :=
  ⟨Nat.le_of_eq (size_changeSession w id f).symm, live_changeSession hl,
    lastError_changeSession he, fun _ _ h => h⟩

theorem live_takeSlot (hid : id < w.sessions.size) (i : SessionId) :
    (w.takeSlot id).live i = w.live i + if i = id then 1 else 0 := by
  rw [live, live, takeSlot, session?_changeSession]
  by_cases hi : id = i
  · subst hi
    rw [if_pos rfl, if_pos rfl, Array.getElem?_eq_getElem hid]
    rfl
  · rw [if_neg hi, if_neg fun h => hi h.symm, Nat.add_zero]

theorem live_releaseSlot (w : World) (id i : SessionId) :
    (w.releaseSlot id).live i = w.live i - if i = id then 1 else 0 := by
  rw [live, live, releaseSlot, session?_changeSession]
  by_cases hi : id = i
  · subst hi
    rw [if_pos rfl, if_pos rfl]
    cases w.sessions[id]? with
    | none => rfl
    | some s => rfl
  · rw [if_neg hi, if_neg fun h => hi h.symm, Nat.sub_zero]

/-- A new session has no live benchmarks, as if it had been there. -/
theorem live_push {errors : NameTable}
    (h : w'.sessions = w.sessions.push ⟨⟨.success, "Success"⟩, errors, 0⟩) : w'.live = w.live :=
  funext (getD_push h rfl)

/-- It has no failure either. -/
theorem lastError_push {errors : NameTable}
    (h : w'.sessions = w.sessions.push ⟨⟨.success, "Success"⟩, errors, 0⟩) :
    w'.lastError = w.lastError :=
  funext (getD_push h rfl)

/-! ### Turns -/

/-- What happens to sessions and engines with an event. -/
inductive Turn (w w' : World) : Event → Prop where
  /-- Nothing. -/
  | still {event : Event} (still : event.Still) (quiet : w.Quiet w') : Turn w w' event
  /-- An engine comes with a session of its own. -/
  | engine {h : Handle} {e : Engine} {errors : NameTable} (own : e.session = w.sessions.size)
    (sessions : w'.sessions = w.sessions.push ⟨⟨.success, "Success"⟩, errors, 0⟩)
    (engines : ∀ p, w'.engine? p = if p = h.pointer then some e else w.engine? p) :
    Turn w w' (.engine h w.sessions.size)
  /-- A benchmark takes a slot of the session of its engine, which has one left. -/
  | benchmark {h : Handle} {p : Pointer} {e : Engine} (maker : w.engine? p = some e)
    (room : ∀ k, e.settings.maxLive = some k → w.live e.session < k)
    (quiet : (w.takeSlot e.session).Quiet w') : Turn w w' (.benchmark h e.session)
  /-- A benchmark goes and gives its slot back. -/
  | freed {h : Handle} {id : SessionId} (held : w.grantAt h.pointer = some (.benchmark id))
    (quiet : (w.releaseSlot id).Quiet w') : Turn w w' (.released h)
  /-- An engine or an object goes. -/
  | gone {h : Handle} (other : ∀ id, w.grantAt h.pointer ≠ some (.benchmark id))
    (quiet : w.Quiet w') : Turn w w' (.released h)

variable {event : Event}

/-- No session ever goes. -/
theorem Turn.size (ht : w.Turn w' event) : w.sessions.size ≤ w'.sessions.size := by
  cases ht with
  | still _ quiet => exact quiet.size
  | engine _ sessions _ =>
    rw [sessions, Array.size_push]
    omega
  | benchmark _ _ quiet =>
    have hs := quiet.size
    rwa [takeSlot, size_changeSession] at hs
  | freed _ quiet =>
    have hs := quiet.size
    rwa [releaseSlot, size_changeSession] at hs
  | gone _ quiet => exact quiet.size

/-- No event leaves a failure behind. -/
theorem Turn.lastError (ht : w.Turn w' event) : w'.lastError = w.lastError := by
  cases ht with
  | still _ quiet => exact quiet.lastError
  | engine _ sessions _ => exact lastError_push sessions
  | benchmark _ _ quiet => exact quiet.lastError.trans (lastError_changeSession fun _ => rfl)
  | freed _ quiet => exact quiet.lastError.trans (lastError_changeSession fun _ => rfl)
  | gone _ quiet => exact quiet.lastError

end World

/-! ### Methods and calls -/

/-- A tame act that yields leaves its world quiet. -/
theorem Act.Tame.ends {α : Type} {act : Act World α} (h : act.Tame True) (w : World) :
    act.Ends w (fun _ w' => w.Quiet w') fun _ _ => True :=
  ends_of_forall (fun _ _ ha => h.quiet_of_ok ha) fun _ _ _ => trivial

/-- A tame act with a still event is a still turn. -/
theorem Act.Tame.turn {α : Type} {act : Act World α} {event : α → Event} (h : act.Tame True)
    (hs : ∀ a, (event a).Still) (w : World) :
    (do return event (← act)).Ends w (fun event w' => w.Turn w' event) fun _ _ => True :=
  Act.ends_bind.2 ((h.ends w).mono (fun a _ hq => .still (hs a) hq) fun _ _ _ => trivial)

/-- Where something else is there is no benchmark. -/
theorem World.ne_benchmark {w : World} {p : Pointer} {g : Grant} (hg : w.grantAt p = some g)
    (hk : g.kind ≠ .benchmark) (id : SessionId) : w.grantAt p ≠ some (.benchmark id) := by
  rw [hg]
  intro h
  cases h
  exact hk rfl

/-- Releasing a benchmark frees its slot. -/
theorem Benchmark.Found.turn {w : World} {h : Handle} {found : Nat × Benchmark}
    (hf : Found w h found) : w.Turn (release w found.1 found.2) (.ofDestroy h) := by
  rw [Event.ofDestroy_claims hf.not_null hf.tag (by simp)]
  exact .freed hf.grant (.set rfl rfl rfl)

theorem Object.Found.turn {w : World} {session : SessionId} {h : Handle} {found : Nat × ObjectCell}
    (hf : Found w session h found) : w.Turn (release w found.1 found.2) (.ofDestroy h) := by
  rw [Event.ofDestroy_claims hf.not_null hf.tag (by simp)]
  exact .gone (World.ne_benchmark hf.grant (by simp)) (.set rfl rfl rfl)

theorem Engine.Found.turn {w : World} {h : Handle} {found : Nat × Engine}
    (hf : Found w h found) : w.Turn (w.clear found.1) (.ofDestroy h) := by
  rw [Event.ofDestroy_claims hf.not_null hf.tag (by simp)]
  exact .gone (World.ne_benchmark hf.grant (by simp)) (.clear w found.1)

namespace Engine

variable {w w' : World} {e : Engine} {p : Pointer} {h made : Handle}

theorem make_turn (w : World) (settings : EngineSettings) (registry : Registry) :
    (make settings registry).Ends w (fun made w' => w.Turn w' (.engine made w.sessions.size))
      fun _ _ => True := by
  have he : ∀ (w' : World) (e : Engine), w'.cells = w.cells.push (.engine e) → ∀ p,
      w'.engine? p = if p = .cell w.cells.size then some e else w.engine? p :=
    fun w' e h p => World.view_push Cell.engine? h p
  exact World.Turn.engine rfl rfl (he _ _ rfl)

theorem start_turn (w : World) (backend : Backend) (settings : EngineSettings) :
    (start backend settings).Ends w (fun made w' => w.Turn w' (.engine made w.sessions.size))
      fun _ _ => True := by
  unfold start
  refine Act.ends_bind.2 (Act.ends_ofExcept ?_ fun _ _ => trivial)
  intro _ _
  split
  · exact make_turn w settings _
  · trivial

/-- An engine that creates a benchmark has had room for it. -/
theorem create_turn (he : w.engine? p = some e) {params : Option (List Param)}
    (hc : e.create h params w = (.ok made, w')) : w.Turn w' (.benchmark made e.session) := by
  obtain ⟨description, inst, -, -, hroom, -, rfl⟩ := create_makes hc
  exact .benchmark he hroom (.push rfl rfl rfl)

theorem destroyBenchmark_turn (w : World) (e : Engine) (h : Handle) :
    (e.destroyBenchmark h).Ends w (fun _ w' => w.Turn w' (.ofDestroy h)) fun _ _ => True := by
  unfold destroyBenchmark
  split
  · next hn =>
    show w.Turn w (.ofDestroy h)
    rw [Event.ofDestroy_null hn]
    exact .still trivial (.refl w)
  · refine Act.ends_bind.2 (Act.Ends.mono (own_atomic w e h) ?_ fun _ _ _ => trivial)
    rintro found w' ⟨rfl, hf, -⟩
    exact hf.turn

theorem destroy_turn (w : World) (e : Engine) (h : Handle) :
    (e.destroy h).Ends w (fun _ w' => w.Turn w' (.ofDestroy h)) fun _ _ => True := by
  unfold destroy
  split
  · next hn =>
    show w.Turn w (.ofDestroy h)
    rw [Bool.and_eq_true] at hn
    rw [Event.ofDestroy_null hn.1]
    exact .still trivial (.refl w)
  split
  · exact destroyBenchmark_turn w e h
  split
  · refine Act.ends_bind.2 (Act.Ends.mono (Object.resolve_atomic w e.session h 0) ?_
      fun _ _ _ => trivial)
    rintro found w' ⟨rfl, hf⟩
    exact hf.turn
  split
  · next hd =>
    show w.Turn w (.ofDestroy h)
    rw [Event.ofDestroy_entry hd]
    exact .still trivial (.refl w)
  · trivial

theorem carryOut_tame (e : Engine) (h : Handle) (job : Job) : (e.carryOut h job).Tame True := by
  rw [carryOut_eq]
  exact .bind (e.own_tame h) fun found => found.2.carryOut_tame found.1 job fun _ => trivial

end Engine

/-- What a method of an engine does if it succeeds. -/
theorem Method.perform_turn {w : World} {p : Pointer} {e : Engine} (he : w.engine? p = some e)
    (m : Method) : (m.perform e).Ends w (fun event w' => w.Turn w' event) fun _ _ => True := by
  have stays : ∀ {event : Event}, event.Still → w.Turn w event := fun hs => .still hs (.refl w)
  cases m with
  | entries => exact stays trivial
  | subscribe slots =>
    exact Act.ends_bind.2 (Act.ends_ofExcept (fun _ _ => stays trivial) fun _ _ => trivial)
  | schemeName | securityName | arity | setCount | text | describe =>
    exact Act.ends_bind.2 (Act.ends_ofExcept (fun _ _ => stays trivial) fun _ _ => trivial)
  | create h params =>
    refine Act.ends_bind.2 (Act.ends_of_forall ?_ fun _ _ _ => trivial)
    intro made w' hc
    exact Engine.create_turn he hc
  | destroyBenchmark h => exact Act.ends_bind.2 (Engine.destroyBenchmark_turn w e h)
  | destroy h => exact Act.ends_bind.2 (Engine.destroy_turn w e h)
  | give h job =>
    refine Act.ends_bind_look ?_
    refine Act.ends_bind.2 (((e.carryOut_tame h job).ends w).mono ?_ fun _ _ _ => trivial)
    intro made w' hq
    dsimp only [id]
    split
    · next b _ => exact .still (job.event_still w b made) hq
    · exact .still trivial hq

namespace Call

variable {w w' : World} {c : Call} {reply : Reply}

/-- What a call does if it is served. -/
theorem Served.turn (hs : c.Served w w' reply) : w.Turn w' (c.event w reply.memory) := by
  cases hs with
  | start reads starts => exact ((Engine.start_turn w .matrixProduct _).of_ok starts)
  | destroyNothing nothing =>
    show w.Turn w (.ofDestroy _)
    rw [nothing]
    exact .still trivial (.refl w)
  | destroyEngine finds => exact finds.turn
  | destroyBenchmark finds => exact finds.turn
  | destroyObject finds => exact finds.turn
  | @create h entry params slot made found _ finds creates =>
    rw [event, Engine.found_iff.2 ⟨found, finds, rfl⟩]
    exact Engine.create_turn finds.engine? creates
  | concretize _ _ works =>
    exact .still (event_still rfl w _) ((Benchmark.concretize_tame _ _ _).quiet_of_ok works)
  | encode _ _ works =>
    exact .still (event_still rfl w _) ((Benchmark.encode_tame _ _).quiet_of_ok works)
  | decode _ _ works =>
    exact .still (event_still rfl w _) ((Benchmark.decode_tame _ _ _).quiet_of_ok works)
  | encrypt _ works =>
    exact .still (event_still rfl w _) ((Benchmark.encrypt_tame _ _).quiet_of_ok works)
  | decrypt _ works =>
    exact .still (event_still rfl w _) ((Benchmark.decrypt_tame _ _).quiet_of_ok works)
  | load _ works =>
    exact .still (event_still rfl w _) ((Benchmark.load_tame _ _).quiet_of_ok works)
  | store _ works =>
    exact .still (event_still rfl w _) ((Benchmark.store_tame _ _ _).quiet_of_ok works)
  | operate _ works =>
    exact .still (event_still rfl w _)
      ((Benchmark.operate_tame _ _ _ fun _ => trivial).quiet_of_ok works)
  | _ => exact .still (event_still rfl w _) (.refl w)

/-- A call succeeds exactly as it is served. -/
theorem served_of_attempt {answer : Answer} {memory : Call}
    (ha : c.attempt w = (.ok ⟨.ok answer, memory⟩, w')) : c.Served w w' ⟨answer, memory⟩ := by
  obtain ⟨session, hb⟩ := body_of_attempt ha
  exact (body_served w c).of_ok hb

end Call

/-! ### Moves -/

namespace World

theorem openSession_quiet (w : World) (errors : NameTable) : w.Quiet (openSession errors w).2 := by
  refine ⟨?_, live_push rfl, lastError_push rfl, fun _ _ h => h⟩
  show w.sessions.size ≤ (w.sessions.push _).size
  rw [Array.size_push]
  omega

theorem addErrorText_quiet (w : World) (id : SessionId) (code : Int32) (text : String) :
    w.Quiet (addErrorText id code text w).2 := by
  unfold addErrorText
  split
  · exact .changeSession (fun _ => rfl) fun _ => rfl
  · exact .refl w

end World

/-- What a move does if it succeeds. Setting a last failure is left out, it is what it says. -/
theorem Move.perform_turn (w : World) (m : Move) (hm : ∀ id error, m ≠ .setLastError id error) :
    m.perform.Ends w (fun event w' => w.Turn w' event) fun _ _ => True := by
  cases m with
  | openSession errors => exact .still trivial (w.openSession_quiet errors)
  | addErrorText session code text =>
    refine Act.ends_bind.2 (Act.ends_of_forall ?_ fun _ _ _ => trivial)
    intro _ w' ha
    have hq := w.addErrorText_quiet session code text
    rw [ha] at hq
    exact .still trivial hq
  | setLastError id error => exact absurd rfl (hm id error)
  | create session size bits value =>
    refine (Object.create_tame session size bits value).turn ?_ w
    exact fun _ => trivial
  | retrieve session h required expected =>
    refine (Object.retrieve_tame session h required expected).turn ?_ w
    exact fun _ => trivial
  | duplicate session h bits required =>
    refine (Object.duplicate_tame session h bits required).turn ?_ w
    exact fun _ => trivial
  | holders session h =>
    refine (Object.holders_tame session h).turn ?_ w
    exact fun _ => trivial
  | release session h =>
    refine Act.ends_bind.2 (Act.ends_bind.2 (Act.Ends.mono (Object.resolve_atomic w session h 0) ?_
      fun _ _ _ => trivial))
    rintro found w' ⟨rfl, hf⟩
    exact .gone (World.ne_benchmark hf.grant (by simp)) (.set rfl rfl rfl)
  | start backend settings =>
    refine Act.ends_bind_look ?_
    exact Act.ends_bind.2 (Engine.start_turn w backend settings)
  | make settings registry =>
    refine Act.ends_bind_look ?_
    exact Act.ends_bind.2 (Engine.make_turn w settings registry)
  | method engine m =>
    refine Act.ends_bind.2 (Act.Ends.mono (Engine.resolve_atomic w engine) ?_ fun _ _ _ => trivial)
    rintro found w' ⟨rfl, hf⟩
    exact m.perform_turn hf.engine?
  | call c =>
    refine Act.ends_bind_look ?_
    refine Act.ends_bind.2 (Act.ends_of_forall ?_ fun _ _ _ => trivial)
    rintro ⟨outcome, memory⟩ w' ha
    cases outcome with
    | error failure => trivial
    | ok answer => exact (Call.served_of_attempt ha).turn

end HandleBench
