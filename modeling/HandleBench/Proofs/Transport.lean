import HandleBench.Proofs.CarrierWrites
import HandleBench.Proofs.Layers
import HandleBench.Proofs.Notes

/-!
# Transport of samples

A byte carrier takes samples through the pipeline as they are. Whichever steps share the payload of
an encoded handle, in whatever order, on whichever instances of its session and whatever the host
does in between, the newest handle is always accepted by the next step and decodes to what the
encoded one would have: `Host.Reachable.transports`. It is enough that the newest handle is not
released before it has been used.
-/

namespace HandleBench

/-! ### Steps of a byte carrier -/

/-- A step in which a byte carrier shares a payload, with what it is given besides the handle. -/
inductive Conveyance where
  /-- Encrypts. -/
  | encrypt
  /-- Decrypts. -/
  | decrypt
  /-- Loads, with further handles that are not looked at. -/
  | load (others : List Handle)
  /-- Operates. -/
  | operate (selections : List Selection)
  /-- Stores through the first of some slots. -/
  | store (slot : Handle) (slots : List Handle)

namespace Conveyance

/-- The job of taking the step with a handle. -/
def job (x : Handle) : Conveyance → Job
  | encrypt => .encrypt x
  | decrypt => .decrypt x
  | load others => .load (x :: others)
  | operate selections => .operate x selections
  | store slot slots => .store x (slot :: slots)

/-- A byte carrier of this kind takes the step; it may have been told to fail when it operates. -/
def TakenBy (config : CarrierConfig) : Conveyance → Prop
  | operate _ => config.operateFails = false ∧ config.operatePanics = false
  | _ => True

end Conveyance

namespace Carrier

variable {w : World} {id : SessionId} {x : Handle} {found : Nat × ObjectCell}
  {config : CarrierConfig}

/-- What a step of a byte carrier makes of a handle. -/
def shareOf (w : World) (x : Handle) : Handle := ⟨.cell w.cells.size, x.size, x.tag⟩

/-- Any handle of the session with the bit of a byte carrier can be shared. -/
theorem share_eq (hf : Object.Found w id x found) (hbit : x.tag.hasClass dataBit = true) :
    share id x w = (.ok (shareOf w x), w.share found.2) := by
  have hcheck : x.checkObject dataBit = .ok () :=
    Handle.checkObject_eq_ok.2 ⟨by decide, hf.tag, hbit⟩
  exact hf.duplicate_eq hcheck rfl

/-- Each step shares the payload, and the handle that comes of it has the tag of the given one. -/
theorem carryOut_eq (hf : Object.Found w id x found) (hbit : x.tag.hasClass dataBit = true)
    (step : Conveyance) (ht : step.TakenBy config) (a : Nat) :
    ∃ rest, (⟨id, .carrier config⟩ : Benchmark).carryOut a (step.job x) w =
      (.ok (shareOf w x :: rest), w.share found.2) := by
  have hshare := share_eq hf hbit
  cases step with
  | encrypt => exact ⟨[], Act.bind_of_ok hshare⟩
  | decrypt => exact ⟨[], Act.bind_of_ok hshare⟩
  | load others => exact ⟨[], Act.bind_of_ok hshare⟩
  | operate selections =>
    have hoperate : operate config id x w = (.ok (shareOf w x), w.share found.2) := by
      rw [operate, ht.1, ht.2]
      exact hshare
    exact ⟨[], Act.bind_of_ok hoperate⟩
  | store slot slots => exact ⟨slots.map fun _ => .null, Act.bind_of_ok hshare⟩

/-- The payload is shared, whichever step it was. -/
theorem event_job (step : Conveyance) (y : Handle) (rest : List Handle) :
    (step.job x).event w ⟨id, .carrier config⟩ (y :: rest) = .shared y x := by
  cases step <;> rfl

end Carrier

/-! ### Jobs that are given -/

namespace Call

variable {w w' : World} {c : Call} {h : Handle} {job : Job} {found : Nat × Benchmark}
  {made : List Handle}

/-- If an act has a value, other things can be made of it as well. -/
theorem map_of_map {α β γ : Type} {act act' : Act World α} {f : α → β} {g : α → γ} {b : β}
    (hact : act' w = act w) (hdone : (do return f (← act) : Act World β) w = (.ok b, w')) :
    ∃ c, (do return g (← act') : Act World γ) w = (.ok c, w') := by
  obtain ⟨a, ha, -⟩ := Act.map_eq_ok hdone
  exact ⟨g a, Act.bind_of_ok (hact.trans ha)⟩

/-- The method of an engine of the benchmark's session has the job done. -/
theorem method_of_job {e : Engine} {method : Act World Results}
    (hl : c.lead = some (.benchmark, h)) (hj : c.job? = some job) (ha : c.Agreed)
    (hf : Benchmark.Found w h found) (hs : found.2.session = e.session)
    (hv : c.method e = some method) (hw : found.2.carryOut found.1 job w = (.ok made, w')) :
    ∃ results, method w = (.ok results, w') := by
  have own : ∀ {α : Type} (act : Nat × Benchmark → Act World α),
      (e.own h >>= act) w = act found w := fun act => Act.bind_of_ok (Engine.own_eq hf hs)
  cases c with
  | concretize h' descriptor =>
    cases hl
    obtain ⟨raw, concrete, rfl, hr⟩ := ha
    simp only [job?, Call.method, hr, Except.toOption, Option.map_some, Option.some.injEq] at hj hv
    subst hj hv
    exact map_of_map (own fun found => found.2.concretize found.1 concrete) hw
  | encode h' packs slot =>
    cases hl
    obtain ⟨hslot, memory, rfl, hm⟩ := ha
    obtain ⟨out, rfl⟩ := Option.isSome_iff_exists.1 hslot
    simp only [job?, HostPacks.read_of_complete hm, Except.toOption, Option.map_some,
      Option.some.injEq] at hj
    cases hj
    cases hv
    exact map_of_map (own fun found => found.2.encode memory.contents) hw
  | decode h' source packs =>
    cases hl
    obtain ⟨memory, rfl, hm⟩ := ha
    simp only [job?, HostPacks.read_of_complete hm, Except.toOption, Option.map_some,
      Option.some.injEq] at hj
    cases hj
    cases hv
    exact map_of_map (own fun found => found.2.decode source memory.contents) hw
  | encrypt h' source slot =>
    cases hl
    cases hj
    obtain ⟨out, rfl⟩ := Option.isSome_iff_exists.1 ha
    cases hv
    exact map_of_map (own fun found => found.2.encrypt source) hw
  | decrypt h' source slot =>
    cases hl
    cases hj
    obtain ⟨out, rfl⟩ := Option.isSome_iff_exists.1 ha
    cases hv
    exact map_of_map (own fun found => found.2.decrypt source) hw
  | load h' sources slot =>
    cases hl
    obtain ⟨hslot, hp⟩ := ha
    obtain ⟨out, rfl⟩ := Option.isSome_iff_exists.1 hslot
    simp only [job?, HostArray.read_of_present hp, Except.toOption, Option.map_some,
      Option.some.injEq] at hj
    cases hj
    cases hv
    exact map_of_map (own fun found => found.2.load (announced sources)) hw
  | store h' result slots =>
    cases hl
    simp only [job?, HostArray.read_of_present ha, Except.toOption, Option.map_some,
      Option.some.injEq] at hj
    cases hj
    cases hv
    change found.2.store result (announced slots) w = _ at hw
    rw [← Act.bind_pure_id (found.2.store result (announced slots))] at hw
    exact map_of_map (own fun found => found.2.store result (announced slots)) hw
  | operate h' loaded selections slot =>
    cases hl
    obtain ⟨hslot, hp⟩ := ha
    obtain ⟨out, rfl⟩ := Option.isSome_iff_exists.1 hslot
    simp only [job?, HostArray.read_of_present hp, Except.toOption, Option.map_some,
      Option.some.injEq] at hj
    cases hj
    cases hv
    exact map_of_map (own fun found => found.2.operate loaded (announced selections)) hw
  | _ => cases hj

/-- A call within the agreement has its job done if the benchmark can do it. -/
theorem attempt_of_job (hl : c.lead = some (.benchmark, h)) (hj : c.job? = some job)
    (ha : c.Agreed) (hf : Benchmark.Found w h found)
    (hw : found.2.carryOut found.1 job w = (.ok made, w')) :
    ∃ answer memory, c.attempt w = (.ok ⟨.ok answer, memory⟩, w') := by
  -- the body delivers what any engine of the session would have the benchmark do
  let e : Engine := ⟨found.2.session, .unset, [], .empty, .empty⟩
  have hd : c ≠ destroy h := by
    rintro rfl
    cases hj
  obtain ⟨method, hv, hbody⟩ := body_of_benchmark (e := e) hl hd hf rfl ha
  obtain ⟨results, hm⟩ := method_of_job hl hj ha hf rfl hv hw
  have hdeliver : Frame.deliver c method ⟨w, some e.session, c⟩ =
      (.ok (c.reply results).answer, ⟨w', some e.session, (c.reply results).memory⟩) := by
    rw [Frame.deliver, Act.bind_apply, Frame.onWorld_apply, hm]
    rfl
  exact ⟨_, _, attempt_of_body (hbody.trans hdeliver)⟩

/-- What comes of the call is what comes of the job. -/
theorem perform_of_job (hl : c.lead = some (.benchmark, h)) (hj : c.job? = some job)
    (ha : c.Agreed) (hf : Benchmark.Found w h found)
    (hw : found.2.carryOut found.1 job w = (.ok made, w')) :
    (Move.call c).perform w = (.ok (job.event w found.2 made), w') := by
  obtain ⟨answer, memory, hattempt⟩ := attempt_of_job hl hj ha hf hw
  have hin := jobIn_eq hl hj hf
  obtain ⟨h', a, made', hl', hf', hw', hmade⟩ := (served_of_attempt hattempt).works hin
  rw [hl] at hl'
  cases hl'
  have ha : found.1 = a := Pointer.cell.inj (hf.pointer.symm.trans hf'.pointer)
  rw [← ha, hw] at hw'
  cases hw'
  show (c.attempt >>= _) w = _
  rw [Act.bind_of_ok hattempt, ← hmade, ← event_of_job hin memory]
  rfl

end Call

namespace Host

/-! ### Moves that give jobs -/

/-- The move gives the benchmark behind `b` the job, through the engine of the session or as an
exported call with arguments as agreed. -/
inductive Gives (s : Host) (id : SessionId) (b : Handle) (job : Job) : Move → Prop where
  /-- The engine gives the job. -/
  | method {h : Handle} (held : (h, .engine id) ∈ s.ledger.held) :
    Gives s id b job (.method h (.give b job))
  /-- The call gives the job. -/
  | call {c : Call} (lead : c.lead = some (.benchmark, b)) (is : c.job? = some job)
    (agreed : c.Agreed) : Gives s id b job (.call c)

variable {s : Host} {m : Move} {ms : List Move} {id : SessionId} {b x : Handle} {job : Job}

/-- A benchmark that can do a job has it done by the move that gives it. -/
theorem Gives.perform {w' : World} {found : Nat × Benchmark} {made : List Handle}
    (hg : s.Gives id b job m) (hs : s.Reachable) (hf : Benchmark.Found s.world b found)
    (hid : found.2.session = id) (hw : found.2.carryOut found.1 job s.world = (.ok made, w')) :
    m.perform s.world = (.ok (job.event s.world found.2 made), w') := by
  cases hg with
  | @method h held =>
    obtain ⟨⟨a, e⟩, he, rfl⟩ := hs.agrees.backed.engine_found held
    show (Engine.resolve h >>= _) s.world = _
    rw [Act.bind_of_ok (Engine.resolve_eq_ok he)]
    have hjob : e.carryOut b job s.world = (.ok made, w') := by
      rw [Engine.carryOut_eq, Act.bind_of_ok (Engine.own_eq hf hid), hw]
    show (e.carryOut b job >>= _) s.world = _
    rw [Act.bind_of_ok hjob]
    simp only [id, hf.benchmark?]
    rfl
  | call lead is agreed => exact Call.perform_of_job lead is agreed hf hw

/-- The host after a move that brings an object, with the handle of the object. -/
def gets (s : Host) (m : Move) : Option (Host × Handle) :=
  match m.perform s.world with
  | (.ok event, w) => event.minted?.map (⟨w, s.ledger.enter event⟩, ·)
  | (.error _, _) => none

theorem gets_eq {event : Event} {w : World} {y : Handle} (hp : m.perform s.world = (.ok event, w))
    (hy : event.minted? = some y) : s.gets m = some (s.after m, y) := by
  rw [gets, after_of_ok hp, hp]
  simp [hy]

/-! ### Handles of carried samples -/

/-- The host holds a benchmark of the session that is a byte carrier. -/
structure HasCarrier (s : Host) (id : SessionId) (b : Handle) (config : CarrierConfig) :
    Prop where
  /-- It holds the benchmark. -/
  held : (b, .benchmark id) ∈ s.ledger.held
  /-- The benchmark is a byte carrier. -/
  is : s.world.benchmark? b = some ⟨id, .carrier config⟩

/-- The host holds a handle of the payload that a byte carrier has made of the samples. -/
structure Carrying (s : Host) (id : SessionId) (x : Handle) (packs : List Pack) : Prop where
  /-- A host could have come here. -/
  reachable : s.Reachable
  /-- The handle has the bit of a byte carrier. -/
  bit : x.tag.hasClass Carrier.dataBit = true
  /-- It is booked under a payload that was made of the samples. -/
  held : ∃ root, (x, .object id root) ∈ s.ledger.held ∧
    s.ledger.values[root]? = some ⟨.samples, packs⟩

/-- Every byte carrier of the session decodes the samples from the handle, through the engine and as
an exported call. -/
structure Delivers (s : Host) (id : SessionId) (x : Handle) (packs : List Pack) : Prop where
  /-- Through the engine. -/
  method : ∀ h e b config dest, s.Has h e → e.session = id → s.HasCarrier id b config →
    e.decode b x dest s.world = (.ok (Carrier.writeInto packs dest), s.world)
  /-- As an exported call, after which the host reads from its memory what an engine would have
  decoded, and everything else is as it was. -/
  call : ∀ b config memory, s.HasCarrier id b config → memory.Complete →
    ∃ filled, (Call.decode b x (some memory)).perform s.world =
        (.ok ⟨.code .success, .decode b x (some filled)⟩, s.world) ∧
      memory.TakesAll HostPack.Takes (Carrier.writeInto packs memory.contents) filled ∧
      filled.Complete ∧ filled.read = .ok (Carrier.writeInto packs memory.contents)

variable {config : CarrierConfig} {packs : List Pack}

theorem HasCarrier.found (hb : s.HasCarrier id b config) (hs : s.Reachable) :
    ∃ a, Benchmark.Found s.world b (a, ⟨id, .carrier config⟩) := by
  obtain ⟨⟨a, benchmark⟩, hf, -⟩ := hs.agrees.backed.benchmark_found hb.held
  obtain rfl : benchmark = ⟨id, .carrier config⟩ :=
    Option.some.inj (hf.benchmark?.symm.trans hb.is)
  exact ⟨a, hf⟩

/-- What is encoded is carried. -/
theorem HasCarrier.encode (hb : s.HasCarrier id b config) (hs : s.Reachable) (hm : s.Permits m)
    (hg : s.Gives id b (.encode packs) m) :
    ∃ t x, s.gets m = some (t, x) ∧ t.Carrying id x packs := by
  obtain ⟨a, hf⟩ := hb.found hs
  obtain ⟨x, w, hcreate, -, hcarries⟩ := Object.create_carries s.world id 0
    (show Carrier.dataBit.touchesReserved = false by decide) ⟨.samples, packs⟩
  have hp : m.perform s.world = (.ok (.created x id ⟨.samples, packs⟩), w) :=
    hg.perform hs hf rfl (Act.bind_of_ok hcreate)
  refine ⟨_, x, gets_eq hp rfl, hs.after hm, ?_, s.ledger.values.length, ?_, ?_⟩
  · rw [hcarries.tag]
    decide
  · rw [after_of_ok hp]
    exact List.mem_cons_self
  · rw [after_of_ok hp]
    exact List.getElem?_concat_length

/-- A step on a carried handle is taken, and the handle that comes of it is carried. -/
theorem Carrying.pass {step : Conveyance} (hc : s.Carrying id x packs)
    (hb : s.HasCarrier id b config) (ht : step.TakenBy config) (hm : s.Permits m)
    (hg : s.Gives id b (step.job x) m) : ∃ t y, s.gets m = some (t, y) ∧ t.Carrying id y packs := by
  obtain ⟨root, hx, hv⟩ := hc.held
  obtain ⟨a, hf⟩ := hb.found hc.reachable
  obtain ⟨found, ho, -⟩ := hc.reachable.agrees.backed.object_found hx
  obtain ⟨rest, hw⟩ := Carrier.carryOut_eq ho hc.bit step ht a
  have hp := hg.perform hc.reachable hf rfl hw
  rw [Carrier.event_job] at hp
  refine ⟨_, _, gets_eq hp rfl, hc.reachable.after hm, hc.bit, root, ?_, values_after hv⟩
  rw [after_of_ok hp, Ledger.enter, hc.reachable.agrees.backed.grant?_eq hx]
  exact List.mem_cons_self

/-- A handle that is held after a move is held as what it was. -/
theorem held_after {g g' : Grant} (hx : (x, g) ∈ s.ledger.held)
    (hx' : (x, g') ∈ (s.after m).ledger.held) : (x, g) ∈ (s.after m).ledger.held := by
  cases hp : m.perform s.world with
  | mk result w =>
    cases result with
    | error reason =>
      rw [after_of_error hp]
      exact hx
    | ok event =>
      rw [after_of_ok hp] at hx' ⊢
      refine Ledger.held_enter hx fun hreleased => ?_
      subst hreleased
      exact bne_iff_ne.1 (List.mem_filter.1 hx').2 rfl

/-- Whatever else happens, a handle that stays is carried on. -/
theorem Carrying.aside (hc : s.Carrying id x packs) (hm : s.Permits m)
    (hx : ∃ g, (x, g) ∈ (s.after m).ledger.held) : (s.after m).Carrying id x packs := by
  obtain ⟨root, hroot, hv⟩ := hc.held
  obtain ⟨g, hg⟩ := hx
  exact ⟨hc.reachable.after hm, hc.bit, root, held_after hroot hg, values_after hv⟩

/-- A carried handle decodes to the samples. -/
theorem Carrying.delivers (hc : s.Carrying id x packs) : s.Delivers id x packs := by
  obtain ⟨root, hx, hv⟩ := hc.held
  have hs := hc.reachable
  obtain ⟨found, ho, -⟩ := hs.agrees.backed.object_found hx
  have hcheck : x.checkObject Carrier.dataBit = .ok () :=
    Handle.checkObject_eq_ok.2 ⟨by decide, ho.tag, hc.bit⟩
  have hdecode : ∀ dest, Carrier.decode id x dest s.world =
      (.ok (Carrier.writeInto packs dest), s.world) := by
    intro dest
    obtain ⟨value, hv', hret⟩ := retrieve_of_held hs.agrees hx
    obtain rfl : value = ⟨.samples, packs⟩ := Option.some.inj (hv'.symm.trans hv)
    have hretrieve : Object.retrieve id x Carrier.dataBit .samples s.world =
        (.ok packs, s.world) := by
      rw [hret, hcheck]
      rfl
    exact Act.bind_of_ok hretrieve
  constructor
  case method =>
    intro h e b config dest _ hid hb
    obtain ⟨a, hf⟩ := hb.found hs
    exact (Act.bind_of_ok (Engine.own_eq hf hid.symm)).trans (hdecode dest)
  case call =>
    intro b config memory hb hmemory
    obtain ⟨a, hf⟩ := hb.found hs
    have hread := HostPacks.read_of_complete hmemory
    have hjob : (Call.decode b x (some memory)).job? = some (.decode x memory.contents) := by
      simp [Call.job?, hread, Except.toOption]
    obtain ⟨answer, after, hattempt⟩ := Call.attempt_of_job rfl hjob ⟨memory, rfl, hmemory⟩ hf
      (Act.bind_of_ok (hdecode memory.contents))
    have hreply := Call.perform_of_attempt hattempt
    cases Call.served_of_attempt hattempt with
    | decode finds reads works takes =>
      obtain rfl := Except.ok.inj (reads.symm.trans hread)
      have hfound := finds.benchmark?.symm.trans hf.benchmark?
      rw [Option.some.inj hfound] at works
      have hafter := congrArg Prod.fst (works.symm.trans (hdecode memory.contents))
      rw [Except.ok.inj hafter] at takes
      exact ⟨_, hreply, takes, HostPacks.read_of_takes hmemory takes⟩

/-! ### Routes -/

/-- A leg of the route that a payload takes. -/
inductive Leg where
  /-- A step passes the payload on to a new handle. -/
  | pass (m : Move)
  /-- The host does something else. -/
  | aside (m : Move)

/-- The host after a leg, with the newest handle of the payload. -/
def Leg.take (s : Host) (x : Handle) : Leg → Option (Host × Handle)
  | pass m => s.gets m
  | aside m => some (s.after m, x)

/-- The host can take the leg: it gives a byte carrier of the session a step with the newest handle,
or it does anything else and keeps that handle. -/
inductive Leg.Fits (s : Host) (id : SessionId) (x : Handle) : Leg → Prop where
  /-- It gives a step. -/
  | pass {m : Move} {b : Handle} {config : CarrierConfig} (step : Conveyance)
    (permits : s.Permits m) (carrier : s.HasCarrier id b config) (taken : step.TakenBy config)
    (gives : s.Gives id b (step.job x) m) : Fits s id x (.pass m)
  /-- It does anything else. -/
  | aside {m : Move} (permits : s.Permits m) (keeps : ∃ g, (x, g) ∈ (s.after m).ledger.held) :
    Fits s id x (.aside m)

/-- The host after all legs of a route, with the newest handle of the payload. -/
def route (s : Host) (x : Handle) : List Leg → Option (Host × Handle)
  | [] => some (s, x)
  | leg :: legs => (leg.take s x).bind fun (t, y) => t.route y legs

/-- The host can take each leg when it comes to it. -/
def Follows (s : Host) (id : SessionId) (x : Handle) : List Leg → Prop
  | [] => True
  | leg :: legs => leg.Fits s id x ∧ ∀ t y, leg.take s x = some (t, y) → t.Follows id y legs

theorem Follows.cons {leg : Leg} {legs : List Leg} {t : Host} {y : Handle}
    (hfits : leg.Fits s id x) (htake : leg.take s x = some (t, y)) (h : t.Follows id y legs) :
    s.Follows id x (leg :: legs) := by
  refine ⟨hfits, fun t' y' htake' => ?_⟩
  rw [htake] at htake'
  cases htake'
  exact h

/-- No leg fails, and the newest handle is carried after it. -/
theorem Carrying.take {leg : Leg} (hc : s.Carrying id x packs) (hfits : leg.Fits s id x) :
    ∃ t y, leg.take s x = some (t, y) ∧ t.Carrying id y packs := by
  cases hfits with
  | pass step permits carrier taken gives => exact hc.pass carrier taken permits gives
  | aside permits keeps => exact ⟨_, _, rfl, hc.aside permits keeps⟩

/-- No route fails, and the newest handle is carried at its end. -/
theorem Carrying.route {legs : List Leg} (hc : s.Carrying id x packs)
    (hfollows : s.Follows id x legs) :
    ∃ t y, s.route x legs = some (t, y) ∧ t.Carrying id y packs := by
  induction legs generalizing s x with
  | nil => exact ⟨s, x, rfl, hc⟩
  | cons leg legs ih =>
    obtain ⟨t, y, htake, ht⟩ := hc.take hfollows.1
    obtain ⟨t', y', hroute, ht'⟩ := ih ht (hfollows.2 t y htake)
    refine ⟨t', y', ?_, ht'⟩
    rw [Host.route, htake]
    exact hroute

/-- **Samples are transported unchanged.** Whatever samples a byte carrier encodes, no step on the
way fails on any instance, and at the end of every route each instance decodes from the newest
handle exactly what it would have decoded from the encoded one at once: to every destination the
samples in their order, as much of each as fits, and nothing else. -/
theorem Reachable.transports (hs : s.Reachable) (hb : s.HasCarrier id b config)
    (hm : s.Permits m) (hg : s.Gives id b (.encode packs) m) :
    ∃ t x, s.gets m = some (t, x) ∧ t.Delivers id x packs ∧
      (∀ legs, t.Follows id x legs →
        ∃ t' y, t.route x legs = some (t', y) ∧ t'.Delivers id y packs) ∧
      ∀ dest, Carrier.Written packs dest (Carrier.writeInto packs dest) := by
  obtain ⟨t, x, hgets, hc⟩ := hb.encode hs hm hg
  refine ⟨t, x, hgets, hc.delivers, fun legs hfollows => ?_, Carrier.written_writeInto packs⟩
  obtain ⟨t', y, hroute, hc'⟩ := hc.route hfollows
  exact ⟨t', y, hroute, hc'.delivers⟩

/-- Two packs at one position, with an empty buffer, and one at another. -/
def parcel : List Pack := [⟨5, [[1, 2, 3], []]⟩, ⟨5, [[9]]⟩, ⟨6, [[7]]⟩]

/-- The sample host encodes them. -/
def dispatch : Move := .method sampleEngine (.give sampleBenchmark (.encode parcel))

/-- An object of the sample host. -/
def parcelAt (address : Nat) : Handle := ⟨.cell address, 0, .object ||| Carrier.dataBit⟩

/-- Another instance of the sample host. -/
def relay : Handle := ⟨.cell 5, 0, .instanceBits⟩

/-- The sample host creates another instance, which encrypts what was encoded. The encoded handle
and the first instance are released before the other one stores the result. -/
def detour : List Leg :=
  [.aside (.method sampleEngine (.create (.descriptor 0) none)),
    .pass (.call (.encrypt relay (parcelAt 4) (some .null))),
    .aside (.call (.destroy (parcelAt 4))),
    .aside (.method sampleEngine (.destroyBenchmark sampleBenchmark)),
    .pass (.method sampleEngine (.give relay (.store (parcelAt 6) [.null, .null])))]

/-- The host once it has encoded them. -/
def dispatched : Host := sample.after dispatch

/-- A destination of other order and size, with a second pack at one position. -/
def shelf : HostPacks :=
  let pack position octets := HostPack.mk position (.ofList [.memory octets])
  .ofList [pack 6 [0xAA, 0xAA], pack 5 [0, 0, 0, 0], pack 5 [1]]

theorem follows_detour : dispatched.Follows 0 (parcelAt 4) detour := by
  -- one leg after the other, with the host that comes of it
  refine .cons (.aside (by decide) ⟨.object 0 1, by decide⟩) rfl ?_
  refine .cons (y := parcelAt 6) (.pass .encrypt (by decide) ⟨by decide, rfl⟩ trivial
    (.call rfl rfl rfl)) rfl ?_
  refine .cons (.aside (by decide) ⟨.object 0 1, by decide⟩) rfl ?_
  refine .cons (.aside (by decide) ⟨.object 0 1, by decide⟩) rfl ?_
  refine .cons (y := parcelAt 7) (.pass (.store .null [.null]) (by decide)
    ⟨by decide, rfl⟩ trivial (.method (by decide))) rfl ?_
  exact trivial

/-- The octets of the second pack have come over those of the first, as far as they reach. -/
theorem transports_parcel : sample.Reachable ∧
    sample.HasCarrier 0 sampleBenchmark (.named "mock") ∧ sample.Permits dispatch ∧
    sample.Gives 0 sampleBenchmark (.encode parcel) dispatch ∧
    dispatched.Follows 0 (parcelAt 4) detour ∧
    ∃ t y, dispatched.route (parcelAt 4) detour = some (t, y) ∧
      ∃ filled, (Call.decode relay y (some shelf)).perform t.world =
          (.ok ⟨.code .success, .decode relay y (some filled)⟩, t.world) ∧
        filled.read = .ok [⟨6, [[7, 0xAA]]⟩, ⟨5, [[9, 2, 3, 0]]⟩, ⟨5, [[1]]⟩] := by
  have hb : sample.HasCarrier 0 sampleBenchmark (.named "mock") :=
    ⟨by rw [held_sample]; simp, rfl⟩
  have hg : sample.Gives 0 sampleBenchmark (.encode parcel) dispatch :=
    .method (by rw [held_sample]; simp)
  have hm : sample.Permits dispatch := by decide
  refine ⟨reachable_sample, hb, hm, hg, follows_detour, ?_⟩
  obtain ⟨t, x, hgets, -, hroutes, -⟩ := reachable_sample.transports hb hm hg
  have hencoded : sample.gets dispatch = some (dispatched, parcelAt 4) := rfl
  cases hencoded.symm.trans hgets
  obtain ⟨t, y, hroute, hdelivers⟩ := hroutes detour follows_detour
  refine ⟨t, y, hroute, ?_⟩
  have hrelay : t.HasCarrier 0 relay (.named "mock") := by
    cases hroute
    exact ⟨by decide, rfl⟩
  have hshelf : shelf.Complete := ⟨by decide, by decide⟩
  obtain ⟨filled, hperform, -, -, hread⟩ := hdelivers.call relay _ shelf hrelay hshelf
  exact ⟨filled, hperform, hread⟩

end Host

end HandleBench
