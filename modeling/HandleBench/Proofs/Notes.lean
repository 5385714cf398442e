import HandleBench.Proofs.Origins
import HandleBench.Proofs.Stages

/-!
# Notes of a host

A host notes of each object that comes with a move which job it comes from, `Host.noted`. Objects
come of the jobs of benchmarks, `Move.perform_mints`, unless a backend makes them itself. In a
session of matrix products the notes therefore cover every object that the host holds: this is kept
by every move, `Host.Reachable.traced_after`, and so by every run, `Host.Reachable.traced_afterAll`.
-/

namespace HandleBench

/-! ### Moves that make objects -/

/-- Without a job no object comes of a call. -/
theorem Call.minted?_of_jobless {w : World} {c : Call} (hj : c.jobIn w = none) (memory : Call) :
    (c.event w memory).minted? = none := by
  unfold event
  split
  · exact Event.minted?_ofFirst fun _ => rfl
  · exact Event.minted?_ofDestroy _
  · rfl
  · split
    · exact Event.minted?_ofFirst fun _ => rfl
    · rfl
  · rw [hj]
    rfl

namespace Move

/-- The job that the move gives, with the benchmark that it gives it to. -/
def jobIn (w : World) : Move → Option (Benchmark × Job)
  | method _ (.give h job) => (w.benchmark? h).map (·, job)
  | call c => c.jobIn w
  | _ => none

/-- The session in which the move makes or shares a payload itself, as only a backend does. -/
def direct? : Move → Option SessionId
  | create id .. | duplicate id .. => some id
  | _ => none

/-- The move gives a benchmark a job, which is done and makes the handles. -/
structure Does (w w' : World) (m : Move) (b : Benchmark) (job : Job) (made : List Handle) :
    Prop where
  /-- It is the job that the move gives. -/
  gives : m.jobIn w = some (b, job)
  /-- The benchmark is there, and it has done the job. -/
  works : ∃ h a, Benchmark.Found w h (a, b) ∧ b.carryOut a job w = (.ok made, w')
  /-- It has done it on handles that the host passes. -/
  passes : ∀ x ∈ job.handles, x ∈ m.handles

/-- How a move makes an object. -/
inductive Mints (w w' : World) (m : Move) : Event → Prop where
  /-- It makes a payload itself. -/
  | made {id : SessionId} {h : Handle} {value : Payload} (direct : m.direct? = some id) :
    Mints w w' m (.created h id value)
  /-- It shares a payload itself. -/
  | shared {id : SessionId} {h source : Handle} (direct : m.direct? = some id)
    (own : w.Owned id source) : Mints w w' m (.shared h source)
  /-- It has a job done. -/
  | job {b : Benchmark} {job : Job} {made : List Handle} (does : m.Does w w' b job made) :
    Mints w w' m (job.event w b made)

variable {w : World}

theorem method_mints (w : World) (engine : Handle) (m : Method) :
    (method engine m).perform.Ends w
      (fun event w' => event.minted? ≠ none → (method engine m).Mints w w' event)
      fun _ _ => True := by
  refine Act.ends_bind.2 (Act.Ends.mono (Engine.resolve_atomic w engine) ?_ fun _ _ _ => trivial)
  rintro found w' ⟨rfl, -⟩
  cases m with
  | entries => exact fun hn => absurd rfl hn
  | destroyBenchmark h =>
    exact Act.ends_bind_of_last fun _ _ hn => absurd (Event.minted?_ofDestroy h) hn
  | destroy h =>
    exact Act.ends_bind_of_last fun _ _ hn => absurd (Event.minted?_ofDestroy h) hn
  | give h job =>
    refine Act.ends_bind_look ?_
    rw [Engine.carryOut_eq, Act.bind_bind]
    refine Engine.ends_own fun b hf _ => ?_
    refine Act.ends_bind.2 (Act.ends_of_forall (fun made w'' hw => ?_) fun _ _ _ => trivial)
    simp only [id, hf.benchmark?]
    refine fun _ => .job ⟨?_, ⟨h, b.1, hf, hw⟩, fun x hx => ?_⟩
    · rw [jobIn, hf.benchmark?]
      rfl
    · exact List.mem_cons_of_mem _ (List.mem_cons_of_mem _ hx)
  | _ => exact Act.ends_bind_of_last fun _ _ hn => absurd rfl hn

theorem call_mints (w : World) (c : Call) :
    (call c).perform.Ends w (fun event w' => event.minted? ≠ none → (call c).Mints w w' event)
      fun _ _ => True := by
  rcases perform_call w c with ⟨_, memory, w', ha, hp, -, -⟩ | ⟨_, -, hp⟩ | ⟨-, _, hp⟩
  · refine Act.ends_of_eq_ok hp fun hn => ?_
    cases hj : c.jobIn w with
    | none => exact absurd (Call.minted?_of_jobless hj memory) hn
    | some given =>
      obtain ⟨b, job⟩ := given
      obtain ⟨h, a, made, -, hf, hw, hm⟩ := (Call.served_of_attempt ha).works hj
      obtain rfl : memory.made = made := hm
      rw [Call.event_of_job hj memory]
      exact .job ⟨hj, ⟨h, a, hf, hw⟩, Call.handles_of_job (Call.job_of_jobIn hj)⟩
  · exact Act.ends_of_eq_error hp trivial
  · exact Act.ends_of_eq_error hp trivial

/-- Objects come of the jobs of benchmarks, or of what only a backend does. -/
theorem perform_mints (w : World) (m : Move) :
    m.perform.Ends w (fun event w' => event.minted? ≠ none → m.Mints w w' event)
      fun _ _ => True := by
  cases m with
  | create id size bits value => exact Act.ends_bind_of_last fun _ _ _ => .made rfl
  | duplicate id h bits required =>
    refine Act.ends_bind.2 (Act.Ends.mono (Object.duplicate_deeds w id h bits required) ?_
      fun _ _ _ => trivial)
    exact fun made w' hd _ => .shared rfl (hd.2 h List.mem_cons_self)
  | start | make =>
    exact Act.ends_bind_of_last fun _ _ => Act.ends_bind_of_last fun _ _ hn => absurd rfl hn
  | method engine m => exact method_mints w engine m
  | call c => exact call_mints w c
  | _ => exact Act.ends_bind_of_last fun _ _ hn => absurd rfl hn

end Move

/-! ### Sessions of matrix products -/

namespace World

variable {w w' : World} {id id' : SessionId} {p : Pointer} {b : Benchmark}

/-- Whatever runs or could run in the session is a matrix product. -/
structure ProductsOnly (w : World) (id : SessionId) : Prop where
  /-- The session is there. -/
  opened : id < w.sessions.size
  /-- Its engine offers nothing else. -/
  offered : ∀ p e, w.engine? p = some e → e.session = id →
    ∀ d ∈ e.catalog, d.backend = .matrixProduct
  /-- Its benchmarks are nothing else. -/
  running : ∀ p b, w.benchmarkAt p = some b → b.session = id → b.inst.backend = .matrixProduct

theorem ProductsOnly.instance_eq (hw : w.ProductsOnly id) (hb : w.benchmarkAt p = some b)
    (hs : b.session = id) : ∃ product, b = ⟨id, .product product⟩ := by
  have hr := hw.running p b hb hs
  obtain ⟨session, inst⟩ := b
  obtain rfl : session = id := hs
  cases inst with
  | product product => exact ⟨product, rfl⟩
  | carrier config => cases hr

/-- Deeds bring nothing else into the session. -/
theorem Deed.productsOnly (hd : w.Deed id' w') (hw : w.ProductsOnly id)
    (hsize : w.sessions.size ≤ w'.sessions.size) : w'.ProductsOnly id := by
  have offered : ∀ p e, w'.engine? p = some e → e.session = id →
      ∀ d ∈ e.catalog, d.backend = .matrixProduct := by
    intro p e he hs
    rcases hd.engine_new he with hold | ⟨hnew, -⟩
    · exact hw.offered p e hold hs
    · exact absurd (hs.symm.trans hnew) (Nat.ne_of_lt hw.opened)
  refine ⟨Nat.lt_of_lt_of_le hw.opened hsize, offered, ?_⟩
  intro p b hb hs
  rcases hd.benchmark_new hb with ⟨b', hb', hs', hr⟩ | ⟨p', e, he, hs', d, hmem, hr⟩
  · rw [hr]
    exact hw.running p b' hb' (hs'.trans hs)
  · rw [hr]
    exact hw.offered p' e he (hs'.trans hs) d hmem

end World

namespace Host

variable {s : Host} {m : Move} {ms : List Move} {id : SessionId} {h : Handle} {e : Engine}
  {notes : Notes}

/-- The session of an engine that offers only matrix products has nothing else. -/
theorem Reachable.productsOnly (hs : s.Reachable) (he : s.Has h e)
    (hc : ∀ d ∈ e.catalog, d.backend = .matrixProduct) : s.world.ProductsOnly e.session := by
  have hw := hs.catalogued
  refine ⟨hs.opened.of_engine he.2, ?_, ?_⟩
  · intro p e' he' hsame
    obtain rfl := hw.sole p h.pointer e' e he' he.2 hsame
    rw [he.2] at he'
    cases he'
    exact hc
  · intro p b hb hsame
    obtain ⟨d, hd, hr⟩ := hw.listed p h.pointer b e hb he.2 hsame
    rw [hr]
    exact hc d hd

theorem Reachable.productsOnly_after (hs : s.Reachable) (hm : s.Permits m)
    (hw : s.world.ProductsOnly id) : (s.after m).world.ProductsOnly id := by
  rcases hs.deed hm with hsame | ⟨id', -, hd⟩
  · rwa [hsame]
  · exact hd.productsOnly hw (hs.step hm).size

/-! ### Notes -/

/-- The host notes of the object that comes with a move which job it comes from. -/
def noted (s : Host) (notes : Notes) (m : Move) : Notes :=
  match m.perform s.world, m.jobIn s.world with
  | (.ok event, _), some (b, job) =>
    match event.minted? with
    | some h => Function.update notes h (job.origin b.inst notes)
    | none => notes
  | _, _ => notes

/-- What it has noted after some moves. -/
def notedAll (s : Host) (notes : Notes) : List Move → Notes
  | [] => notes
  | m :: ms => (s.after m).notedAll (s.noted notes m) ms

/-- All objects of the session are covered by the notes. -/
def Traced (s : Host) (id : SessionId) (notes : Notes) : Prop :=
  ∀ h root, (h, .object id root) ∈ s.ledger.held → notes.Cover s.world h

/-- The move is no act of a backend on objects of the session. -/
def Piped (id : SessionId) (m : Move) : Prop := m.direct? ≠ some id

instance (id : SessionId) (m : Move) : Decidable (Piped id m) :=
  inferInstanceAs (Decidable (m.direct? ≠ some id))

/-- What does not come with a move is noted as before. -/
theorem noted_of_ne {event : Event} {w : World} (hp : m.perform s.world = (.ok event, w))
    (hne : event.minted? ≠ some h) : s.noted notes m h = notes h := by
  unfold noted
  rw [hp]
  cases m.jobIn s.world with
  | none => rfl
  | some given =>
    cases hm : event.minted? with
    | none => simp only [hm]
    | some h' =>
      have hh : h ≠ h' := fun heq => hne (heq ▸ hm)
      simp only [hm]
      exact Function.update_of_ne hh _ _

theorem noted_of_job {event : Event} {w : World} {b : Benchmark} {job : Job}
    (hp : m.perform s.world = (.ok event, w)) (hj : m.jobIn s.world = some (b, job))
    (hm : event.minted? = some h) : s.noted notes m h = job.origin b.inst notes := by
  unfold noted
  rw [hp, hj]
  simp only [hm]
  exact Function.update_self ..

/-- The value behind the handle of an object is the one that was put in. -/
theorem Reachable.value?_eq {root : Nat} (hs : s.Reachable)
    (hm : (h, .object id root) ∈ s.ledger.held) : s.world.value? h = s.ledger.values[root]? := by
  obtain ⟨found, value, hf, hv, hp⟩ := payload_of_held hs.agrees hm
  rw [World.value?, hf.grant, hv]
  show Option.map _ (s.world.payload? _) = _
  rw [hp]
  rfl

/-! ### Every move keeps the notes -/

/-- The object that a job brings belongs to the session of the benchmark. -/
theorem session_of_job {w w' : World} {b : Benchmark} {job : Job} {made : List Handle} (x : Handle)
    (hd : m.Does w w' b job made)
    (he : (∃ value, job.event w b made = .created x id value) ∨
      ∃ source root, job.event w b made = .shared x source ∧
        w.grantAt source.pointer = some (.object id root)) : b.session = id := by
  obtain ⟨y, a, hf, hw⟩ := hd.works
  have howned := ((Benchmark.carryOut_deeds hf job).of_ok hw).2
  rcases (Benchmark.carryOut_makes w a b job).of_ok hw with
    ⟨-, hn⟩ | ⟨x', rest, rfl, ⟨value', hn⟩ | ⟨source', hmem, hn⟩⟩
  · rw [hn] at he
    rcases he with ⟨_, he⟩ | ⟨_, _, he, -⟩ <;> cases he
  · rw [hn] at he
    rcases he with ⟨_, he⟩ | ⟨_, _, he, -⟩ <;> cases he
    rfl
  · rw [hn] at he
    rcases he with ⟨_, he⟩ | ⟨source, root, he, hg⟩ <;> cases he
    obtain ⟨g, hg', hs⟩ := howned source' hmem
    rw [hg] at hg'
    cases hg'
    exact hs.symm

/-- An object that comes into the session with a move of a host comes of a job there. -/
theorem job_of_new {event : Event} {w : World} {x : Handle} {root : Nat}
    (ha : s.ledger.Agrees s.world) (hp : m.perform s.world = (.ok event, w)) (hpiped : Piped id m)
    (hnew : (∃ value, event = .created x id value) ∨
      ∃ source, event = .shared x source ∧ (source, .object id root) ∈ s.ledger.held) :
    ∃ b job made, m.Does s.world w b job made ∧ event = job.event s.world b made ∧
      b.session = id := by
  have leads : ∀ source, (source, .object id root) ∈ s.ledger.held →
      s.world.grantAt source.pointer = some (.object id root) := fun source => ha.backed.leads _
  have hminted : event.minted? ≠ none := by
    rcases hnew with ⟨_, rfl⟩ | ⟨_, rfl, -⟩ <;> simp [Event.minted?]
  cases (m.perform_mints s.world).of_ok hp hminted with
  | made direct =>
    rcases hnew with ⟨_, he⟩ | ⟨_, he, -⟩ <;> cases he
    exact absurd direct hpiped
  | shared direct own =>
    rcases hnew with ⟨_, he⟩ | ⟨_, he, hsource⟩ <;> cases he
    obtain ⟨g, hg, hsame⟩ := own
    rw [leads _ hsource] at hg
    cases hg
    exact absurd (direct.trans (congrArg some hsame.symm)) hpiped
  | job does =>
    refine ⟨_, _, _, does, rfl, session_of_job x does (hnew.imp_right ?_)⟩
    exact fun ⟨source, he, hsource⟩ => ⟨source, root, he, leads source hsource⟩

/-- In a session of matrix products it has an origin. -/
theorem Reachable.stands_of_job {w : World} {x : Handle} {b : Benchmark} {job : Job}
    {made : List Handle} (hs : s.Reachable) (hm : s.Permits m) (hw : s.world.ProductsOnly id)
    (ht : s.Traced id notes) (hp : m.perform s.world = (.ok (job.event s.world b made), w))
    (hd : m.Does s.world w b job made) (hsession : b.session = id)
    (hx : (job.event s.world b made).minted? = some x) :
    ∃ o value, s.noted notes m x = some o ∧ o.Stands x value ∧
      (job.event s.world b made = .created x id value ∨
        ∃ source, job.event s.world b made = .shared x source ∧
          s.world.value? source = some value) := by
  obtain ⟨y, a, hf, hdone⟩ := hd.works
  obtain ⟨p, rfl⟩ := hw.instance_eq (World.benchmarkAt_of_cell hf.cell) hsession
  have covered : ∀ z ∈ job.asks (.product p), notes.Cover s.world z := by
    intro z hz
    obtain ⟨g, hg, hgs⟩ := ((Benchmark.carryOut_deeds hf job).of_ok hdone).2 z hz
    obtain ⟨g', hg', hk⟩ := (((Benchmark.carryOut_atomic hf job).of_ok hdone).2 z hz).2 (by simp)
    rw [hg] at hg'
    cases hg'
    have hknown := hm z (hd.passes z (job.handles_of_asks _ z hz))
    have hheld := hs.agrees.backed.held_of_leads hknown hg
    cases g with
    | object session root =>
      obtain rfl : session = id := hgs
      exact ht z root hheld
    | _ => cases hk
  have yields := (Product.carryOut_yields s.world a p id job covered).of_ok hdone
  rcases (Benchmark.carryOut_makes s.world a _ job).of_ok hdone with ⟨-, hn⟩ | ⟨x', rest, rfl, -⟩
  · rw [hn] at hx
    cases hx
  · obtain ⟨o, value, ho, hst, he⟩ := yields x' rest rfl
    obtain rfl : x' = x := by
      rcases he with he | ⟨_, he, -⟩ <;> rw [he] at hx <;> exact Option.some.inj hx
    exact ⟨o, value, (noted_of_job hp hd.gives hx).trans ho, hst, he⟩

/-- What was put in before a move is as it was. -/
theorem values_after {root : Nat} {value : Payload} (hv : s.ledger.values[root]? = some value) :
    (s.after m).ledger.values[root]? = some value := by
  cases hp : m.perform s.world with
  | mk result w =>
    cases result with
    | error reason => rwa [after_of_error hp]
    | ok event =>
      rw [after_of_ok hp]
      obtain ⟨hlt, rfl⟩ := List.getElem?_eq_some_iff.1 hv
      exact List.prefix_iff_getElem?.1 (s.ledger.values_enter event) root hlt

/-- An object that was there before a move is covered as before. -/
theorem Reachable.cover_kept {x : Handle} {root : Nat} (hs : s.Reachable) (hm : s.Permits m)
    (ht : s.Traced id notes) (hold : (x, .object id root) ∈ s.ledger.held)
    (hx : (x, .object id root) ∈ (s.after m).ledger.held) :
    (s.noted notes m).Cover (s.after m).world x := by
  obtain ⟨o, value, ho, hv, hst⟩ := ht x root hold
  refine ⟨o, value, ?_, ?_, hst⟩
  · cases hp : m.perform s.world with
    | mk result w =>
      cases result with
      | error reason =>
        rw [noted, hp]
        exact ho
      | ok event =>
        have hchange := ((m.perform_ends s.world).of_ok hp).1
        rw [noted_of_ne hp (hs.agrees.backed.ne_minted hold hchange)]
        exact ho
  · rw [hs.value?_eq hold] at hv
    rw [(hs.after hm).value?_eq hx]
    exact values_after hv

/-- An object that was not there before a move is covered by what is noted of the move. -/
theorem Reachable.cover_new {x : Handle} {root : Nat} (hs : s.Reachable) (hm : s.Permits m)
    (hw : s.world.ProductsOnly id) (hpiped : Piped id m) (ht : s.Traced id notes)
    (hold : (x, .object id root) ∉ s.ledger.held)
    (hx : (x, .object id root) ∈ (s.after m).ledger.held) :
    (s.noted notes m).Cover (s.after m).world x := by
  rw [Notes.Cover, (hs.after hm).value?_eq hx]
  have kept : ∀ value, s.ledger.values[root]? = some value →
      (s.after m).ledger.values[root]? = some value := fun _ => values_after
  cases hp : m.perform s.world with
  | mk result w =>
    cases result with
    | error reason =>
      rw [after_of_error hp] at hx
      exact absurd hx hold
    | ok event =>
      rw [after_of_ok hp] at hx kept ⊢
      have hnew := (Ledger.object_of_enter hx).resolve_left hold
      have hminted : event.minted? = some x := by
        rcases hnew with ⟨_, rfl, -⟩ | ⟨_, rfl, -⟩ <;> rfl
      obtain ⟨b, job, made, does, rfl, hsession⟩ := job_of_new hs.agrees hp hpiped
        (hnew.imp_left fun ⟨value, he, _⟩ => ⟨value, he⟩)
      obtain ⟨o, value, ho, hst, he⟩ := hs.stands_of_job hm hw ht hp does hsession hminted
      refine ⟨o, value, ho, ?_, hst⟩
      rcases hnew with ⟨value', he', rfl⟩ | ⟨source, he', hsource⟩
      · rw [he'] at he ⊢
        rcases he with he | ⟨_, he, -⟩ <;> cases he
        exact List.getElem?_concat_length
      · rw [he'] at he
        rcases he with he | ⟨_, he, hv⟩ <;> cases he
        rw [hs.value?_eq hsource] at hv
        exact kept value hv

/-- **Every move keeps the notes.** -/
theorem Reachable.traced_after (hs : s.Reachable) (hm : s.Permits m)
    (hw : s.world.ProductsOnly id) (hpiped : Piped id m) (ht : s.Traced id notes) :
    (s.after m).Traced id (s.noted notes m) := by
  intro x root hx
  by_cases hold : (x, .object id root) ∈ s.ledger.held
  · exact hs.cover_kept hm ht hold hx
  · exact hs.cover_new hm hw hpiped ht hold hx

/-- So does every run. -/
theorem Reachable.traced_afterAll (hs : s.Reachable) (hp : s.PermitsAll ms)
    (hpiped : ∀ m ∈ ms, Piped id m) (hw : s.world.ProductsOnly id) (ht : s.Traced id notes) :
    (s.afterAll ms).world.ProductsOnly id ∧ (s.afterAll ms).Traced id (s.notedAll notes ms) := by
  induction ms generalizing s notes with
  | nil => exact ⟨hw, ht⟩
  | cons m ms ih =>
    obtain ⟨hm, hms⟩ := List.forall_mem_cons.1 hpiped
    exact ih (hs.after hp.1) hp.2 hms (hs.productsOnly_after hp.1 hw)
      (hs.traced_after hp.1 hw hm ht)

end Host

end HandleBench
