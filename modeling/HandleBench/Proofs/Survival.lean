import HandleBench.Proofs.Lockstep
import HandleBench.Proofs.Sharing
import HandleBench.Proofs.Runs

/-!
# What outlives an engine

Benchmarks and objects do not need the engine that they come from. Releasing an engine before some
calls or after them comes to the same, as long as the calls are not given its handle: all calls
return the same and write the same to the host memory, and in the end the host has the same world
and the same books, `Host.Reachable.engine_outlived`.
-/

namespace HandleBench

/-! ### Calls in lockstep -/

namespace World.Lacks

variable {a : Nat} {w w' : World} {p : Pointer} {h : Handle}

theorem grantAt_eq (hr : Lacks a w w') (hp : p ≠ .cell a) : w'.grantAt p = w.grantAt p := by
  obtain ⟨ha, rfl⟩ := hr
  rw [grantAt_set rfl ha, if_neg hp]

theorem payload?_eq (hr : Lacks a w w') : w'.payload? = w.payload? := by
  rw [hr.eq]
  rfl

theorem value?_eq (hr : Lacks a w w') (hh : h.Avoids a) : w'.value? h = w.value? h := by
  rw [value?, value?, hr.grantAt_eq hh, hr.payload?_eq]

theorem sessionOf_eq (hr : Lacks a w w') (hh : h.Avoids a) (k : Kind) :
    w'.sessionOf k h = w.sessionOf k h := by
  rw [sessionOf, sessionOf, hr.grantAt_eq hh]

theorem benchmark?_eq (hr : Lacks a w w') (hh : h.Avoids a) : w'.benchmark? h = w.benchmark? h := by
  obtain ⟨-, rfl⟩ := hr
  unfold benchmark?
  split
  · rfl
  · next b hp => rw [cell?_clear fun hb => hh (hp.trans (by rw [hb]))]

end World.Lacks

/-- Only the values of the handles that a job is given matter for what it does to them. -/
theorem Job.event_congr {w w' : World} {job : Job}
    (hv : ∀ x ∈ job.handles, w'.value? x = w.value? x)
    (b : Benchmark) (made : List Handle) : job.event w' b made = job.event w b made := by
  cases job with
  | operate loaded selections => rw [event, event, hv loaded List.mem_cons_self]
  | load sources => cases sources <;> rfl
  | _ => rfl

namespace Call

variable {a : Nat} {c : Call}

theorem jobIn_lacks {w w' : World} (hr : World.Lacks a w w') (hc : ∀ x ∈ c.handles, x.Avoids a) :
    c.jobIn w' = c.jobIn w := by
  unfold jobIn
  cases hl : c.lead with
  | none => rfl
  | some found =>
    have hsame := hr.benchmark?_eq (hc _ (lead_mem hl))
    simp only [Option.bind_eq_bind, Option.bind_some, hsame]

/-- A call does the same to the handles of the host. -/
theorem event_lacks {w w' : World} (hr : World.Lacks a w w') (hc : ∀ x ∈ c.handles, x.Avoids a)
    (memory : Call) : c.event w' memory = c.event w memory := by
  unfold event
  split
  · rw [hr.eq]
    rfl
  · rfl
  · rfl
  · next engine _ _ _ =>
    rw [hr.sessionOf_eq (hc engine (lead_mem rfl))]
  · rw [jobIn_lacks hr hc]
    split
    · next b job hj =>
      refine Job.event_congr (fun x hx => hr.value?_eq ?_) b _
      exact hc x (handles_of_job (job_of_jobIn hj) x hx)
    · rfl

theorem attempt_lockstep (c : Call) (hc : ∀ x ∈ c.handles, x.Avoids a) :
    c.attempt.Lockstep (World.Lacks a) fun _ => True := by
  intro w w' hr
  have hstart : Frame.Lacks a ⟨w, none, c⟩ ⟨w', none, c⟩ := ⟨hr.here, by rw [hr.eq]⟩
  obtain ⟨result, ⟨v, session, memory⟩, _, hb, hb', ⟨hhere, rfl⟩, -⟩ :=
    body_lockstep c hc _ _ hstart
  have hv : World.Lacks a v (v.clear a) := ⟨hhere, rfl⟩
  have blamed : ∀ failure, World.Lacks a (Frame.blame ⟨v, session, memory⟩ failure)
      (Frame.blame ⟨v.clear a, session, memory⟩ failure) := by
    intro failure
    cases session with
    | none => exact hv
    | some id => exact hv.changeSession id _
  unfold attempt
  rw [hb, hb']
  cases result with
  | ok answer => exact ⟨_, _, _, rfl, rfl, hv, fun _ _ => trivial⟩
  | error reason =>
    cases reason with
    | refused failure => exact ⟨_, _, _, rfl, rfl, blamed failure, fun _ _ => trivial⟩
    | panicked message =>
      exact ⟨_, _, _, rfl, rfl, blamed (.panicked c.name message), fun _ _ => trivial⟩
    | released => exact ⟨_, _, _, rfl, rfl, hv, fun _ _ => trivial⟩
    | misread => exact ⟨_, _, _, rfl, rfl, hv, fun _ _ => trivial⟩

theorem perform_lockstep (c : Call) (hc : ∀ x ∈ c.handles, x.Avoids a) :
    c.perform.Lockstep (World.Lacks a) fun _ => True :=
  .bind (c.attempt_lockstep hc) fun _ _ => .pure trivial

/-- So is the call as a move of a host. -/
theorem move_lockstep (c : Call) (hc : ∀ x ∈ c.handles, x.Avoids a) :
    (Move.call c).perform.Lockstep (World.Lacks a) fun _ => True := by
  intro w w' hr
  obtain ⟨result, v, v', hv, hv', hlacks, -⟩ := c.attempt_lockstep hc w w' hr
  cases result with
  | error reason =>
    refine ⟨.error reason, v, v', ?_, ?_, hlacks, fun _ _ => trivial⟩
    · show (c.attempt >>= _) w = _
      rw [Act.bind_apply, hv]
    · show (c.attempt >>= _) w' = _
      rw [Act.bind_apply, hv']
  | ok ending =>
    obtain ⟨outcome, memory⟩ := ending
    cases outcome with
    | ok answer =>
      refine ⟨.ok (c.event w memory), v, v', ?_, ?_, hlacks, fun _ _ => trivial⟩
      · show (c.attempt >>= _) w = _
        rw [Act.bind_apply, hv]
        rfl
      · show (c.attempt >>= _) w' = _
        rw [Act.bind_apply, hv', ← event_lacks hr hc]
        rfl
    | error failure =>
      refine ⟨.error (.refused failure), v, v', ?_, ?_, hlacks, fun _ _ => trivial⟩
      · show (c.attempt >>= _) w = _
        rw [Act.bind_apply, hv]
        rfl
      · show (c.attempt >>= _) w' = _
        rw [Act.bind_apply, hv']
        rfl

end Call

/-! ### Books without a handle -/

namespace Ledger

variable {l : Ledger} {w w' : World} {h x : Handle} {g : Grant} {event : Event}

/-- What else is booked is found without the handle. -/
theorem grant?_lose (l : Ledger) (hx : x ≠ h) : (l.lose h).grant? x = l.grant? x := by
  show (l.held.filter fun y => y.1 != h).lookup x = l.held.lookup x
  induction l.held with
  | nil => rfl
  | cons y ys ih =>
    obtain ⟨y, g⟩ := y
    by_cases hy : y = h
    · have hbeq : (x == y) = false := beq_eq_false_iff_ne.2 fun hxy => hx (hxy.trans hy)
      rw [List.filter_cons_of_neg (by simpa using hy), ih, List.lookup_cons, hbeq]
    · rw [List.filter_cons_of_pos (by simpa using hy), List.lookup_cons, List.lookup_cons, ih]

theorem lose_gain (l : Ledger) (hx : x ≠ h) (g : Grant) :
    (l.gain x g).lose h = (l.lose h).gain x g := by
  have hheld : ((x, g) :: l.held).filter (·.1 != h) = (x, g) :: l.held.filter (·.1 != h) :=
    List.filter_cons_of_pos (by simpa using hx)
  rw [gain, gain, lose, lose, hheld]

theorem lose_comm (l : Ledger) (x h : Handle) : (l.lose x).lose h = (l.lose h).lose x := by
  simp only [lose, List.filter_filter, Bool.and_comm]

/-- An event is booked the same without a handle that it does not touch. -/
theorem Backed.lose_enter (hb : l.Backed w) (hm : (h, g) ∈ l.held) (hc : w.Change w' event)
    (hgiven : ∀ x ∈ event.given, x ≠ h) : (l.enter event).lose h = (l.lose h).enter event := by
  -- what is new leads where nothing was, so it is another handle
  have fresh : ∀ {y : Handle} {g' : Grant}, w.Gains w' y g' → y ≠ h := by
    rintro y g' hg rfl
    have hl := hb.leads _ hm
    rw [hg.fresh] at hl
    cases hl
  cases hc with
  | nothing | passed | entries => rfl
  | engine tag gains => exact l.lose_gain (fresh gains) _
  | benchmark tag gains => exact l.lose_gain (fresh gains) _
  | @created y session value tag gains =>
    have hgain := l.lose_gain (fresh gains) (.object session l.values.length)
    exact congrArg (fun l' : Ledger => { l' with values := l.values ++ [value] }) hgain
  | @shared y source session root held tag gains =>
    rw [enter, enter, l.grant?_lose (hgiven source List.mem_cons_self)]
    split
    · exact l.lose_gain (fresh gains) _
    · rfl
  | @released y => exact l.lose_comm y h

end Ledger

namespace Host

variable {s : Host} {h : Handle} {id : SessionId} {c : Call} {cs : List Call}

/-! ### Without an engine -/

/-- The host after it has released a handle. -/
def without (s : Host) (h : Handle) : Host := s.after (.call (.destroy h))

/-- Releasing an engine leaves everything else in its place. -/
theorem Reachable.without_engine (hs : s.Reachable) (he : (h, .engine id) ∈ s.ledger.held) :
    ∃ a, h.pointer = .cell a ∧ a < s.world.cells.size ∧
      s.without h = ⟨s.world.clear a, s.ledger.lose h⟩ ∧
        (Call.destroy h).perform s.world =
          (.ok ⟨.code .success, .destroy h⟩, s.world.clear a) := by
  obtain ⟨⟨a, e⟩, hf, -⟩ := hs.agrees.backed.engine_found he
  have hdestroy := Call.destroy_engine hf
  have hp : (Move.call (.destroy h)).perform s.world =
      (.ok (.released h), s.world.clear a) := by
    have hevent : (Call.destroy h).event s.world (.destroy h) = .released h :=
      Event.ofDestroy_claims hf.not_null hf.tag (by simp)
    show (Call.attempt (.destroy h) >>= _) s.world = _
    rw [Act.bind_of_ok hdestroy, ← hevent]
    rfl
  exact ⟨a, hf.pointer, (Array.getElem?_eq_some_iff.1 hf.cell).1, after_of_ok hp,
    Call.perform_of_attempt hdestroy⟩

/-- Whatever the host knows but the engine itself does not lead there. -/
theorem Reachable.avoids (hs : s.Reachable) (he : (h, .engine id) ∈ s.ledger.held) {a : Nat}
    (ha : h.pointer = .cell a) {x : Handle} (hk : s.ledger.Knows x) (hx : x ≠ h) : x.Avoids a := by
  intro hp
  have hb := hs.agrees.backed
  have hleads : s.world.grantAt x.pointer = some (.engine id) := by
    rw [hp, ← ha, hb.leads _ he]
  exact hx (congrArg Prod.fst (hb.unique (hb.held_of_leads hk hleads) he (hp.trans ha.symm)))

/-- **Releasing an engine commutes with a call that is not given its handle.** -/
theorem Reachable.without_comm (hs : s.Reachable) (he : (h, .engine id) ∈ s.ledger.held)
    (hm : s.Permits (.call c)) (hfree : h ∉ c.handles) :
    (h, .engine id) ∈ (s.after (.call c)).ledger.held ∧ (s.without h).Permits (.call c) ∧
      (c.perform (s.without h).world).1 = (c.perform s.world).1 ∧
      (s.without h).after (.call c) = (s.after (.call c)).without h := by
  obtain ⟨a, ha, hhere, hwithout, -⟩ := hs.without_engine he
  have hother : ∀ x ∈ c.handles, x ≠ h := fun x hx hxh => hfree (hxh ▸ hx)
  have havoids : ∀ x ∈ c.handles, x.Avoids a := fun x hx => hs.avoids he ha (hm x hx) (hother x hx)
  have hlacks : World.Lacks a s.world (s.world.clear a) := ⟨hhere, rfl⟩
  obtain ⟨result, w, _, hp, hp', ⟨-, rfl⟩, -⟩ := c.move_lockstep havoids _ _ hlacks
  obtain ⟨reply, v, v', hv, hv', -, -⟩ := c.perform_lockstep havoids _ _ hlacks
  -- after the call the engine is where it was
  have last : ∀ {l : Ledger}, s.after (.call c) = ⟨w, l⟩ → (h, .engine id) ∈ l.held →
      (s.after (.call c)).without h = ⟨w.clear a, l.lose h⟩ := by
    intro l hafter hkept
    have hr := hs.after hm
    rw [hafter] at hr ⊢
    obtain ⟨a', ha', -, hwithout', -⟩ := hr.without_engine hkept
    obtain rfl : a = a' := Pointer.cell.inj (ha.symm.trans ha')
    exact hwithout'
  have permits : (s.without h).Permits (.call c) := by
    intro x hx
    rw [hwithout]
    rcases hm x hx with hn | hk | ⟨g, hg⟩
    · exact .inl hn
    · exact .inr (.inl hk)
    · exact .inr (.inr ⟨g, List.mem_filter.2 ⟨hg, by simpa using hother x hx⟩⟩)
  have replies : (c.perform (s.without h).world).1 = (c.perform s.world).1 := by
    rw [hwithout, hv, hv']
  cases result with
  | ok event =>
    have hgiven : ∀ x ∈ event.given, x ≠ h := fun x hx =>
      hother x ((Move.perform_given s.world (.call c)).of_ok hp x hx)
    have hchange := ((Move.perform_ends s.world (.call c)).of_ok hp).1
    have hafter := after_of_ok hp
    have hkept : (h, .engine id) ∈ (s.ledger.enter event).held := by
      refine Ledger.held_enter he fun hreleased => ?_
      subst hreleased
      exact hgiven h List.mem_cons_self rfl
    refine ⟨by rwa [hafter], permits, replies, ?_⟩
    rw [last hafter hkept, hs.agrees.backed.lose_enter he hchange hgiven, hwithout]
    exact after_of_ok hp'
  | error reason =>
    have hafter := after_of_error hp
    refine ⟨by rwa [hafter], permits, replies, ?_⟩
    rw [last hafter he, hwithout]
    exact after_of_error hp'

/-! ### Runs without an engine -/

/-- The host after some calls, one after the other. -/
def afterCalls (s : Host) (cs : List Call) : Host := s.afterAll (cs.map .call)

/-- What the host gets of some calls, one after the other. -/
def replies (s : Host) : List Call → List (Except Stop Reply)
  | [] => []
  | c :: cs => (c.perform s.world).1 :: (s.after (.call c)).replies cs

/-- The host `t` has everything that `s` has but a handle, and sees no difference. -/
structure Outlives (s : Host) (h : Handle) (t : Host) : Prop where
  /-- It holds all other handles. -/
  held : ∀ x g, x ≠ h → ((x, g) ∈ t.ledger.held ↔ (x, g) ∈ s.ledger.held)
  /-- Every session has as many live benchmarks. -/
  live : t.world.live = s.world.live
  /-- Every session has the same last failure. -/
  lastError : t.world.lastError = s.world.lastError
  /-- The library counts as many holders of each object. -/
  holders : ∀ x session root, (x, .object session root) ∈ s.ledger.held →
    (Object.holders session x t.world).1 = (Object.holders session x s.world).1

theorem Reachable.outlives_without (hs : s.Reachable) (he : (h, .engine id) ∈ s.ledger.held) :
    s.Outlives h (s.without h) := by
  obtain ⟨a, ha, hhere, hwithout, -⟩ := hs.without_engine he
  rw [hwithout]
  refine ⟨fun x g hx => ?_, rfl, rfl, fun x session root hx => ?_⟩
  · show (x, g) ∈ s.ledger.held.filter (·.1 != h) ↔ _
    simp [List.mem_filter, hx]
  · have hne : x ≠ h := by
      rintro rfl
      cases hs.agrees.backed.unique hx he rfl
    have havoids := hs.avoids he ha (.inr (.inr ⟨_, hx⟩)) hne
    obtain ⟨result, w, w', hw, hw', -, -⟩ :=
      Object.holders_lockstep (World.lacks_showsObjects a) session havoids _ _ ⟨hhere, rfl⟩
    rw [hw, hw']

theorem PermitsAll.take {ms : List Move} (hp : s.PermitsAll ms) (n : Nat) :
    s.PermitsAll (ms.take n) := by
  induction ms generalizing s n with
  | nil => rwa [List.take_nil]
  | cons m ms ih =>
    cases n with
    | zero => exact trivial
    | succ n => exact ⟨hp.1, ih hp.2 n⟩

/-- Every call that a host may make is answered. -/
theorem Reachable.answered (hs : s.Reachable) (hp : s.PermitsAll (cs.map .call)) :
    ∀ r ∈ s.replies cs, ∃ reply, r = .ok reply := by
  induction cs generalizing s with
  | nil => simp [replies]
  | cons c cs ih =>
    refine List.forall_mem_cons.2 ⟨?_, ih (hs.after hp.1) hp.2⟩
    rcases c.attempt_cases s.world with ⟨_, _, _, ha, -⟩ | ⟨_, ha⟩ | ⟨ht, -⟩
    · exact ⟨_, congrArg Prod.fst (Call.perform_of_attempt ha)⟩
    · exact ⟨_, congrArg Prod.fst (Call.perform_of_attempt ha)⟩
    · exact absurd (hs.honest hp.1) ht

/-- Releasing an engine commutes with calls one after the other. -/
theorem Reachable.without_commAll (hs : s.Reachable) (he : (h, .engine id) ∈ s.ledger.held)
    (hp : s.PermitsAll (cs.map .call)) (hfree : ∀ c ∈ cs, h ∉ c.handles) :
    (h, .engine id) ∈ (s.afterCalls cs).ledger.held ∧
      (s.without h).PermitsAll (cs.map .call) ∧ (s.without h).replies cs = s.replies cs ∧
      (s.without h).afterCalls cs = (s.afterCalls cs).without h := by
  induction cs generalizing s with
  | nil => exact ⟨he, trivial, rfl, rfl⟩
  | cons c cs ih =>
    obtain ⟨hc, hcs⟩ := List.forall_mem_cons.1 hfree
    obtain ⟨hkept, hpermits, hreply, hcomm⟩ := hs.without_comm he hp.1 hc
    obtain ⟨hend, hpermitsAll, hreplies, hcommAll⟩ := ih (hs.after hp.1) hkept hp.2 hcs
    rw [← hcomm] at hpermitsAll hreplies hcommAll
    exact ⟨hend, ⟨hpermits, hpermitsAll⟩, by rw [replies, replies, hreply, hreplies], hcommAll⟩

/-- **Benchmarks and objects outlive their engine.** A host has an engine and makes calls, any at
all that are not given the handle of the engine. If it releases the engine first, which succeeds, it
may make the same calls and gets the same answer and the same host memory from each of them. At no
point does it see a difference in counts of live benchmarks, in counts of holders or in last
failures; releasing the engine only then would have come to the same. -/
theorem Reachable.engine_outlived (hs : s.Reachable) (he : (h, .engine id) ∈ s.ledger.held)
    (hp : s.PermitsAll (cs.map .call)) (hfree : ∀ c ∈ cs, h ∉ c.handles) :
    (Call.destroy h).perform s.world =
        (.ok ⟨.code .success, .destroy h⟩, (s.without h).world) ∧
      (s.without h).PermitsAll (cs.map .call) ∧
      (s.without h).replies cs = s.replies cs ∧ (∀ r ∈ s.replies cs, ∃ reply, r = .ok reply) ∧
      ∀ n, (s.without h).afterCalls (cs.take n) = (s.afterCalls (cs.take n)).without h ∧
        (s.afterCalls (cs.take n)).Outlives h ((s.without h).afterCalls (cs.take n)) := by
  obtain ⟨a, -, -, hwithout, hdestroy⟩ := hs.without_engine he
  obtain ⟨-, hpermits, hreplies, -⟩ := hs.without_commAll he hp hfree
  refine ⟨by rw [hdestroy, hwithout], hpermits, hreplies, hs.answered hp, fun n => ?_⟩
  have hpn : s.PermitsAll ((cs.take n).map .call) := by
    rw [List.map_take]
    exact hp.take n
  obtain ⟨hend, -, -, hcomm⟩ :=
    hs.without_commAll he hpn fun c hc => hfree c (List.mem_of_mem_take hc)
  refine ⟨hcomm, ?_⟩
  rw [hcomm]
  exact (hs.afterAll hpn).outlives_without hend

/-- The sample host decrypts what it has encrypted, releases what it has encoded, decodes, and
releases the benchmark before the data that is left. -/
def aftermath : List Call :=
  [.decrypt sampleBenchmark sampleEncrypted (some .null), .destroy sampleEncoded,
    .decode sampleBenchmark ⟨.cell 4, 0, sampleEncrypted.tag⟩ (some (.ofList [])),
    .destroy sampleBenchmark, .destroy sampleEncrypted]

/-- All of that goes as well without its engine, and two handles hold the payload before the
benchmark is released. -/
theorem engine_outlived_sample : sample.Reachable ∧
    (sampleEngine, .engine 0) ∈ sample.ledger.held ∧
    sample.PermitsAll (aftermath.map .call) ∧ (∀ c ∈ aftermath, sampleEngine ∉ c.handles) ∧
    (sample.without sampleEngine).replies aftermath = sample.replies aftermath ∧
    (Object.holders 0 sampleEncrypted
      ((sample.without sampleEngine).afterCalls (aftermath.take 3)).world).1 = .ok 2 := by
  have he : (sampleEngine, .engine 0) ∈ sample.ledger.held := by
    rw [held_sample]
    simp
  have hp : sample.PermitsAll (aftermath.map .call) := by decide
  have hfree : ∀ c ∈ aftermath, sampleEngine ∉ c.handles := by decide
  obtain ⟨-, -, hreplies, -, halong⟩ := reachable_sample.engine_outlived he hp hfree
  have hheld : (sampleEncrypted, .object 0 0) ∈
      (sample.afterCalls (aftermath.take 3)).ledger.held := by decide
  have hholders : (Object.holders 0 sampleEncrypted
      (sample.afterCalls (aftermath.take 3)).world).1 = .ok 2 := rfl
  exact ⟨reachable_sample, he, hp, hfree, hreplies,
    ((halong 3).2.holders _ _ _ hheld).trans hholders⟩

end Host

end HandleBench
