import HandleBench.Proofs.Layers
import HandleBench.Proofs.Runs

/-!
# Live benchmarks

Every session counts its live benchmarks. The count is taken and given back in several places, and
benchmarks may outlive their engine; still it is the number of benchmark handles that the host
holds, and it never exceeds the limit that the settings of the engine set, not even after the engine
is gone. A benchmark is refused for the limit exactly if as many are live, and whatever fails leaves
the counts as they were, so a slot that was given back can be taken again.
-/

namespace HandleBench

open Call (announced)

/-- How many benchmarks of a session the host holds. -/
def Ledger.benchmarks (l : Ledger) (id : SessionId) : Nat := l.tally (· == .benchmark id)

/-- As many benchmarks are live as the settings of the engine allow, `k`. -/
def Engine.AtLimit (e : Engine) (w : World) (k : Nat) : Prop :=
  e.settings.maxLive = some k ∧ k ≤ w.live e.session

/-! ### The count is right -/

namespace Ledger

variable {l : Ledger} {w w' : World} {event : Event}

theorem benchmarks_gain (l : Ledger) (h : Handle) (g : Grant) (id : SessionId) :
    (l.gain h g).benchmarks id = l.benchmarks id + if g = .benchmark id then 1 else 0 := by
  rw [benchmarks, tally_gain]
  simp [benchmarks]

theorem Backed.benchmarks_lose (hb : l.Backed w) {h : Handle} {g : Grant} (hm : (h, g) ∈ l.held)
    (id : SessionId) :
    l.benchmarks id = (l.lose h).benchmarks id + if g = .benchmark id then 1 else 0 := by
  rw [benchmarks, hb.tally_lose hm]
  simp [benchmarks]

/-- An event that is still brings no benchmark into the books. -/
theorem Backed.benchmarks_still (hb : l.Backed w) (hc : w.Change w' event)
    (hk : ∀ x ∈ event.given, l.Knows x) (hs : event.Still) (id : SessionId) :
    (l.enter event).benchmarks id = l.benchmarks id := by
  cases hc with
  | nothing => rfl
  | passed => rfl
  | entries => rfl
  | engine => exact hs.elim
  | benchmark => exact hs.elim
  | @created h session value =>
    have hg := l.benchmarks_gain h (.object session l.values.length) id
    rwa [if_neg (by simp), Nat.add_zero] at hg
  | @shared h source session root held =>
    have hm := hb.held_of_leads (hk source (by simp [Event.given])) held
    have hg := l.benchmarks_gain h (.object session root) id
    rw [if_neg (by simp), Nat.add_zero] at hg
    rw [enter, hb.grant?_eq hm]
    exact hg
  | released => exact hs.elim

/-- The books follow the counts with every event. -/
theorem Agrees.live_enter (ha : l.Agrees w) (ho : w.Opened) (hc : w.Change w' event)
    (ht : w.Turn w' event) (hk : ∀ x ∈ event.given, l.Knows x)
    (hl : ∀ id, w.live id = l.benchmarks id) (id : SessionId) :
    w'.live id = (l.enter event).benchmarks id := by
  cases ht with
  | still still quiet =>
    rw [quiet.live, hl, ha.backed.benchmarks_still hc hk still]
  | @engine h e errors _ sessions _ =>
    have hg := l.benchmarks_gain h (.engine w.sessions.size) id
    rw [if_neg (by simp), Nat.add_zero] at hg
    rw [World.live_push sessions, hl, ← hg]
    rfl
  | @benchmark h p e maker _ quiet =>
    have hg := l.benchmarks_gain h (.benchmark e.session) id
    rw [quiet.live, World.live_takeSlot (ho.of_engine maker), hl]
    show _ = (l.gain h (.benchmark e.session)).benchmarks id
    rw [hg]
    by_cases hid : id = e.session
    · rw [if_pos hid, if_pos (by rw [hid])]
    · rw [if_neg hid, if_neg fun h => hid (Grant.benchmark.inj h).symm]
  | @freed h id' held quiet =>
    have hm := ha.backed.held_of_leads (hk h (by simp [Event.given])) held
    have hg := ha.backed.benchmarks_lose hm id
    rw [quiet.live, World.live_releaseSlot, hl, hg]
    show _ = (l.lose h).benchmarks id
    by_cases hid : id = id'
    · rw [if_pos hid, if_pos (by rw [hid])]
      omega
    · rw [if_neg hid, if_neg fun h => hid (Grant.benchmark.inj h).symm]
      omega
  | @gone h other quiet =>
    obtain ⟨g, held⟩ : ∃ g, w.grantAt h.pointer = some g := by
      cases hc with
      | released held => exact ⟨_, held⟩
    have hm := ha.backed.held_of_leads (hk h (by simp [Event.given])) held
    have hg := ha.backed.benchmarks_lose hm id
    have hne : g ≠ .benchmark id := fun h => other id (by rw [held, h])
    rw [if_neg hne, Nat.add_zero] at hg
    rw [quiet.live, hl, hg]
    rfl

end Ledger

namespace Host

variable {s s' : Host} {m : Move} {ms : List Move}

theorem Step.live_eq (hst : s.Step m s') (ha : s.ledger.Agrees s.world) (ho : s.world.Opened)
    (hm : s.Permits m) (hl : ∀ id, s.world.live id = s.ledger.benchmarks id) (id : SessionId) :
    s'.world.live id = s'.ledger.benchmarks id := by
  cases hst with
  | done _ performs change turn =>
    have hg := (m.perform_given s.world).of_ok performs
    exact ha.live_enter ho change turn (fun x hx => hm x (hg x hx)) hl id
  | sets =>
    rw [World.live_setLastError]
    exact hl id
  | fails =>
    rw [World.live_blamed]
    exact hl id
  | stops => exact hl id

/-- After every run each session counts the benchmarks that the host holds of it. -/
theorem Reachable.live_eq (hs : s.Reachable) (id : SessionId) :
    s.world.live id = s.ledger.benchmarks id := by
  induction hs generalizing id with
  | initial => rfl
  | after hs hm ih => exact (hs.step hm).live_eq hs.agrees hs.opened hm ih id

/-- Whatever fails leaves the counts as they were. -/
theorem Reachable.live_of_error (hs : s.Reachable) (hm : s.Permits m) {reason : Stop} {w : World}
    (hp : m.perform s.world = (.error reason, w)) : w.live = s.world.live := by
  have hst := hs.step hm
  have hafter := congrArg Host.world (after_of_error hp)
  generalize s.after m = s' at hst hafter
  rw [← show s'.world = w from hafter]
  cases hst with
  | done _ performs _ _ =>
    rw [hp] at performs
    cases performs
  | sets => exact World.live_setLastError _ _ _
  | fails => exact World.live_blamed _ _ _
  | stops => rfl

end Host

/-! ### The limit holds -/

namespace World

variable {w w' : World} {event : Event} {cap : SessionId → Option Nat}

/-- No session has more live benchmarks than `cap` says, which is what the settings of its engine
say while it has one. -/
structure Within (cap : SessionId → Option Nat) (w : World) : Prop where
  /-- The limit of a session is that of its engine. -/
  caps : ∀ p e, w.engine? p = some e → e.settings.maxLive = cap e.session
  /-- The limit is not exceeded. -/
  bound : ∀ id k, cap id = some k → w.live id ≤ k

theorem Within.congr (hw : w.Within cap) (hl : w'.live = w.live)
    (he : ∀ p e, w'.engine? p = some e → w.engine? p = some e) : w'.Within cap := by
  constructor
  · intro p e h
    exact hw.caps p e (he p e h)
  · intro id k hk
    rw [hl]
    exact hw.bound id k hk

/-- An engine that comes brings the limit of its session with it; no limit ever changes. -/
theorem Turn.within (ho : w.Opened) (hw : w.Within cap) (ht : w.Turn w' event) :
    ∃ cap', w'.Within cap' ∧ ∀ id, id < w.sessions.size → cap' id = cap id := by
  cases ht with
  | still _ quiet => exact ⟨cap, hw.congr quiet.live quiet.engines, fun _ _ => rfl⟩
  | @engine h e errors own sessions engines =>
    refine ⟨fun id => if id = w.sessions.size then e.settings.maxLive else cap id, ?_, ?_⟩
    · constructor
      · intro p e' he'
        rw [engines] at he'
        split at he'
        · cases he'
          rw [if_pos own]
        · have hlt := ho.of_engine he'
          exact (hw.caps p e' he').trans (if_neg (Nat.ne_of_lt hlt)).symm
      · intro id k hk
        rw [live_push sessions]
        by_cases hid : id = w.sessions.size
        · have hz : w.live id = 0 := by
            rw [live, hid, Array.getElem?_eq_none (Nat.le_refl _)]
            rfl
          omega
        · rw [if_neg hid] at hk
          exact hw.bound id k hk
    · intro id hid
      exact if_neg (Nat.ne_of_lt hid)
  | @benchmark h p e maker room quiet =>
    refine ⟨cap, ⟨fun p e he => hw.caps p e (quiet.engines p e he), ?_⟩, fun _ _ => rfl⟩
    intro id k hk
    rw [quiet.live, live_takeSlot (ho.of_engine maker)]
    by_cases hid : id = e.session
    · subst hid
      have hlt := room k (by rw [hw.caps p e maker, hk])
      rw [if_pos rfl]
      omega
    · rw [if_neg hid]
      exact hw.bound id k hk
  | freed _ quiet =>
    refine ⟨cap, ⟨fun p e he => hw.caps p e (quiet.engines p e he), ?_⟩, fun _ _ => rfl⟩
    intro id k hk
    have hle := hw.bound id k hk
    rw [quiet.live, live_releaseSlot]
    omega
  | gone _ quiet => exact ⟨cap, hw.congr quiet.live quiet.engines, fun _ _ => rfl⟩

end World

namespace Host

variable {s s' : Host} {m : Move} {ms : List Move} {cap : SessionId → Option Nat}

theorem Step.size (hst : s.Step m s') : s.world.sessions.size ≤ s'.world.sessions.size := by
  cases hst with
  | done _ _ _ turn => exact turn.size
  | sets => exact Nat.le_of_eq (World.size_setLastError _ _ _).symm
  | fails => exact Nat.le_of_eq (World.size_blamed _ _ _).symm
  | stops => exact Nat.le_refl _

theorem Step.within (hst : s.Step m s') (ho : s.world.Opened) (hw : s.world.Within cap) :
    ∃ cap', s'.world.Within cap' ∧ ∀ id, id < s.world.sessions.size → cap' id = cap id := by
  cases hst with
  | done _ _ _ turn => exact turn.within ho hw
  | sets =>
    exact ⟨cap, hw.congr (World.live_setLastError _ _ _) fun _ _ h => h, fun _ _ => rfl⟩
  | fails =>
    refine ⟨cap, hw.congr (World.live_blamed _ _ _) ?_, fun _ _ => rfl⟩
    intro p e he
    rwa [World.engine?_blamed] at he
  | stops => exact ⟨cap, hw, fun _ _ => rfl⟩

/-- Every session keeps to a limit. -/
theorem Reachable.within (hs : s.Reachable) : ∃ cap, s.world.Within cap := by
  induction hs with
  | initial =>
    refine ⟨fun _ => none, ?_, ?_⟩
    · intro p e he
      cases p <;> cases he
    · intro id k hk
      cases hk
  | after hs hm ih =>
    obtain ⟨cap, hw⟩ := ih
    obtain ⟨cap', hw', -⟩ := (hs.step hm).within hs.opened hw
    exact ⟨cap', hw'⟩

/-- On every way from here the sessions that are there keep to the same limit. -/
theorem Reachable.within_afterAll (hs : s.Reachable) (hp : s.PermitsAll ms)
    (hw : s.world.Within cap) :
    ∃ cap', (s.afterAll ms).world.Within cap' ∧
      ∀ id, id < s.world.sessions.size → cap' id = cap id := by
  induction ms generalizing s cap with
  | nil => exact ⟨cap, hw, fun _ _ => rfl⟩
  | cons m ms ih =>
    obtain ⟨cap', hw', hsame⟩ := (hs.step hp.1).within hs.opened hw
    obtain ⟨cap'', hw'', hsame'⟩ := ih (hs.after hp.1) hp.2 hw'
    refine ⟨cap'', hw'', ?_⟩
    intro id hid
    rw [hsame' id (Nat.lt_of_lt_of_le hid (hs.step hp.1).size), hsame id hid]

/-- The limit of an engine is kept on every way from here. -/
theorem Reachable.live_le {h : Handle} {e : Engine} {k : Nat} (hs : s.Reachable) (he : s.Has h e)
    (hk : e.settings.maxLive = some k) (hp : s.PermitsAll ms) :
    (s.afterAll ms).world.live e.session ≤ k := by
  obtain ⟨cap, hw⟩ := hs.within
  obtain ⟨cap', hw', hsame⟩ := hs.within_afterAll hp hw
  refine hw'.bound e.session k ?_
  rw [hsame _ (hs.opened.of_engine he.2), ← hw.caps _ e he.2, hk]

end Host

/-! ### Refusing and creating -/

/-- Whether a backend can make an instance has nothing to do with the limit. -/
theorem Benchmark.instantiate_ne_limit {description : Description} {params : Option (List Param)}
    (k : Nat) : instantiate description params ≠ .error (.benchmarkLimit k) := by
  intro hi
  rcases instantiate_failure hi with hs | hs | ⟨tag, hs⟩ | ⟨config, code, -, -, hs⟩
  · cases hs
  · cases hs
  · cases hs
  · cases hs

namespace Engine

variable {e : Engine} {entry : Handle} {description : Description} {w : World}

/-- A benchmark is refused for the limit exactly if the limit is reached. -/
theorem create_limit_iff (hd : e.find entry = .ok description) (params : Option (List Param))
    (k : Nat) :
    (e.create entry params w).1 = .error (.refused (.benchmarkLimit k)) ↔ e.AtLimit w k := by
  rw [create_eq hd, AtLimit]
  rcases Benchmark.create_cases w e.session e.settings.maxLive description params with
    ⟨k', hk', hle, hr⟩ | ⟨hroom, hrest⟩
  · rw [hr, hk']
    constructor
    · intro h
      cases h
      exact ⟨rfl, hle⟩
    · rintro ⟨h, -⟩
      cases h
      rfl
  · constructor
    · intro h
      rcases hrest with ⟨failure, hi, hr⟩ | ⟨inst, -, hr⟩
      · rw [hr] at h
        cases h
        exact absurd hi (Benchmark.instantiate_ne_limit k)
      · rw [hr] at h
        cases h
    · rintro ⟨h, hle⟩
      have hlt := hroom k h
      omega

/-- With room left, the instance that the backend makes becomes a benchmark. -/
theorem create_of_room {params : Option (List Param)} {inst : Instance}
    (hd : e.find entry = .ok description) (hroom : ∀ k, ¬ e.AtLimit w k)
    (hi : Benchmark.instantiate description params = .ok inst) :
    ∃ made w', e.create entry params w = (.ok made, w') := by
  rw [create_eq hd]
  rcases Benchmark.create_cases w e.session e.settings.maxLive description params with
    ⟨k, hk, hle, -⟩ | ⟨-, ⟨failure, hi', -⟩ | ⟨inst', -, hr⟩⟩
  · exact absurd ⟨hk, hle⟩ (hroom k)
  · rw [hi] at hi'
    cases hi'
  · exact ⟨_, _, hr⟩

end Engine

namespace Call

variable {w : World} {h entry slot : Handle} {found : Nat × Engine} {description : Description}
  {params : Option (HostArray Param)}

/-- It is the same for the exported call, if its arguments are as agreed. -/
theorem create_limit_iff (hf : Engine.Found w h found) (hd : found.2.find entry = .ok description)
    (hp : ParamsProper params) (k : Nat) :
    (∃ w', (create h entry params (some slot)).Comes w (.error (.benchmarkLimit k))
      (create h entry params (some slot)) w') ↔ found.2.AtLimit w k := by
  rw [← Engine.create_limit_iff hd (params.map announced) k]
  let c := create h entry params (some slot)
  have hb : c.body ⟨w, none, c⟩ =
      (do
        let made ← Frame.onWorld (found.2.create entry (params.map announced))
        Frame.write (create h entry params (some made))
        return Answer.code .success) ⟨w, some found.2.session, c⟩ := by
    refine (Act.bind_of_ok (Frame.bindEngine_eq hf)).trans ?_
    exact Act.bind_of_ok (readParams_eq hp)
  rw [Act.bind_apply, Frame.onWorld_apply] at hb
  cases hr : found.2.create entry (params.map announced) w with
  | mk result w'' =>
    rw [hr] at hb
    constructor
    · rintro ⟨w', hc⟩
      have he := hc.ending
      rw [attempt, hb] at he
      cases result with
      | ok made => cases he
      | error reason =>
        cases reason with
        | refused failure =>
          cases he
          rfl
        | _ => cases he
    · intro hl
      obtain rfl : result = .error (.refused (.benchmarkLimit k)) := hl
      refine ⟨w''.record found.2.session (.benchmarkLimit k), Comes.of_ending ?_⟩
      rw [attempt, hb]
      rfl

end Call

/-! ### The law -/

namespace Host

variable {s : Host} {h : Handle} {id : SessionId} {m : Move}

/-- The moves that release a benchmark of a session. -/
inductive Frees (s : Host) (h : Handle) (id : SessionId) : Move → Prop where
  /-- By the exported call. -/
  | call : Frees s h id (.call (.destroy h))
  /-- By the engine, as any handle. -/
  | destroy {engine : Handle} {e : Engine} (own : s.Has engine e) (same : e.session = id) :
    Frees s h id (.method engine (.destroy h))
  /-- By the engine, as a benchmark. -/
  | destroyBenchmark {engine : Handle} {e : Engine} (own : s.Has engine e)
    (same : e.session = id) : Frees s h id (.method engine (.destroyBenchmark h))

/-- A benchmark that the host holds is released by each of them. -/
theorem Reachable.perform_frees (hs : s.Reachable) (hm : (h, .benchmark id) ∈ s.ledger.held)
    (hf : s.Frees h id m) : ∃ w, m.perform s.world = (.ok (.released h), w) := by
  obtain ⟨found, hb, rfl⟩ := hs.agrees.backed.benchmark_found hm
  have released := Event.ofDestroy_claims hb.not_null hb.tag (by simp)
  have method : ∀ {engine : Handle} {e : Engine}, s.Has engine e → ∀ m : Method,
      (Move.method engine m).perform s.world = m.perform e s.world := by
    intro engine e he m
    obtain ⟨a, hfe⟩ := hs.found he
    exact Act.bind_of_ok (Engine.resolve_eq_ok hfe)
  refine ⟨Benchmark.release s.world found.1 found.2, ?_⟩
  rw [← released]
  cases hf with
  | call =>
    show (Call.attempt (.destroy h) >>= _) s.world = _
    rw [Act.bind_of_ok (Call.destroy_benchmark hb)]
    rfl
  | destroy own same =>
    rw [method own, Method.perform, Act.bind_of_ok (Engine.destroy_benchmark hb same.symm)]
    rfl
  | destroyBenchmark own same =>
    have hd : ∀ {e : Engine}, e.session = found.2.session → e.destroyBenchmark h s.world =
        (.ok (), Benchmark.release s.world found.1 found.2) := by
      intro e he
      rw [Engine.destroyBenchmark, if_neg (by simp [hb.not_null]),
        Act.bind_of_ok (Engine.own_eq hb he.symm)]
      rfl
    rw [method own, Method.perform, Act.bind_of_ok (hd same)]
    rfl

theorem Frees.permits (hf : s.Frees h id m) (hm : (h, .benchmark id) ∈ s.ledger.held) :
    s.Permits m := by
  have known : s.ledger.Knows h := .inr (.inr ⟨_, hm⟩)
  cases hf with
  | call => simpa [Permits, Move.handles, Call.handles, Call.lead, Call.topic] using known
  | destroy own | destroyBenchmark own =>
    simpa [Permits, Move.handles, Method.handles] using ⟨.inr (.inr ⟨_, own.1⟩), known⟩

/-- With the benchmark its slot is given back. -/
theorem Reachable.live_frees (hs : s.Reachable) (hm : (h, .benchmark id) ∈ s.ledger.held)
    (hf : s.Frees h id m) : (s.after m).world.live id + 1 = s.world.live id := by
  obtain ⟨w, hp⟩ := hs.perform_frees hm hf
  have hafter := (hs.after (hf.permits hm)).live_eq id
  have hl := hs.agrees.backed.benchmarks_lose hm id
  rw [if_pos rfl, ← hs.live_eq id] at hl
  rw [after_of_ok hp] at hafter ⊢
  exact hl.symm ▸ congrArg (· + 1) hafter

/-- What holds of the live benchmarks of a host, however it has come about. -/
structure LiveLaw (s : Host) : Prop where
  /-- Every session counts the benchmarks that the host holds of it. -/
  counted : ∀ id, s.world.live id = s.ledger.benchmarks id
  /-- The limit of an engine is kept from now on, whatever the host does, even after the engine is
  gone. -/
  capped : ∀ h e k, s.Has h e → e.settings.maxLive = some k →
    ∀ ms, s.PermitsAll ms → (s.afterAll ms).world.live e.session ≤ k
  /-- An engine refuses a benchmark of a catalog entry for the limit exactly if it is reached. -/
  refused : ∀ h e entry description params k, s.Has h e → e.find entry = .ok description →
    ((e.create entry params s.world).1 = .error (.refused (.benchmarkLimit k)) ↔
      e.AtLimit s.world k)
  /-- So does the exported call, if its arguments are as agreed. -/
  refusedCall : ∀ h e entry description params slot k, s.Has h e →
    e.find entry = .ok description → ParamsProper params →
    ((∃ w, (Call.create h entry params (some slot)).Comes s.world (.error (.benchmarkLimit k))
      (.create h entry params (some slot)) w) ↔ e.AtLimit s.world k)
  /-- With room left, whatever instance the backend makes becomes a benchmark. -/
  created : ∀ h e entry description params inst, s.Has h e → e.find entry = .ok description →
    (∀ k, ¬ e.AtLimit s.world k) → Benchmark.instantiate description params = .ok inst →
    ∃ made w, e.create entry params s.world = (.ok made, w)
  /-- A move that fails leaves all counts as they were. -/
  failed : ∀ m reason w, s.Permits m → m.perform s.world = (.error reason, w) →
    w.live = s.world.live
  /-- Releasing a benchmark gives its slot back, and no engine of the session is at its limit. -/
  reused : ∀ b id m, (b, .benchmark id) ∈ s.ledger.held → s.Frees b id m →
    (s.after m).world.live id + 1 = s.world.live id ∧
      ∀ h e k, s.Has h e → e.session = id → ¬ e.AtLimit (s.after m).world k
  /-- The refusal blames the caller and tells the limit. -/
  worded : ∀ k : Nat, (Failure.benchmarkLimit k).code = .invalidArgs ∧
    (Failure.benchmarkLimit k).message = s!"maximum number of live benchmarks reached ({k})"

/-- **Live benchmarks are counted.** After every run the counts are right and within the limits, a
benchmark is refused for the limit exactly if it is reached, and a slot that was given back can be
taken again. -/
theorem Reachable.liveLaw (hs : s.Reachable) : s.LiveLaw := by
  constructor
  case counted => exact hs.live_eq
  case capped =>
    intro h e k he hk ms hp
    exact hs.live_le he hk hp
  case refused =>
    intro h e entry description params k _ hd
    exact Engine.create_limit_iff hd params k
  case refusedCall =>
    intro h e entry description params slot k he hd hp
    obtain ⟨a, hf⟩ := hs.found he
    exact Call.create_limit_iff hf hd hp k
  case created =>
    intro h e entry description params inst _ hd hroom hi
    exact Engine.create_of_room hd hroom hi
  case failed =>
    intro m reason w hm hp
    exact hs.live_of_error hm hp
  case reused =>
    intro b id m hm hf
    have hfree := hs.live_frees hm hf
    refine ⟨hfree, ?_⟩
    rintro h e k he rfl ⟨hk, hle⟩
    have hbound := hs.live_le he hk (show s.PermitsAll [] from trivial)
    change s.world.live e.session ≤ k at hbound
    omega
  case worded =>
    intro k
    exact ⟨rfl, rfl⟩

/-- A host that has made an engine with room for one benchmark, and that benchmark. -/
def crowded : Host :=
  (initial.after (.make ⟨none, some 1, none⟩
    ⟨[.bare .plain (.byteCarrier (.named "mock"))], .empty, .empty, .empty⟩)).after
    (.method sampleEngine (.create (.descriptor 0) none))

theorem reachable_crowded : crowded.Reachable :=
  (Reachable.initial.after (by decide)).after (by decide)

/-- The engine has no room for another benchmark, until the one is released. -/
theorem liveLaw_crowded : crowded.Reachable ∧ crowded.world.live 0 = 1 ∧
    (∃ e, crowded.Has sampleEngine e ∧
      (e.create (.descriptor 0) none crowded.world).1 = .error (.refused (.benchmarkLimit 1)) ∧
      ¬ e.AtLimit (crowded.after (.call (.destroy sampleBenchmark))).world 1) := by
  have law := reachable_crowded.liveLaw
  have hb : (sampleBenchmark, .benchmark 0) ∈ crowded.ledger.held := List.mem_cons_self
  have he : crowded.Has sampleEngine ⟨0, ⟨none, some 1, none⟩,
      [.bare .plain (.byteCarrier (.named "mock"))], .empty, .empty⟩ :=
    ⟨List.mem_cons_of_mem _ List.mem_cons_self, rfl⟩
  refine ⟨reachable_crowded, law.counted 0, _, he, ?_, ?_⟩
  · exact (law.refused sampleEngine _ (.descriptor 0) _ none 1 he rfl).2 ⟨rfl, Nat.le_refl 1⟩
  · exact (law.reused sampleBenchmark 0 _ hb .call).2 sampleEngine _ 1 he rfl

end Host

end HandleBench
