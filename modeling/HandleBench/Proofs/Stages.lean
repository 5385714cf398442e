import HandleBench.Proofs.Catalogs
import HandleBench.Proofs.LiveBenchmarks
import HandleBench.Proofs.Resolution
import HandleBench.Proofs.Sharing

/-!
# Stages

A program that works with an engine makes moves like any host, and `Host.Stage` says how far it has
come since some state of the books: which handles it holds beyond those that were held then.
Creating a benchmark and giving it a job add handles, releasing takes them away again wherever they
stand among the others, and whatever fails leaves the stage as it is. A stage at which nothing is
held beyond what was held in the beginning is the beginning again, as far as handles and payloads
go.
-/

namespace HandleBench

/-! ### What a job makes -/

/-- A job makes no handle, or its first handle is that of a new payload or of the payload of an
object that it works on. -/
def Job.Makes (w : World) (b : Benchmark) (job : Job) (made : List Handle) : Prop :=
  made = [] ∧ job.event w b made = .nothing ∨
    ∃ h rest, made = h :: rest ∧
      ((∃ value, job.event w b made = .created h b.session value) ∨
        ∃ source ∈ job.asks b.inst, job.event w b made = .shared h source)

namespace Benchmark

variable {w : World} {b : Benchmark}

theorem encode_makes (w : World) (b : Benchmark) (packs : List Pack) :
    (b.encode packs).Ends w (fun made _ => (Job.encode packs).Makes w b [made])
      fun _ _ => True := by
  have makes : ∀ {value : Payload}, b.inst.encoded packs = some value → ∀ made,
      (Job.encode packs).Makes w b [made] := by
    intro value hv made
    refine .inr ⟨made, [], rfl, .inl ⟨value, ?_⟩⟩
    rw [Job.event, hv]
    rfl
  obtain ⟨session, inst⟩ := b
  cases inst with
  | product p =>
    refine Act.ends_bind.2 (Act.ends_ofExcept (fun components hc => ?_) fun _ _ => trivial)
    have he : (Instance.product p).encoded packs = some ⟨.matrices, components⟩ := by
      rw [Instance.encoded, hc]
      rfl
    exact Act.ends_of_forall (fun made _ _ => makes he made) fun _ _ _ => trivial
  | carrier config =>
    exact Act.ends_of_forall (fun made _ _ => makes rfl made) fun _ _ _ => trivial

theorem store_makes (w : World) (b : Benchmark) (result : Handle) (slots : List Handle) :
    (b.store result slots).Ends w (fun made _ => (Job.store result slots).Makes w b made)
      fun _ _ => True := by
  have makes : ∀ stored rest, result ∈ (Job.store result slots).asks b.inst →
      (Job.store result slots).Makes w b (stored :: rest) :=
    fun stored rest hm => .inr ⟨stored, rest, rfl, .inr ⟨result, hm, rfl⟩⟩
  obtain ⟨session, inst⟩ := b
  cases inst with
  | product p =>
    cases slots with
    | nil => exact .inl ⟨rfl, rfl⟩
    | cons slot slots =>
      exact Act.ends_bind_of_last fun stored _ => makes stored _ List.mem_cons_self
  | carrier config =>
    refine Act.ends_bind_of_last fun stored _ => ?_
    cases slots with
    | nil => exact Act.ends_bind_of_last fun _ _ => .inl ⟨rfl, rfl⟩
    | cons slot slots => exact makes stored _ List.mem_cons_self

/-- What comes of a job that is done. -/
theorem carryOut_makes (w : World) (address : Nat) (b : Benchmark) (job : Job) :
    (b.carryOut address job).Ends w (fun made _ => job.Makes w b made) fun _ _ => True := by
  -- a job that shares the payload of an object that it works on
  have shares : ∀ {source made : Handle}, source ∈ job.asks b.inst →
      job.event w b [made] = .shared made source → job.Makes w b [made] :=
    fun hm he => .inr ⟨_, [], rfl, .inr ⟨_, hm, he⟩⟩
  cases job with
  | concretize concrete => exact Act.ends_bind_of_last fun _ _ => .inl ⟨rfl, rfl⟩
  | decode encoded packs => exact Act.ends_bind_of_last fun _ _ => .inl ⟨rfl, rfl⟩
  | encode packs =>
    exact Act.Ends.map (encode_makes w b packs)
  | encrypt source => exact Act.ends_bind_of_last fun _ _ => shares List.mem_cons_self rfl
  | decrypt source => exact Act.ends_bind_of_last fun _ _ => shares List.mem_cons_self rfl
  | load sources =>
    cases sources with
    | nil =>
      obtain ⟨session, inst⟩ := b
      cases inst <;> exact trivial
    | cons source rest =>
      exact Act.ends_bind_of_last fun _ _ => shares List.mem_cons_self rfl
  | store result slots => exact store_makes w b result slots
  | operate loaded selections =>
    refine Act.ends_bind_of_last fun made _ => ?_
    cases hv : b.inst.operated (w.value? loaded) selections with
    | some value =>
      refine .inr ⟨made, [], rfl, .inl ⟨value, ?_⟩⟩
      rw [Job.event, hv]
      rfl
    | none =>
      refine shares List.mem_cons_self ?_
      rw [Job.event, hv]
      rfl

end Benchmark

/-! ### Moves that an engine performs -/

/-- The engine stops for reasons of its own: it refuses, or a backend of its catalog panics that was
told to. -/
def Engine.Admits (e : Engine) : Stop → Prop
  | .refused _ => True
  | .panicked _ => ∃ d ∈ e.catalog, d.backend.Panics
  | .released | .misread => False

namespace Host

variable {s t : Host} {m : Move} {h b : Handle} {e : Engine} {job : Job}
  {gs : List (Handle × Grant)}

/-- An engine stays as it is while its handle is held. -/
theorem Reachable.has_after (hs : s.Reachable) (hm : s.Permits m) (he : s.Has h e)
    (hk : (h, .engine e.session) ∈ (s.after m).ledger.held) : (s.after m).Has h e := by
  refine ⟨hk, ?_⟩
  obtain ⟨found, hf, -⟩ := (hs.after hm).agrees.backed.engine_found hk
  rcases hs.deed hm with hw | ⟨id, -, hd⟩
  · rw [hw]
    exact he.2
  · rcases hd.engine_new hf.engine? with hold | ⟨-, hp⟩
    · rw [he.2] at hold
      cases hold
      exact hf.engine?
    · -- a new engine is where no handle has led before
      have hl := hs.agrees.backed.leads _ he.1
      rw [hp, World.grantAt_fresh] at hl
      cases hl

/-- A method of an engine that the host holds is performed by that engine. -/
theorem Reachable.perform_method (hs : s.Reachable) (he : s.Has h e) (m : Method) :
    (Move.method h m).perform s.world = m.perform e s.world := by
  obtain ⟨a, hf⟩ := hs.found he
  exact Act.bind_of_ok (Engine.resolve_eq_ok hf)

/-! ### Stages -/

/-- A program that works with the engine `e` behind `h` began when the host was at `t`. It is at `s`
now and holds `gs` beyond what was held at `t`. -/
structure Stage (h : Handle) (e : Engine) (t : Host) (gs : List (Handle × Grant)) (s : Host) :
    Prop where
  /-- A host could have come here. -/
  reachable : s.Reachable
  /-- The engine is there. -/
  has : s.Has h e
  /-- What was held is held. -/
  held : s.ledger.held = gs ++ t.ledger.held
  /-- What else is held is no engine and belongs to the session. -/
  own : ∀ x ∈ gs, x.2.kind ≠ .engine ∧ x.2.session = e.session
  /-- Payloads that were made are booked for good. -/
  values : t.ledger.values <+: s.ledger.values

theorem Stage.refl (hs : s.Reachable) (he : s.Has h e) : Stage h e s [] s :=
  ⟨hs, he, rfl, by simp, List.prefix_refl _⟩

theorem Stage.mem (hst : Stage h e t gs s) {x : Handle × Grant} (hx : x ∈ gs) :
    x ∈ s.ledger.held := by
  rw [hst.held]
  exact List.mem_append_left _ hx

/-- A move that adds handles of the session leads to another stage. -/
theorem Stage.gain (hst : Stage h e t gs s) {event : Event} {w : World}
    {news : List (Handle × Grant)} (hm : s.Permits m) (hp : m.perform s.world = (.ok event, w))
    (hheld : (s.ledger.enter event).held = news ++ s.ledger.held)
    (hown : ∀ x ∈ news, x.2.kind ≠ .engine ∧ x.2.session = e.session)
    (hvalues : s.ledger.values <+: (s.ledger.enter event).values) :
    Stage h e t (news ++ gs) ⟨w, s.ledger.enter event⟩ := by
  have hafter := after_of_ok hp
  have hr := hst.reachable.after hm
  have he := hst.reachable.has_after hm hst.has
  rw [hafter] at hr he
  refine ⟨hr, he ?_, ?_, ?_, hst.values.trans hvalues⟩
  · rw [hheld]
    exact List.mem_append_right _ hst.has.1
  · rw [hheld, hst.held, List.append_assoc]
  · intro x hx
    rcases List.mem_append.1 hx with hx | hx
    · exact hown x hx
    · exact hst.own x hx

/-- So does a method that releases one of them. -/
theorem Stage.lose {x : Handle} {g : Grant} {before after : List (Handle × Grant)}
    (hst : Stage h e t (before ++ (x, g) :: after) s) {m : Method} {w : World}
    (hm : m.handles = [x]) (hp : m.perform e s.world = (.ok (.released x), w)) :
    Stage h e t (before ++ after) ⟨w, s.ledger.lose x⟩ := by
  have hb := hst.reachable.agrees.backed
  have hheld : s.ledger.held = before ++ (x, g) :: (after ++ t.ledger.held) := by
    rw [hst.held, List.append_assoc]
    rfl
  have hx : (x, g) ∈ s.ledger.held := by simp [hheld]
  have hlose := hb.held_lose hheld
  have permits : s.Permits (.method h m) := by
    have known : ∀ y ∈ h :: m.handles, s.ledger.Knows y := by
      rw [hm]
      simpa using ⟨.inr (.inr ⟨_, hst.has.1⟩), .inr (.inr ⟨g, hx⟩)⟩
    exact known
  have hafter := after_of_ok ((hst.reachable.perform_method hst.has m).trans hp)
  have hr := hst.reachable.after permits
  have he := hst.reachable.has_after permits hst.has
  rw [hafter] at hr he
  refine ⟨hr, he ?_, ?_, ?_, hst.values⟩
  · -- the engine is none of what is released
    show _ ∈ (s.ledger.lose x).held
    have hmem := hst.has.1
    rw [hheld] at hmem
    rw [hlose]
    rcases List.mem_append.1 hmem with hmem | hmem
    · exact List.mem_append_left _ hmem
    · rcases List.mem_cons.1 hmem with heq | hmem
      · cases heq
        exact absurd rfl (hst.own (h, .engine e.session) (by simp)).1
      · exact List.mem_append_right _ hmem
  · show (s.ledger.lose x).held = _
    rw [hlose, List.append_assoc]
  · intro y hy
    refine hst.own y ?_
    rcases List.mem_append.1 hy with hy | hy
    · exact List.mem_append_left _ hy
    · exact List.mem_append_right _ (List.mem_cons_of_mem _ hy)

/-- An engine releases what is held of its session. -/
theorem Stage.destroy {x : Handle} {g : Grant} {before after : List (Handle × Grant)}
    (hst : Stage h e t (before ++ (x, g) :: after) s) :
    ∃ s', Stage h e t (before ++ after) s' ∧ e.destroy x s.world = (.ok (), s'.world) := by
  have hx : (x, g) ∈ s.ledger.held := hst.mem (by simp)
  obtain ⟨hk, hs⟩ := hst.own (x, g) (by simp)
  have ha := hst.reachable.agrees
  have hd := destroy_own ha hx hk hs
  have released : Event.ofDestroy x = .released x := by
    refine Event.ofDestroy_claims ?_ (ha.backed.claims hx) ?_
    · cases hn : x.isNull with
      | false => rfl
      | true =>
        have hl := ha.backed.leads _ hx
        rw [World.grantAt_null hn] at hl
        cases hl
    · cases g <;> simp
  have hp : (Method.destroy x).perform e s.world =
      (.ok (.released x), s.world.without x.pointer) := by
    rw [← released]
    exact Act.bind_of_ok hd
  exact ⟨_, hst.lose rfl hp, hd⟩

/-- An engine releases a benchmark of its session. -/
theorem Stage.destroyBenchmark (hst : Stage h e t ((b, .benchmark e.session) :: gs) s) :
    ∃ s', Stage h e t gs s' ∧ e.destroyBenchmark b s.world = (.ok (), s'.world) := by
  have hb : (b, .benchmark e.session) ∈ s.ledger.held := hst.mem List.mem_cons_self
  obtain ⟨w, hp⟩ := hst.reachable.perform_frees hb (.destroyBenchmark hst.has rfl)
  rw [hst.reachable.perform_method hst.has] at hp
  refine ⟨_, Stage.lose (show Stage h e t ([] ++ _ :: gs) s from hst) rfl hp, ?_⟩
  change (e.destroyBenchmark b >>= _) s.world = _ at hp
  rw [Act.bind_apply] at hp
  cases hd : e.destroyBenchmark b s.world with
  | mk result w' =>
    rw [hd] at hp
    cases result with
    | ok => exact congrArg (Except.ok (), ·) (congrArg Prod.snd hp)
    | error => cases hp

/-- Creating a benchmark adds its handle. -/
theorem Stage.create (hst : Stage h e t gs s) {entry : Handle} (hk : entry ∈ s.ledger.entries)
    (params : Option (List Param)) :
    (e.create entry params).Ends s.world
      (fun made w => ∃ s', Stage h e t ((made, .benchmark e.session) :: gs) s' ∧ s'.world = w)
      fun reason w => w = s.world ∧ e.Admits reason := by
  refine Act.ends_of_forall ?_ ?_
  · intro made w hc
    have permits : s.Permits (.method h (.create entry params)) := by
      have known : ∀ y ∈ [h, entry], s.ledger.Knows y := by
        simpa using ⟨.inr (.inr ⟨_, hst.has.1⟩), .inr (.inl hk)⟩
      exact known
    have hp : (Move.method h (.create entry params)).perform s.world =
        (.ok (.benchmark made e.session), w) := by
      rw [hst.reachable.perform_method hst.has]
      exact Act.bind_of_ok hc
    exact ⟨_, hst.gain permits hp (show _ = [(made, .benchmark e.session)] ++ _ from rfl)
      (by simp [Grant.session]) (List.prefix_refl _), rfl⟩
  · intro reason w hc
    refine ⟨((Engine.create_atomic s.world e entry params True).of_error hc).1, ?_⟩
    cases hd : e.find entry with
    | error failure =>
      rw [Engine.create, hd] at hc
      cases hc
      trivial
    | ok description =>
      rw [Engine.create_eq hd] at hc
      rcases Benchmark.create_cases s.world e.session e.settings.maxLive description params with
        ⟨_, _, _, hr⟩ | ⟨_, ⟨_, _, hr⟩ | ⟨_, _, hr⟩⟩
      · rw [hr] at hc
        cases hc
        trivial
      · rw [hr] at hc
        cases hc
        trivial
      · rw [hr] at hc
        cases hc

/-- A move that shares a payload of the session adds a handle that leads where its source does. -/
theorem Stage.share (hst : Stage h e t gs s) {x source : Handle} {g : Grant} {w : World}
    (hm : s.Permits m) (hp : m.perform s.world = (.ok (.shared x source), w))
    (hsource : (source, g) ∈ s.ledger.held) (hs : g.session = e.session) :
    Stage h e t ((x, g) :: gs) ⟨w, s.ledger.enter (.shared x source)⟩ := by
  have hb := hst.reachable.agrees.backed
  have henter : s.ledger.enter (.shared x source) = s.ledger.gain x g := by
    rw [Ledger.enter, hb.grant?_eq hsource]
  have hkind : g.kind ≠ .engine := by
    cases ((m.perform_ends s.world).of_ok hp).1 with
    | shared held _ _ _ =>
      rw [hb.leads _ hsource] at held
      cases held
      simp
  refine hst.gain hm hp (show _ = [(x, g)] ++ _ from ?_) ?_ ?_
  · rw [henter]
    rfl
  · simpa using ⟨hkind, hs⟩
  · rw [henter]
    exact List.prefix_refl _

/-- A job of a benchmark of the session stops as the engine admits. -/
theorem Stage.admits (hst : Stage h e t gs s) {a : Nat} {benchmark : Benchmark} {reason : Stop}
    {w : World} (hf : Benchmark.Found s.world b (a, benchmark))
    (hs : benchmark.session = e.session) (hk : ∀ x ∈ job.handles, s.ledger.Knows x)
    (hc : benchmark.carryOut a job s.world = (.error reason, w)) :
    w = s.world ∧ e.Admits reason := by
  have hb := hst.reachable.agrees.backed
  obtain ⟨hw, hfair⟩ := (Benchmark.carryOut_atomic hf job).of_error hc
  refine ⟨hw, ?_⟩
  cases reason with
  | refused failure => trivial
  | panicked message =>
    have hpanics := (benchmark.carryOut_tame a job id).of_panicked hc
    obtain ⟨d, hd, hr⟩ := hst.reachable.catalogued.listed _ _ _ e
      (World.benchmarkAt_of_cell hf.cell) hst.has.2 hs
    exact ⟨d, hd, hr ▸ hpanics⟩
  | released => exact hfair fun x hx => hb.honest (hk x hx)
  | misread => exact hfair fun x hx => hb.honest (hk x hx)

/-- A job of a benchmark adds the first handle that it makes. -/
theorem Stage.carryOut (hst : Stage h e t gs s) (hb : (b, .benchmark e.session) ∈ s.ledger.held)
    (hk : ∀ x ∈ job.handles, s.ledger.Knows x) :
    (e.carryOut b job).Ends s.world
      (fun made w => ∃ news s', news.map Prod.fst = made.take 1 ∧
        Stage h e t (news ++ gs) s' ∧ s'.world = w)
      fun reason w => w = s.world ∧ e.Admits reason := by
  have ha := hst.reachable.agrees
  obtain ⟨⟨a, benchmark⟩, hf, hsession⟩ := ha.backed.benchmark_found hb
  have hjob : e.carryOut b job s.world = benchmark.carryOut a job s.world := by
    rw [Engine.carryOut_eq, Act.bind_of_ok (Engine.own_eq hf hsession)]
  have permits : s.Permits (.method h (.give b job)) := by
    have known : ∀ y ∈ h :: b :: job.handles, s.ledger.Knows y :=
      List.forall_mem_cons.2 ⟨.inr (.inr ⟨_, hst.has.1⟩),
        List.forall_mem_cons.2 ⟨.inr (.inr ⟨_, hb⟩), hk⟩⟩
    exact known
  refine Act.ends_of_forall (fun made w hc => ?_) fun reason w hc => ?_
  · have hp : (Move.method h (.give b job)).perform s.world =
        (.ok (job.event s.world benchmark made), w) := by
      rw [hst.reachable.perform_method hst.has]
      show (e.carryOut b job >>= _) s.world = _
      rw [Act.bind_of_ok hc]
      simp only [id, hf.benchmark?]
      rfl
    rw [hjob] at hc
    rcases (Benchmark.carryOut_makes s.world a benchmark job).of_ok hc with
      ⟨rfl, he⟩ | ⟨x, rest, rfl, ⟨value, he⟩ | ⟨source, hsource, he⟩⟩
    · rw [he] at hp
      exact ⟨[], _, rfl, hst.gain permits hp (show _ = [] ++ s.ledger.held from rfl) (by simp)
        (List.prefix_refl _), rfl⟩
    · rw [he] at hp
      refine ⟨[(x, .object benchmark.session s.ledger.values.length)], _, rfl,
        hst.gain permits hp rfl (by simpa [Grant.session] using hsession) ?_, rfl⟩
      exact List.prefix_append _ _
    · rw [he] at hp
      obtain ⟨g, hg, hs⟩ := ((Benchmark.carryOut_deeds hf job).of_ok hc).2 source hsource
      have hm := ha.backed.held_of_leads (hk source (job.handles_of_asks _ source hsource)) hg
      exact ⟨[(x, g)], _, rfl, hst.share permits hp hm (hs.trans hsession), rfl⟩
  · rw [hjob] at hc
    exact hst.admits hf hsession hk hc

/-- A host that asks an engine for its catalog knows the handles of all entries. -/
theorem Stage.entries (hst : Stage h e t gs s) :
    ∃ s', Stage h e t gs s' ∧ s'.world = s.world ∧ ∀ x ∈ e.entries, x ∈ s'.ledger.entries := by
  have permits : s.Permits (.method h .entries) := by
    have known : ∀ y ∈ [h], s.ledger.Knows y := by simpa using .inr (.inr ⟨_, hst.has.1⟩)
    exact known
  have hp : (Move.method h .entries).perform s.world = (.ok (.entries e.entries), s.world) := by
    rw [hst.reachable.perform_method hst.has]
    rfl
  refine ⟨_, hst.gain permits hp (show _ = [] ++ s.ledger.held from rfl) (by simp)
    (List.prefix_refl _), rfl, ?_⟩
  exact fun x hx => List.mem_append_right _ hx

/-! ### The beginning again -/

/-- As far as handles, payloads and live benchmarks go, the world is that of the host. -/
structure Restored (t : Host) (w : World) : Prop where
  /-- Every session has as many live benchmarks. -/
  live : w.live = t.world.live
  /-- Every pointer leads where it led. -/
  grants : w.grantAt = t.world.grantAt
  /-- Every payload is there with as many holders. -/
  payloads : w.payload? = t.world.payload?
  /-- The library counts as many holders of what the host holds. -/
  holders : ∀ x session root, (x, .object session root) ∈ t.ledger.held →
    (Object.holders session x w).1 = (Object.holders session x t.world).1
  /-- A host can go on from there with what it held. -/
  resumed : ∃ s : Host, s.Reachable ∧ s.world = w ∧ s.ledger.held = t.ledger.held

theorem restored_self (ht : t.Reachable) : t.Restored t.world :=
  ⟨rfl, rfl, rfl, fun _ _ _ _ => rfl, t, ht, rfl, rfl⟩

/-- A stage with nothing beyond what was held in the beginning is the beginning again. -/
theorem Stage.restored (hst : Stage h e t [] s) (ht : t.Reachable) : t.Restored s.world := by
  have hl : s.ledger.held = t.ledger.held := hst.held
  have ha := ht.agrees
  have ha' := hst.reachable.agrees
  have hgrants := ha.backed.grantAt_eq ha'.backed hl
  have hpayloads := ha.counted.payload?_eq ha'.counted hl hst.values
  constructor
  case live =>
    funext id
    rw [hst.reachable.live_eq, ht.live_eq, Ledger.benchmarks, Ledger.benchmarks, Ledger.tally,
      Ledger.tally, hl]
  case grants => exact hgrants
  case payloads => exact hpayloads
  case holders =>
    intro x session root hx
    rw [holders_of_held ha hx, holders_of_held ha' (hl ▸ hx), Ledger.heirs, Ledger.heirs, hl]
  case resumed => exact ⟨s, hst.reachable, rfl, hl⟩

end Host

end HandleBench
