import HandleBench.Proofs.Releases

/-!
# Resolution of handles

A handle is resolved only as what it was made as. The tests on tags differ from place to place, but
the class bits of the handles of a host leave each of them a single answer: whoever asks for another
kind refuses before the world is looked at. Releasing takes away what the handle was made for and
nothing else.
-/

namespace HandleBench

/-- The act is refused in whatever world, so it has followed no pointer. -/
def Act.Blind {α : Type} (act : Act World α) : Prop :=
  ∃ failure, ∀ w, act w = (.error (.refused failure), w)

/-! ### Tests on tags -/

theorem Engine.resolve_blind {h : Handle} (hn : h.isNull = true ∨ ¬ h.tag.Claims .engine) :
    (Engine.resolve h).Blind := by
  refine ⟨.notEngine h.tag, fun w => ?_⟩
  have hc : (h.isNull || h.tag != Tag.engine) = true := by
    rcases hn with hn | ht
    · simp [hn]
    · have ht : h.tag ≠ Tag.engine := ht
      simp [ht]
  rw [Engine.resolve, if_pos hc]
  rfl

theorem Benchmark.resolve_blind {h : Handle} (hn : h.isNull = true ∨ ¬ h.tag.Claims .benchmark) :
    (Benchmark.resolve h).Blind := by
  by_cases ht : h.tag.hasClass .instanceBits = true
  · have hn : h.isNull = true := hn.resolve_right fun hc => hc ht
    refine ⟨.emptyBenchmark, fun w => ?_⟩
    rw [Benchmark.resolve, if_neg (by simp [ht]), if_pos hn]
    rfl
  · refine ⟨.notBenchmark h.tag, fun w => ?_⟩
    rw [Benchmark.resolve, if_pos (by simp [ht])]
    rfl

theorem Engine.own_blind {e : Engine} {h : Handle} (hb : (Benchmark.resolve h).Blind) :
    (e.own h).Blind := by
  obtain ⟨failure, hb⟩ := hb
  exact ⟨failure, fun w => Act.bind_of_stop (hb w)⟩

theorem Object.resolve_blind {session : SessionId} {h : Handle} {required : Tag}
    (hn : h.isNull = true ∨ ¬ h.tag.Claims .object) :
    (Object.resolve session h required).Blind := by
  cases hc : h.checkObject required with
  | error failure =>
    refine ⟨failure, fun w => ?_⟩
    rw [Object.resolve, hc]
    rfl
  | ok =>
    have hn : h.isNull = true :=
      hn.resolve_right fun ho => ho (Handle.checkObject_eq_ok.1 hc).2.1
    refine ⟨.emptyObject, fun w => ?_⟩
    rw [Object.resolve, hc]
    simp only [hn, if_true]
    rfl

namespace Host

variable {s : Host} {h : Handle} {m : Move}

/-- How handles are resolved and released. -/
structure ResolutionLaw (s : Host) : Prop where
  /-- Engines, benchmarks and objects carry the class bits of their kind and no other. -/
  classes : ∀ h g, (h, g) ∈ s.ledger.held → h.tag.classBits = g.kind.bits
  /-- So do catalog entries. -/
  entryClasses : ∀ h ∈ s.ledger.entries, h.tag.classBits = Kind.entry.bits
  /-- Only the handle of an engine is followed as one, and it leads to one. -/
  engines : ∀ h, s.ledger.Knows h → (Engine.resolve h).Blind ∨
    ∃ session found, (h, .engine session) ∈ s.ledger.held ∧ Engine.Found s.world h found ∧
      Engine.resolve h s.world = (.ok found, s.world)
  /-- Only the handle of a benchmark is followed as one, and it leads to one. -/
  benchmarks : ∀ h, s.ledger.Knows h →
    ((Benchmark.resolve h).Blind ∧ ∀ e : Engine, (e.own h).Blind) ∨
    ∃ session found, (h, .benchmark session) ∈ s.ledger.held ∧ Benchmark.Found s.world h found ∧
      Benchmark.resolve h s.world = (.ok found, s.world)
  /-- Only the handle of an object is followed as one, and it leads to one. -/
  objects : ∀ session h required, s.ledger.Knows h → (Object.resolve session h required).Blind ∨
    ∃ owner root found, (h, .object owner root) ∈ s.ledger.held ∧ Object.Found s.world owner h found
  /-- Only the pointer of a catalog entry is taken for an index; the first entry is pointed at by
  the null pointer. -/
  entries : ∀ h (e : Engine) description, s.ledger.Knows h → e.find h = .ok description →
    h ∈ s.ledger.entries ∨ h.isNull = true ∧ h.tag.Claims .entry
  /-- No move of the host follows a pointer to a cell that is gone or of another kind. -/
  fair : ∀ m reason w, s.Permits m → m.perform s.world = (.error reason, w) → reason.Fair
  /-- A move that resolves a handle as something else than it was made as fails. -/
  asked : ∀ m h k, s.Permits m → (h, k) ∈ m.asks s.world → ¬ s.ledger.Issued h k →
    ¬ (k = .entry ∧ h.isNull = true) → ∃ reason w, m.perform s.world = (.error reason, w)
  /-- The exported call releases what the handle stands for. -/
  destroyed : ∀ h, s.ledger.Knows h → (Call.destroy h).attempt s.world =
    (.ok ⟨.ok (.code .success), .destroy h⟩, s.world.without h.pointer)
  /-- So does an engine, provided that it is a benchmark or an object of its own session. -/
  destroyedOwn : ∀ (e : Engine) h g, (h, g) ∈ s.ledger.held → g.kind ≠ .engine →
    g.session = e.session → e.destroy h s.world = (.ok (), s.world.without h.pointer)
  /-- It refuses to release anything else. -/
  destroyedForeign : ∀ (e : Engine) h g, (h, g) ∈ s.ledger.held →
    g.kind = .engine ∨ g.session ≠ e.session →
      ∃ failure, e.destroy h s.world = (.error (.refused failure), s.world)
  /-- Nothing else goes with what is released. -/
  gone : ∀ h g, (h, g) ∈ s.ledger.held → ∀ p,
    (s.world.without h.pointer).grantAt p = if p = h.pointer then none else s.world.grantAt p
  /-- Nothing goes with null handles and those of catalog entries. -/
  spared : ∀ h, h.isNull = true ∨ h ∈ s.ledger.entries → s.world.without h.pointer = s.world ∧
    ∀ e : Engine, ∃ result, e.destroy h s.world = (result, s.world)

/-- A known handle is null, does not claim to be of the kind, or was made as one. -/
theorem known_cases {k : Kind} (ha : s.ledger.Agrees s.world) (hk : s.ledger.Knows h)
    (hne : k ≠ .entry) :
    (h.isNull = true ∨ ¬ h.tag.Claims k) ∨ ∃ g, (h, g) ∈ s.ledger.held ∧ g.kind = k := by
  by_cases hc : h.tag.Claims k
  · rcases hk with hn | he | ⟨g, hm⟩
    · exact .inl (.inl hn)
    · exact absurd (ha.backed.kind_of_entry he hc) hne
    · exact .inr ⟨g, hm, (ha.backed.kind_of_claims hm hc).symm⟩
  · exact .inl (.inr hc)

theorem engine_cases (ha : s.ledger.Agrees s.world) (hk : s.ledger.Knows h) :
    (Engine.resolve h).Blind ∨
      ∃ session found, (h, .engine session) ∈ s.ledger.held ∧ Engine.Found s.world h found ∧
        Engine.resolve h s.world = (.ok found, s.world) := by
  rcases known_cases ha hk (k := .engine) (by simp) with hn | ⟨g, hm, hg⟩
  · exact .inl (Engine.resolve_blind hn)
  · cases g with
    | engine session =>
      obtain ⟨found, hf, -⟩ := ha.backed.engine_found hm
      exact .inr ⟨session, found, hm, hf, Engine.resolve_eq_ok hf⟩
    | _ => cases hg

theorem benchmark_cases (ha : s.ledger.Agrees s.world) (hk : s.ledger.Knows h) :
    ((Benchmark.resolve h).Blind ∧ ∀ e : Engine, (e.own h).Blind) ∨
      ∃ session found, (h, .benchmark session) ∈ s.ledger.held ∧
        Benchmark.Found s.world h found ∧ Benchmark.resolve h s.world = (.ok found, s.world) := by
  rcases known_cases ha hk (k := .benchmark) (by simp) with hn | ⟨g, hm, hg⟩
  · have hb := Benchmark.resolve_blind hn
    exact .inl ⟨hb, fun e => Engine.own_blind hb⟩
  · cases g with
    | benchmark session =>
      obtain ⟨found, hf, -⟩ := ha.backed.benchmark_found hm
      exact .inr ⟨session, found, hm, hf, Benchmark.resolve_eq_ok hf⟩
    | _ => cases hg

theorem object_cases (ha : s.ledger.Agrees s.world) (session : SessionId) (required : Tag)
    (hk : s.ledger.Knows h) :
    (Object.resolve session h required).Blind ∨
      ∃ owner root found, (h, .object owner root) ∈ s.ledger.held ∧
        Object.Found s.world owner h found := by
  rcases known_cases ha hk (k := .object) (by simp) with hn | ⟨g, hm, hg⟩
  · exact .inl (Object.resolve_blind hn)
  · cases g with
    | object owner root =>
      obtain ⟨found, hf, -⟩ := ha.backed.object_found hm
      exact .inr ⟨owner, root, found, hm, hf⟩
    | _ => cases hg

theorem perform_of_not_issued {k : Kind} (ha : s.ledger.Agrees s.world) (hp : s.Permits m)
    (hmem : h ∈ m.handles) (hask : (h, k) ∈ m.asks s.world) (hi : ¬ s.ledger.Issued h k)
    (hn : ¬ (k = .entry ∧ h.isNull = true)) :
    ∃ reason w, m.perform s.world = (.error reason, w) := by
  cases hf : m.perform s.world with
  | mk result w =>
    cases result with
    | error reason => exact ⟨reason, w, rfl⟩
    | ok event =>
      have hr := ((m.perform_ends s.world).of_ok hf).2 _ hask
      rcases ha.backed.issued (hp h hmem) hr with hi' | hn'
      · exact absurd hi' hi
      · exact absurd hn' hn

theorem destroy_own {e : Engine} {g : Grant} (ha : s.ledger.Agrees s.world)
    (hm : (h, g) ∈ s.ledger.held) (hk : g.kind ≠ .engine) (hs : g.session = e.session) :
    e.destroy h s.world = (.ok (), s.world.without h.pointer) := by
  cases g with
  | engine session => exact absurd rfl hk
  | benchmark session =>
    obtain ⟨found, hf, rfl⟩ := ha.backed.benchmark_found hm
    rw [Engine.destroy_benchmark hf hs, hf.without_eq]
  | object session root =>
    obtain rfl : session = e.session := hs
    obtain ⟨found, hf, -⟩ := ha.backed.object_found hm
    rw [Engine.destroy_object hf (ha.backed.not_benchmark hm), hf.without_eq]

theorem destroy_foreign {e : Engine} {g : Grant} (ha : s.ledger.Agrees s.world)
    (hm : (h, g) ∈ s.ledger.held) (hk : g.kind = .engine ∨ g.session ≠ e.session) :
    ∃ failure, e.destroy h s.world = (.error (.refused failure), s.world) := by
  cases g with
  | engine session =>
    obtain ⟨found, hf, -⟩ := ha.backed.engine_found hm
    exact ⟨_, Engine.destroy_own_kind hf.tag hf.not_null⟩
  | benchmark session =>
    obtain ⟨found, hf, rfl⟩ := ha.backed.benchmark_found hm
    exact ⟨_, Engine.destroy_foreign_benchmark hf (hk.resolve_left (by simp))⟩
  | object session root =>
    obtain ⟨found, hf, -⟩ := ha.backed.object_found hm
    exact ⟨_, Engine.destroy_foreign_object hf (ha.backed.not_benchmark hm)
      (hk.resolve_left (by simp))⟩

theorem destroy_nothing (ha : s.ledger.Agrees s.world)
    (hn : h.isNull = true ∨ h ∈ s.ledger.entries) : s.world.without h.pointer = s.world ∧
      ∀ e : Engine, ∃ result, e.destroy h s.world = (result, s.world) := by
  rcases hn with hn | he
  · refine ⟨by rw [Handle.isNull_iff.1 hn]; rfl, fun e => ?_⟩
    obtain ⟨result, hr⟩ := Engine.destroy_null (e := e) hn
    exact ⟨result, hr s.world⟩
  · obtain ⟨i, rfl⟩ := ha.backed.descriptors h he
    exact ⟨rfl, fun e => ⟨_, Engine.destroy_entry rfl⟩⟩

/-- **No handle is resolved as another kind.** After every run, with whatever tags its backends and
sessions have chosen, each handle of the host is followed only as what it was made as, asking for
something else fails, and releasing takes away that thing alone. -/
theorem Reachable.resolutionLaw (hs : s.Reachable) : s.ResolutionLaw := by
  have ha := hs.agrees
  refine {
    classes := fun h g => ha.backed.classes (h, g)
    entryClasses := fun h hm => ?entryClasses
    engines := fun h => engine_cases ha
    benchmarks := fun h => benchmark_cases ha
    objects := fun session h required => object_cases ha session required
    entries := fun h e description hk hf => ?entries
    fair := fun m reason w hp hf => ((m.perform_ends s.world).of_error hf).2.2 (hs.honest hp)
    asked := fun m h k hp hask hi hn => ?asked
    destroyed := fun h => ha.backed.destroy_known
    destroyedOwn := fun e h g => destroy_own ha
    destroyedForeign := fun e h g => destroy_foreign ha
    gone := fun h g hm => ?gone
    spared := fun h => destroy_nothing ha }
  case entryClasses =>
    obtain ⟨i, rfl⟩ := ha.backed.descriptors h hm
    exact show Tag.descriptor.classBits = Kind.entry.bits by decide
  case entries =>
    rcases ha.backed.issued hk (Engine.readAs_of_find hf) with hi | ⟨-, hn⟩
    · exact .inl hi
    · exact .inr ⟨hn, Engine.claims_of_find hf⟩
  case asked =>
    exact perform_of_not_issued ha hp (Move.handles_of_asks _ hask) hask hi hn
  case gone => exact (ha.backed.change_without hm).grantAt_released

/-- The sample host can release its benchmark, and nothing but the benchmark goes. -/
theorem resolutionLaw_sample : sample.Reachable ∧
    (Call.destroy sampleBenchmark).attempt sample.world =
      (.ok ⟨.ok (.code .success), .destroy sampleBenchmark⟩,
        sample.world.without sampleBenchmark.pointer) :=
  ⟨reachable_sample, reachable_sample.resolutionLaw.destroyed sampleBenchmark (by decide)⟩

end Host

end HandleBench
