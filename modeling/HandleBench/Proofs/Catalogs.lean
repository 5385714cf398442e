import HandleBench.Proofs.Deeds

/-!
# Catalogs and what runs

Engines come with sessions of their own, so a session has one engine at most, and a benchmark is
made by an engine, of a description in its catalog. Wherever a host arrives, the benchmarks of a
session therefore run on backends of the catalog of its engine, `Host.Reachable.catalogued`. The
only thing to look at are cells: what is at an address after a deed was there before, or it is one
of the few things that deeds bring.
-/

namespace HandleBench

/-! ### Cells -/

/-- The benchmark in a cell. -/
def Cell.benchmark? : Cell → Option Benchmark
  | .benchmark b => some b
  | _ => none

namespace World

/-- The benchmark that a pointer leads to. -/
def benchmarkAt (w : World) : Pointer → Option Benchmark := w.view Cell.benchmark?

variable {w w' : World} {id : SessionId} {a : Nat} {c : Cell} {p : Pointer} {e : Engine}
  {b : Benchmark}

/-- What a deed in a session can put at an address. -/
inductive Brings (w w' : World) (id : SessionId) (a : Nat) : Cell → Prop where
  /-- A new engine. -/
  | engine {e : Engine} (new : id = w.sessions.size) (own : e.session = id)
    (fresh : a = w.cells.size) : Brings w w' id a (.engine e)
  /-- A new benchmark. -/
  | benchmark {p : Pointer} {e : Engine} {d : Description} {params : Option (List Param)}
    {inst : Instance} (maker : w.engine? p = some e) (own : e.session = id)
    (listed : d ∈ e.catalog) (makes : Benchmark.instantiate d params = .ok inst)
    (fresh : a = w.cells.size) : Brings w w' id a (.benchmark ⟨id, inst⟩)
  /-- A benchmark with a concrete descriptor. -/
  | concretized {b : Benchmark} {inst : Instance} (old : w.cells[a]? = some (.benchmark b))
    (own : b.session = id) (bare : inst.bare = b.inst.bare) :
    Brings w w' id a (.benchmark { b with inst })
  /-- The first object of a new payload. -/
  | made {value : Payload} (payloads : w'.payloads = w.payloads.push (some ⟨value, 1⟩)) :
    Brings w w' id a (.object ⟨id, w.payloads.size⟩)
  /-- One more object of a payload. -/
  | shared {h : Handle} {found : Nat × ObjectCell} (finds : Object.Found w id h found) :
    Brings w w' id a (.object found.2)
  /-- Nothing any more. -/
  | released : Brings w w' id a .released

theorem cell_push {cells : Array Cell} {new : Cell} (h : (cells.push new)[a]? = some c) :
    cells[a]? = some c ∨ a = cells.size ∧ c = new := by
  rw [Array.getElem?_push] at h
  split at h
  · next ha =>
    cases h
    exact .inr ⟨ha, rfl⟩
  · exact .inl h

theorem cell_set {cells : Array Cell} {b : Nat} {new : Cell}
    (h : (cells.setIfInBounds b new)[a]? = some c) : cells[a]? = some c ∨ a = b ∧ c = new := by
  rw [Array.getElem?_setIfInBounds] at h
  split at h
  · next hab =>
    split at h
    · cases h
      exact .inr ⟨hab.symm, rfl⟩
    · cases h
  · exact .inl h

/-- What is at an address after a deed was there before, or the deed has brought it. -/
theorem Deed.cell_new (hd : w.Deed id w') (hc : w'.cells[a]? = some c) :
    w.cells[a]? = some c ∨ w.Brings w' id a c := by
  cases hd with
  | nothing => exact .inl hc
  | edited => exact .inl hc
  | opened => exact .inl hc
  | engine errors e new own =>
    rcases cell_push hc with h | ⟨ha, rfl⟩
    · exact .inl h
    · exact .inr (.engine new own ha)
  | benchmark inst maker own listed makes =>
    rcases cell_push hc with h | ⟨ha, rfl⟩
    · exact .inl h
    · exact .inr (.benchmark maker own listed makes ha)
  | concretized inst finds own bare =>
    rcases cell_set hc with h | ⟨rfl, rfl⟩
    · exact .inl h
    · exact .inr (.concretized finds.cell own bare)
  | made =>
    rcases cell_push hc with h | ⟨-, rfl⟩
    · exact .inl h
    · exact .inr (.made rfl)
  | shared finds =>
    rcases cell_push hc with h | ⟨-, rfl⟩
    · exact .inl h
    · exact .inr (.shared finds)
  | passed finds =>
    rcases cell_set hc with h | ⟨-, rfl⟩
    · rcases cell_push h with h | ⟨-, rfl⟩
      · exact .inl h
      · exact .inr (.shared finds)
    · exact .inr .released
  | dropped | freed | closed =>
    rcases cell_set hc with h | ⟨-, rfl⟩
    · exact .inl h
    · exact .inr .released

theorem cell_of_engine? (he : w.engine? p = some e) :
    ∃ a, p = .cell a ∧ w.cells[a]? = some (.engine e) := by
  cases p with
  | word => cases he
  | cell a =>
    obtain ⟨c, hc, hce⟩ := Option.bind_eq_some_iff.1 he
    cases c with
    | engine e' =>
      cases hce
      exact ⟨a, rfl, hc⟩
    | _ => cases hce

theorem cell_of_benchmarkAt (hb : w.benchmarkAt p = some b) :
    ∃ a, p = .cell a ∧ w.cells[a]? = some (.benchmark b) := by
  cases p with
  | word => cases hb
  | cell a =>
    obtain ⟨c, hc, hcb⟩ := Option.bind_eq_some_iff.1 hb
    cases c with
    | benchmark b' =>
      cases hcb
      exact ⟨a, rfl, hc⟩
    | _ => cases hcb

theorem benchmarkAt_of_cell (hc : w.cells[a]? = some (.benchmark b)) :
    w.benchmarkAt (.cell a) = some b := by
  simp [benchmarkAt, view, hc, Cell.benchmark?]

theorem engine?_of_cell (hc : w.cells[a]? = some (.engine e)) : w.engine? (.cell a) = some e := by
  simp [engine?, view, hc, Cell.engine?]

/-! ### Engines and their catalogs -/

/-- Engines have sessions of their own, and the benchmarks of a session run on backends that are in
the catalog of its engine, if that is still there. -/
structure Catalogued (w : World) : Prop where
  /-- No two engines have the same session. -/
  sole : ∀ p p' e e', w.engine? p = some e → w.engine? p' = some e' → e.session = e'.session →
    p = p'
  /-- Each benchmark runs on a backend of the catalog. -/
  listed : ∀ p p' b e, w.benchmarkAt p = some b → w.engine? p' = some e → b.session = e.session →
    ∃ d ∈ e.catalog, b.inst.backend = d.backend

/-- An engine that is there after a deed was there before, or it is the one of a new session. -/
theorem Deed.engine_new (hd : w.Deed id w') (he : w'.engine? p = some e) :
    w.engine? p = some e ∨ e.session = w.sessions.size ∧ p = .cell w.cells.size := by
  obtain ⟨a, rfl, hc⟩ := cell_of_engine? he
  rcases hd.cell_new hc with hold | hnew
  · exact .inl (engine?_of_cell hold)
  · cases hnew with
    | engine new own fresh => exact .inr ⟨own.trans new, congrArg _ fresh⟩

/-- A benchmark that is there after a deed was there before, with the same backend, or an engine of
its session has made it. -/
theorem Deed.benchmark_new (hd : w.Deed id w') (hb : w'.benchmarkAt p = some b) :
    (∃ b', w.benchmarkAt p = some b' ∧ b'.session = b.session ∧
      b.inst.backend = b'.inst.backend) ∨
    ∃ p' e, w.engine? p' = some e ∧ e.session = b.session ∧
      ∃ d ∈ e.catalog, b.inst.backend = d.backend := by
  obtain ⟨a, rfl, hc⟩ := cell_of_benchmarkAt hb
  rcases hd.cell_new hc with hold | hnew
  · exact .inl ⟨b, benchmarkAt_of_cell hold, rfl, rfl⟩
  · cases hnew with
    | benchmark maker own listed makes =>
      exact .inr ⟨_, _, maker, own, _, listed, Benchmark.backend_of_instantiate makes⟩
    | concretized old own bare =>
      exact .inl ⟨_, benchmarkAt_of_cell old, rfl, Instance.backend_of_bare bare⟩

/-- A benchmark that is there after a deed, at an address that is not new, was there before, and a
concrete descriptor is all that it has been given. -/
theorem Deed.benchmark_kept (hd : w.Deed id w') (ha : a < w.cells.size)
    (hb : w'.benchmarkAt (.cell a) = some b) :
    ∃ b', w.benchmarkAt (.cell a) = some b' ∧ b.bare = b'.bare := by
  obtain ⟨_, hp, hc⟩ := cell_of_benchmarkAt hb
  obtain rfl := Pointer.cell.inj hp
  rcases hd.cell_new hc with hold | hnew
  · exact ⟨b, benchmarkAt_of_cell hold, rfl⟩
  · cases hnew with
    | benchmark _ _ _ _ fresh => exact absurd fresh (Nat.ne_of_lt ha)
    | concretized old own bare =>
      exact ⟨_, benchmarkAt_of_cell old, Benchmark.bare_eq_iff.2 ⟨rfl, bare⟩⟩

/-- Addresses stay, whatever is there. -/
theorem Deed.size_cells (hd : w.Deed id w') : w.cells.size ≤ w'.cells.size := by
  cases hd <;> simp [changeSession, share, Object.release, Benchmark.release, releaseSlot,
    dropHolder, addHolder, clear]

theorem Opened.of_benchmark (ho : w.Opened) (hb : w.benchmarkAt p = some b) :
    b.session < w.sessions.size := by
  obtain ⟨a, rfl, hc⟩ := cell_of_benchmarkAt hb
  exact ho (.cell a) _ (grantAt_cell rfl hc) (by simp)

/-- Deeds leave benchmarks with the backends of their engines. -/
theorem Deed.catalogued (hd : w.Deed id w') (ho : w.Opened) (hw : w.Catalogued) :
    w'.Catalogued := by
  constructor
  case sole =>
    intro p p' e e' he he' hs
    rcases hd.engine_new he with hold | ⟨hnew, hp⟩
    · rcases hd.engine_new he' with hold' | ⟨hnew', -⟩
      · exact hw.sole p p' e e' hold hold' hs
      · exact absurd (hs.trans hnew') (Nat.ne_of_lt (ho.of_engine hold))
    · rcases hd.engine_new he' with hold' | ⟨-, hp'⟩
      · exact absurd (hs.symm.trans hnew) (Nat.ne_of_lt (ho.of_engine hold'))
      · rw [hp, hp']
  case listed =>
    intro p p' b e hb he hs
    rcases hd.benchmark_new hb with ⟨b', hb', hs', hr⟩ | ⟨p'', e', he', hs', hlisted⟩
    · rcases hd.engine_new he with hold | ⟨hnew, -⟩
      · obtain ⟨d, hd, hr'⟩ := hw.listed p p' b' e hb' hold (hs'.trans hs)
        exact ⟨d, hd, hr.trans hr'⟩
      · exact absurd ((hs'.trans hs).trans hnew) (Nat.ne_of_lt (ho.of_benchmark hb'))
    · rcases hd.engine_new he with hold | ⟨hnew, -⟩
      · -- the engine that has made the benchmark is the one that is asked about
        obtain rfl := hw.sole p'' p' e' e he' hold (hs'.trans hs)
        rw [he'] at hold
        cases hold
        exact hlisted
      · exact absurd ((hs'.trans hs).trans hnew) (Nat.ne_of_lt (ho.of_engine he'))

end World

namespace Host

variable {s : Host}

/-- Wherever a host arrives, benchmarks run on backends of the catalogs of their engines. -/
theorem Reachable.catalogued (hs : s.Reachable) : s.world.Catalogued := by
  induction hs with
  | initial =>
    constructor
    case sole =>
      intro p p' e e' he
      cases p <;> cases he
    case listed =>
      intro p p' b e hb
      cases p <;> cases hb
  | after hs hm ih =>
    rcases hs.deed hm with hw | ⟨id, -, hd⟩
    · rwa [hw]
    · exact hd.catalogued hs.opened ih

end Host

end HandleBench
