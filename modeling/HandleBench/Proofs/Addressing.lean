import HandleBench.Proofs.WordProducts

/-!
# The arithmetic that creating covers

The backend of matrix products checks three sizes when a benchmark is created, and multiplies sizes
and cuts slices later on without a check, also on payloads that other benchmarks of the session have
made. `Host.Reachable.addressingLaw` shows that this is enough. However a host drives the benchmarks
of a session, each payload is of the shape of one of the products that the checks have let through,
and what is computed from it in machine words is what the library computes with numbers of any size.
-/

namespace HandleBench

/-! ### Acts that do not panic -/

/-- Wherever the act is carried out, it does not panic. -/
def Act.Calm {σ α : Type} (act : Act σ α) : Prop :=
  ∀ s message, (act s).1 ≠ .error (.panicked message)

namespace Act.Calm

variable {σ α β : Type} {act : Act σ α}

theorem of_tame {act : Act World α} (h : act.Tame False) : act.Calm := by
  intro w message hpanic
  exact (h w).2 _ hpanic

protected theorem pure (a : α) : (pure a : Act σ α).Calm := by
  intro s message h
  cases h

theorem ofExcept (e : Except Failure α) : (Act.ofExcept e : Act σ α).Calm := by
  intro s message h
  cases e <;> cases h

theorem bind {next : α → Act σ β} (h : act.Calm) (hn : ∀ a, (next a).Calm) :
    (act >>= next).Calm := by
  intro s message hpanic
  rw [bind_apply] at hpanic
  cases ha : act s with
  | mk outcome s' =>
    rw [ha] at hpanic
    cases outcome with
    | ok a => exact hn a s' message hpanic
    | error reason =>
      cases hpanic
      exact h s message (by rw [ha])

theorem onWorld {act : Act World α} (h : act.Calm) : (Frame.onWorld act).Calm := by
  intro f message hpanic
  rw [Frame.onWorld_apply] at hpanic
  exact h f.world message hpanic

theorem write (memory : Call) : (Frame.write memory).Calm := by
  intro f message h
  cases h

theorem require {slot : Slot α} (name : String) : (Call.require slot name).Calm := by
  intro f message h
  cases slot <;> cases h

end Act.Calm

namespace Call

variable {w : World} {c : Call} {h : Handle} {a : Nat} {id : SessionId} {p : Product}

open Act (Calm)

/-- No exported call to a benchmark of a matrix product panics, whatever is in the host memory. -/
theorem body_calm (hl : c.lead = some (.benchmark, h)) (hd : c ≠ destroy h)
    (hf : Benchmark.Found w h (a, ⟨id, .product p⟩)) (message : String) :
    (c.body ⟨w, none, c⟩).1 ≠ .error (.panicked message) := by
  have bound : ∀ next : Nat × Benchmark → Act Frame Answer,
      (next (a, ⟨id, .product p⟩)).Calm →
        ((Frame.bindBenchmark h >>= next) ⟨w, none, c⟩).1 ≠ .error (.panicked message) := by
    intro next hn
    rw [Act.bind_of_ok (Frame.bindBenchmark_eq hf)]
    exact hn _ message
  let b : Benchmark := ⟨id, .product p⟩
  have done : ∀ (memory : Call) (answer : Answer),
      (do Frame.write memory; return answer : Act Frame Answer).Calm :=
    fun memory answer => .bind (.write memory) fun _ => .pure answer
  have asked : ∀ {α : Type} (slot : Slot α) (name : String),
      (discard (require slot name) : Act Frame PUnit).Calm :=
    fun slot name => .bind (.require name) fun _ => .pure _
  have steady : b.inst.backend.Panics → False := fun h => h
  cases c with
  | destroy h' =>
    cases hl
    exact absurd rfl hd
  | concretize h' descriptor =>
    cases hl
    exact bound _ (.bind (.require _) fun raw => .bind (.ofExcept _) fun concrete =>
      .bind (.onWorld (.of_tame (b.concretize_tame a concrete))) fun _ => .pure _)
  | encode h' packs slot =>
    cases hl
    exact bound _ (.bind (.require _) fun memory => .bind (asked _ _) fun _ =>
      .bind (.ofExcept _) fun read =>
        .bind (.onWorld (.of_tame (b.encode_tame read))) fun made => done _ _)
  | decode h' source packs =>
    cases hl
    exact bound _ (.bind (.require _) fun memory => .bind (.ofExcept _) fun before =>
      .bind (.onWorld (.of_tame (b.decode_tame source before))) fun after => done _ _)
  | encrypt h' source slot =>
    cases hl
    exact bound _ (.bind (asked _ _) fun _ =>
      .bind (.onWorld (.of_tame (b.encrypt_tame source))) fun made => done _ _)
  | decrypt h' source slot =>
    cases hl
    exact bound _ (.bind (asked _ _) fun _ =>
      .bind (.onWorld (.of_tame (b.decrypt_tame source))) fun made => done _ _)
  | load h' sources slot =>
    cases hl
    exact bound _ (.bind (asked _ _) fun _ => .bind (.ofExcept _)
      fun read => .bind (.onWorld (.of_tame (b.load_tame read))) fun made => done _ _)
  | store h' result slots =>
    cases hl
    exact bound _ (.bind (.ofExcept _) fun before =>
      .bind (.onWorld (.of_tame (b.store_tame result before))) fun stored => done _ _)
  | operate h' loaded selections slot =>
    cases hl
    exact bound _ (.bind (asked _ _) fun _ => .bind (.ofExcept _)
      fun read => .bind (.onWorld (.of_tame (b.operate_tame loaded read steady))) fun made =>
        done _ _)
  | _ => cases hl

end Call

/-! ### Sessions of matrix products -/

namespace Host

variable {s : Host} {ms : List Move} {h b x : Handle} {e : Engine} {id : SessionId} {a root : Nat}
  {p : Product} {job : Job} {notes : Notes}

/-- The payload behind an object of the session is of the shape of a sound product. -/
theorem shapes_of_held (ht : s.Traced id notes) (hn : notes.Sound)
    (hx : (x, .object id root) ∈ s.ledger.held) :
    ∃ (q : Product) (components : List (List (Matrix Binary64))), q.Sound ∧ q.Shapes components ∧
      s.world.value? x = some ⟨.matrices, components⟩ := by
  obtain ⟨o, value, ho, hv, hst⟩ := ht x root hx
  obtain ⟨q, components, hq, hshapes, rfl⟩ := hst.shapes (hn x o ho)
  exact ⟨q, components, hq, hshapes, hv⟩

/-- So is what a benchmark of the session retrieves from a handle that the host may pass. -/
theorem Reachable.shapes_of_retrieve (hs : s.Reachable) (ht : s.Traced id notes)
    (hn : notes.Sound) (hk : s.ledger.Knows x) {required : Tag}
    {components : List (List (Matrix Binary64))} {w' : World}
    (hr : Object.retrieve id x required .matrices s.world = (.ok components, w')) :
    ∃ q : Product, q.Sound ∧ q.Shapes components := by
  obtain ⟨-, hread, hv⟩ := (Object.retrieve_atomic s.world id x required .matrices).of_ok hr
  obtain ⟨-, g, hg, hgs⟩ := (Object.retrieve_owned s.world id x required .matrices).of_ok hr
  obtain ⟨g', hg', hkind⟩ := hread.2 (by simp)
  obtain rfl : g = g' := Option.some.inj (hg.symm.trans hg')
  have hheld := hs.agrees.backed.held_of_leads hk hg
  cases g with
  | object session root =>
    obtain rfl : session = id := hgs
    obtain ⟨q, components', hq, hshapes, hvalue⟩ := shapes_of_held ht hn hheld
    rw [hvalue] at hv
    obtain rfl : components' = components := Option.some.inj hv
    exact ⟨q, hq, hshapes⟩
  | _ => cases hkind

/-- A job that a benchmark of the session is given comes out in machine words as in the library. -/
theorem Reachable.carryOutInWords_eq (hs : s.Reachable) (ht : s.Traced id notes)
    (hn : notes.Sound) (hf : Benchmark.Found s.world b (a, ⟨id, .product p⟩))
    (hk : ∀ x ∈ job.handles, s.ledger.Knows x) :
    p.carryOutInWords a id job s.world = Benchmark.carryOut a ⟨id, .product p⟩ job s.world := by
  cases job with
  | encode packs =>
    have hp : p.Sound :=
      hs.soundProducts (.cell a) id p (World.benchmarkAt_of_cell hf.cell)
    show (p.encodeInWords id packs >>= _) s.world = _
    rw [Product.encodeInWords_eq hp]
    rfl
  | operate loaded selections =>
    have hoperate := Product.operateInWords_eq (p := p) (w := s.world)
      (fun components w' hr => hs.shapes_of_retrieve ht hn (hk loaded List.mem_cons_self) hr)
      selections
    show (p.operateInWords id loaded selections >>= _) s.world = _
    rw [Act.bind_apply, hoperate]
    rfl
  | _ => rfl

/-- How the checks at creation cover the arithmetic in the session of an engine. -/
structure AddressingLaw (s : Host) (e : Engine) : Prop where
  /-- A product is made of exactly the parameters that are admitted. -/
  admits : ∀ descriptor params,
    (∃ p, Product.ofParams descriptor params = .ok p) ↔ Product.Admits params
  /-- All others are refused as invalid arguments. -/
  refuses : ∀ descriptor params, ¬ Product.Admits params →
    ∃ failure, Product.ofParams descriptor params = .error failure ∧ failure.code = .invalidArgs
  /-- Every benchmark of the session is a product that the checks have let through. -/
  sound : ∀ b a inst, Benchmark.Found s.world b (a, ⟨e.session, inst⟩) →
    ∃ p, inst = .product p ∧ p.Sound
  /-- Every matrix in every payload of the session is full, and a word can count its octets. -/
  full : ∀ x root, (x, .object e.session root) ∈ s.ledger.held →
    ∃ components : List (List (Matrix Binary64)),
      s.world.value? x = some ⟨.matrices, components⟩ ∧
        ∀ ms ∈ components, ∀ m ∈ ms, m.entries.length = m.rows * m.cols ∧
          m.rows * m.cols * 8 < UInt64.size
  /-- A job of a benchmark of the session on handles that the host may pass comes out the same in
  machine words, where sizes could overflow and slices could leave their lists, and it does not
  panic. -/
  words : ∀ b a p job, Benchmark.Found s.world b (a, ⟨e.session, .product p⟩) →
    (∀ x ∈ job.handles, s.ledger.Knows x) →
      e.carryOut b job s.world = p.carryOutInWords a e.session job s.world ∧
        ∀ message, (p.carryOutInWords a e.session job s.world).1 ≠ .error (.panicked message)
  /-- Neither does an exported call to such a benchmark. -/
  calls : ∀ (c : Call) (b : Handle) (a : Nat) (p : Product),
    c.lead = some (.benchmark, b) → c ≠ .destroy b →
      Benchmark.Found s.world b (a, ⟨e.session, .product p⟩) →
        ∀ message, (c.body ⟨s.world, none, c⟩).1 ≠ .error (.panicked message)

/-- **The checks at creation cover all later arithmetic.** A host that has an engine of matrix
products and no object of its session makes moves, any at all but those that only a backend makes.
Then the products of the session are those that the checks have let through, what they have made of
the samples of the host are full matrices whose octets a word can count, and no step of any of them
overflows, leaves a list or panics. -/
theorem Reachable.addressingLaw (hs : s.Reachable) (he : s.Has h e)
    (hproducts : ∀ d ∈ e.catalog, d.backend = .matrixProduct)
    (hnone : ∀ x root, (x, .object e.session root) ∉ s.ledger.held) (hp : s.PermitsAll ms)
    (hpiped : ∀ m ∈ ms, Piped e.session m) : (s.afterAll ms).AddressingLaw e := by
  have hend := hs.afterAll hp
  have hbegin : s.Traced e.session fun _ => none := fun x root hx => absurd hx (hnone x root)
  obtain ⟨hw, ht⟩ := hs.traced_afterAll hp hpiped (hs.productsOnly he hproducts) hbegin
  have hn : (s.notedAll (fun _ => none) ms).Sound :=
    hs.soundNotes hp fun x o ho => (by cases ho)
  constructor
  case admits => exact Product.exists_ofParams_iff
  case refuses =>
    intro descriptor params hadmits
    cases hparams : Product.ofParams descriptor params with
    | ok p => exact absurd ((Product.exists_ofParams_iff descriptor params).1 ⟨p, hparams⟩) hadmits
    | error failure =>
      have hshape := Product.ofParams_failure descriptor params failure hparams
      exact ⟨failure, rfl, Failure.code_of_isOfShape hshape⟩
  case sound =>
    intro b a inst hf
    have hb := World.benchmarkAt_of_cell hf.cell
    obtain ⟨p, heq⟩ := hw.instance_eq hb rfl
    cases heq
    exact ⟨p, rfl, hend.soundProducts _ _ p hb⟩
  case full =>
    intro x root hx
    obtain ⟨q, components, hq, hshapes, hv⟩ := shapes_of_held ht hn hx
    exact ⟨components, hv, hshapes.full hq⟩
  case words =>
    intro b a p job hf hk
    have hsame := hend.carryOutInWords_eq ht hn hf hk
    have hown : (e.own b >>= fun found => found.2.carryOut found.1 job) (s.afterAll ms).world =
        Benchmark.carryOut a ⟨e.session, .product p⟩ job (s.afterAll ms).world :=
      Act.bind_of_ok (Engine.own_eq hf rfl)
    refine ⟨?_, fun message hpanic => ?_⟩
    · rw [hsame, Engine.carryOut_eq, hown]
    · rw [hsame] at hpanic
      exact Act.Calm.of_tame (Benchmark.carryOut_tame ⟨e.session, .product p⟩ a job fun h => h)
        _ message hpanic
  case calls => exact fun c b a p hl hd hf message => Call.body_calm hl hd hf message

/-- Numbers and squares in one session: whatever is loaded and whichever benchmark multiplies it,
nothing overflows. -/
theorem addressingLaw_loadingNumbers :
    multiplierEngine.carryOut squareBenchmark (.operate loadedNumbers [⟨0, 1⟩, ⟨0, 1⟩])
        (multiplier.afterAll loadingNumbers).world =
      squareProduct.carryOutInWords 2 multiplierEngine.session
        (.operate loadedNumbers [⟨0, 1⟩, ⟨0, 1⟩]) (multiplier.afterAll loadingNumbers).world ∧
    ∃ components : List (List (Matrix Binary64)),
      (multiplier.afterAll loadingNumbers).world.value? loadedNumbers =
        some ⟨.matrices, components⟩ ∧
      ∀ ms ∈ components, ∀ m ∈ ms, m.entries.length = m.rows * m.cols ∧
        m.rows * m.cols * 8 < UInt64.size := by
  have he : multiplier.Has sampleEngine multiplierEngine :=
    ⟨List.mem_cons_of_mem _ List.mem_cons_self, rfl⟩
  have hnone : ∀ x root, (x, .object multiplierEngine.session root) ∉ multiplier.ledger.held := by
    simp [held_multiplier]
  have law := reachable_multiplier.addressingLaw he (by decide) hnone
    (show multiplier.PermitsAll loadingNumbers by decide) (by decide)
  exact ⟨(law.words squareBenchmark 2 squareProduct _ found_square (by decide)).1,
    law.full loadedNumbers 0 held_loadedNumbers⟩

end Host

end HandleBench
