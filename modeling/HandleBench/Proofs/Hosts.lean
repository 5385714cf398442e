import HandleBench.Proofs.Ledger

/-!
# Hosts

A host makes moves, one after the other, and passes only handles that it was given and has not
released, or null ones. Whatever it does in whatever order, its books agree with the world; this is
shown for one move and, by induction, for every run.
-/

namespace HandleBench

/-- The world with the books of its host. -/
structure Host where
  /-- The world. -/
  world : World
  /-- The books. -/
  ledger : Ledger

namespace Host

/-- Before the first move. -/
def initial : Host := ⟨.empty, .empty⟩

/-- The host keeps to what it was given. -/
def Permits (s : Host) (m : Move) : Prop := ∀ h ∈ m.handles, s.ledger.Knows h

instance (s : Host) (m : Move) : Decidable (s.Permits m) :=
  inferInstanceAs (Decidable (∀ h ∈ m.handles, s.ledger.Knows h))

/-- After a move; one that fails is not entered into the books. -/
def after (s : Host) (m : Move) : Host :=
  match m.perform s.world with
  | (.ok event, w) => ⟨w, s.ledger.enter event⟩
  | (.error _, w) => ⟨w, s.ledger⟩

/-- What a host can arrive at. -/
inductive Reachable : Host → Prop where
  /-- The beginning. -/
  | initial : Reachable initial
  /-- One move further. -/
  | after {s : Host} {m : Move} (hs : Reachable s) (hm : s.Permits m) : Reachable (s.after m)

variable {s : Host} {m : Move} {h : Handle}

theorem after_of_ok {event : Event} {w : World} (h : m.perform s.world = (.ok event, w)) :
    s.after m = ⟨w, s.ledger.enter event⟩ := by
  rw [after, h]

theorem after_of_error {reason : Stop} {w : World} (h : m.perform s.world = (.error reason, w)) :
    s.after m = ⟨w, s.ledger⟩ := by
  rw [after, h]

theorem agrees_initial : initial.ledger.Agrees initial.world := by
  refine ⟨⟨?_, ?_, ?_, ?_, ?_, ?_⟩, ⟨?_, ?_, ?_⟩⟩
  · simp [initial, Ledger.empty]
  · intro p g hp
    cases p <;> cases hp
  · simp [initial, Ledger.empty]
  · simp [initial, Ledger.empty]
  · simp [initial, Ledger.empty]
  · simp [initial, Ledger.empty]
  · simp [initial, Ledger.empty, World.empty]
  · simp [initial, Ledger.empty]
  · simp [initial, Ledger.empty]

/-- A move leaves the books in agreement with the world. -/
theorem agrees_after (ha : s.ledger.Agrees s.world) (hm : s.Permits m) :
    (s.after m).ledger.Agrees (s.after m).world := by
  cases hp : m.perform s.world with
  | mk result w =>
    cases result with
    | ok event =>
      rw [after_of_ok hp]
      have hg := (m.perform_given s.world).of_ok hp
      exact ha.enter ((m.perform_ends s.world).of_ok hp).1 fun x hx => hm x (hg x hx)
    | error reason =>
      -- a call that fails may have changed the last error, which the books say nothing of
      rw [after_of_error hp]
      obtain ⟨hc, hpay, -⟩ := (m.perform_ends s.world).of_error hp
      exact ⟨ha.backed.congr (World.grantAt_congr hc), ha.counted.congr hpay⟩

/-- After every run the books agree with the world. -/
theorem Reachable.agrees (hs : s.Reachable) : s.ledger.Agrees s.world := by
  induction hs with
  | initial => exact agrees_initial
  | after _ hm ih => exact agrees_after ih hm

/-- Whatever a host may pass is honest. -/
theorem Reachable.honest (hs : s.Reachable) (hm : s.Permits m) :
    ∀ x ∈ m.handles, s.world.Honest x :=
  fun x hx => hs.agrees.backed.honest (hm x hx)

/-! ### A host in the middle of its work -/

/-- The engine of the sample host. -/
def sampleEngine : Handle := ⟨.cell 0, 0, .engine⟩

/-- Its benchmark. -/
def sampleBenchmark : Handle := ⟨.cell 1, 0, .instanceBits⟩

/-- What it has encoded. -/
def sampleEncoded : Handle := ⟨.cell 2, 0, .object ||| Carrier.dataBit⟩

/-- What it has encrypted. -/
def sampleEncrypted : Handle := ⟨.cell 3, 0, .object ||| Carrier.dataBit⟩

/-- A host that has made an engine of a byte carrier, asked for its catalog, created a benchmark,
encoded no samples and encrypted them. -/
def sample : Host :=
  ((((initial.after (.make .unset
    ⟨[.bare .plain (.byteCarrier (.named "mock"))], .empty, .empty, .empty⟩)).after
    (.method sampleEngine .entries)).after
    (.method sampleEngine (.create (.descriptor 0) none))).after
    (.method sampleEngine (.give sampleBenchmark (.encode [])))).after
    (.call (.encrypt sampleBenchmark sampleEncoded (some .null)))

theorem held_sample : sample.ledger.held =
    [(sampleEncrypted, .object 0 0), (sampleEncoded, .object 0 0),
      (sampleBenchmark, .benchmark 0), (sampleEngine, .engine 0)] := rfl

theorem reachable_sample : sample.Reachable :=
  ((((Reachable.initial.after (by decide)).after (by decide)).after (by decide)).after
    (by decide)).after (by decide)

end Host

end HandleBench
