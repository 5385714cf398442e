import HandleBench.Proofs.Releases
import HandleBench.Proofs.Turns

/-!
# Runs of a host

What becomes of a host with a move is one of four things: the move is done, or it sets a last
failure, or it is a call that fails and is recorded, or it fails without a trace. This is
`Host.Step`, shown once for every move that a host may make, `Host.Reachable.step`. What is kept by
a step is kept by a run of moves.
-/

namespace HandleBench

namespace World

variable {w w' : World} {event : Event} {p : Pointer} {g : Grant} {e : Engine}

/-- The session of every engine and of every benchmark has been opened. -/
def Opened (w : World) : Prop :=
  ∀ p g, w.grantAt p = some g → g.kind ≠ .object → g.session < w.sessions.size

theorem grantAt_of_engine? (he : w.engine? p = some e) :
    w.grantAt p = some (.engine e.session) := by
  cases p with
  | word => cases he
  | cell a =>
    obtain ⟨c, hc, hce⟩ := Option.bind_eq_some_iff.1 he
    cases c with
    | engine e' =>
      cases hce
      exact grantAt_cell rfl hc
    | _ => cases hce

theorem Opened.of_engine (ho : w.Opened) (he : w.engine? p = some e) :
    e.session < w.sessions.size :=
  ho p _ (grantAt_of_engine? he) (by simp)

/-- An engine or a benchmark that is there was there before, or it has come with the event. -/
theorem Change.grantAt_new (hc : w.Change w' event) (hg : w'.grantAt p = some g)
    (hk : g.kind ≠ .object) :
    w.grantAt p = some g ∨ (∃ h, event = .engine h g.session) ∨
      ∃ h, event = .benchmark h g.session := by
  cases hc with
  | nothing grants _ =>
    rw [grants] at hg
    exact .inl hg
  | passed _ grants _ =>
    rw [grants] at hg
    exact .inl hg
  | entries _ grants _ =>
    rw [grants] at hg
    exact .inl hg
  | @engine h session _ gains _ =>
    rw [gains.grantAt] at hg
    split at hg
    · cases hg
      exact .inr (.inl ⟨h, rfl⟩)
    · exact .inl hg
  | @benchmark h session _ gains _ =>
    rw [gains.grantAt] at hg
    split at hg
    · cases hg
      exact .inr (.inr ⟨h, rfl⟩)
    · exact .inl hg
  | created _ gains _ =>
    rw [gains.grantAt] at hg
    split at hg
    · cases hg
      exact absurd rfl hk
    · exact .inl hg
  | shared _ _ gains _ =>
    rw [gains.grantAt] at hg
    split at hg
    · cases hg
      exact absurd rfl hk
    · exact .inl hg
  | released _ grants _ =>
    rw [grants] at hg
    split at hg
    · cases hg
    · exact .inl hg

/-- The session that comes with an engine is a new one. -/
theorem Turn.engine_new {h : Handle} {id : SessionId} (ht : w.Turn w' event)
    (he : event = .engine h id) : id = w.sessions.size ∧ id < w'.sessions.size := by
  subst he
  cases ht with
  | still still _ => exact still.elim
  | engine _ sessions _ =>
    rw [sessions, Array.size_push]
    exact ⟨rfl, Nat.lt_succ_self _⟩

/-- The session that a benchmark comes in is that of an engine with room for it. -/
theorem Turn.benchmark_room {h : Handle} {id : SessionId} (ht : w.Turn w' event)
    (he : event = .benchmark h id) :
    ∃ p e, w.engine? p = some e ∧ e.session = id ∧
      (∀ k, e.settings.maxLive = some k → w.live id < k) ∧ (w.takeSlot id).Quiet w' := by
  cases ht with
  | still still _ =>
    subst he
    exact still.elim
  | @benchmark h' p e maker room quiet =>
    cases he
    exact ⟨p, e, maker, rfl, room, quiet⟩
  | _ => cases he

theorem Turn.opened (ho : w.Opened) (hc : w.Change w' event) (ht : w.Turn w' event) :
    w'.Opened := by
  intro p g hg hk
  rcases hc.grantAt_new hg hk with hold | ⟨h, he⟩ | ⟨h, he⟩
  · exact Nat.lt_of_lt_of_le (ho p g hold hk) ht.size
  · exact (ht.engine_new he).2
  · obtain ⟨p', e, hmaker, hsession, -, -⟩ := ht.benchmark_room he
    rw [← hsession]
    exact Nat.lt_of_lt_of_le (ho.of_engine hmaker) ht.size

/-- Only the sessions matter that are there, not what they hold. -/
theorem Opened.congr (ho : w.Opened) (hg : w'.grantAt = w.grantAt)
    (hs : w'.sessions.size = w.sessions.size) : w'.Opened := by
  intro p g hp hk
  rw [hg] at hp
  rw [hs]
  exact ho p g hp hk

theorem size_blamed (w : World) (session : Option SessionId) (failure : Failure) :
    (w.blamed session failure).sessions.size = w.sessions.size := by
  cases session with
  | none => rfl
  | some id => exact size_changeSession w id _

theorem live_blamed (w : World) (session : Option SessionId) (failure : Failure) :
    (w.blamed session failure).live = w.live := by
  cases session with
  | none => rfl
  | some id => exact live_changeSession fun _ => rfl

theorem engine?_blamed (w : World) (session : Option SessionId) (failure : Failure) :
    (w.blamed session failure).engine? = w.engine? := by
  cases session <;> rfl

/-- The world with another last failure in a session. -/
def setLastError (w : World) (id : SessionId) (error : LastError) : World :=
  w.changeSession id fun s => { s with lastError := error }

theorem size_setLastError (w : World) (id : SessionId) (error : LastError) :
    (w.setLastError id error).sessions.size = w.sessions.size := size_changeSession w id _

theorem live_setLastError (w : World) (id : SessionId) (error : LastError) :
    (w.setLastError id error).live = w.live := live_changeSession fun _ => rfl

end World

namespace Host

variable {s s' : Host} {m : Move} {ms : List Move}

/-- What becomes of a host with a move. -/
inductive Step (s : Host) (m : Move) : Host → Prop where
  /-- The move is done. -/
  | done {event : Event} {w : World} (plain : ∀ id error, m ≠ .setLastError id error)
    (performs : m.perform s.world = (.ok event, w)) (change : s.world.Change w event)
    (turn : s.world.Turn w event) : Step s m ⟨w, s.ledger.enter event⟩
  /-- The move sets a last failure. -/
  | sets {id : SessionId} {error : LastError} (is : m = .setLastError id error) :
    Step s m ⟨s.world.setLastError id error, s.ledger⟩
  /-- The move is a call that fails; the session that was resolved remembers it. -/
  | fails {c : Call} {failure : Failure} (is : m = .call c)
    (ends : c.attempt s.world =
      (.ok ⟨.error failure, c⟩, s.world.blamed (c.sessionIn s.world) failure))
    (performs : m.perform s.world =
      (.error (.refused failure), s.world.blamed (c.sessionIn s.world) failure)) :
    Step s m ⟨s.world.blamed (c.sessionIn s.world) failure, s.ledger⟩
  /-- The move is no call and fails without a trace. -/
  | stops {reason : Stop} (other : ∀ c, m ≠ .call c)
    (performs : m.perform s.world = (.error reason, s.world)) : Step s m s

/-- Every move that a host may make is such a step. -/
theorem Reachable.step (hs : s.Reachable) (hm : s.Permits m) : s.Step m (s.after m) := by
  by_cases hset : ∃ id error, m = .setLastError id error
  · obtain ⟨id, error, rfl⟩ := hset
    exact .sets rfl
  have plain : ∀ id error, m ≠ .setLastError id error := fun id error h => hset ⟨id, error, h⟩
  have turns := m.perform_turn s.world plain
  by_cases hcall : ∃ c, m = .call c
  · obtain ⟨c, rfl⟩ := hcall
    rcases Move.perform_call s.world c with ⟨_, _, w, -, hp, hc, -⟩ | ⟨failure, ha, hp⟩ | ⟨ht, -⟩
    · rw [after_of_ok hp]
      exact .done plain hp hc (turns.of_ok hp)
    · rw [after_of_error hp]
      exact .fails rfl ha hp
    · exact absurd (hs.honest hm) ht
  · have other : ∀ c, m ≠ .call c := fun c h => hcall ⟨c, h⟩
    cases hp : m.perform s.world with
    | mk result w =>
      cases result with
      | ok event =>
        rw [after_of_ok hp]
        exact .done plain hp ((Move.perform_atomic s.world m other).of_ok hp).1 (turns.of_ok hp)
      | error reason =>
        rw [after_of_error hp]
        obtain ⟨rfl, -⟩ := Act.Ends.of_error (Move.perform_atomic s.world m other) hp
        exact .stops other hp

theorem Step.opened (hst : s.Step m s') (ho : s.world.Opened) : s'.world.Opened := by
  cases hst with
  | done _ _ change turn => exact turn.opened ho change
  | sets => exact ho.congr rfl (World.size_setLastError _ _ _)
  | fails =>
    exact ho.congr (World.grantAt_congr (World.cells_blamed _ _ _)) (World.size_blamed _ _ _)
  | stops => exact ho

/-- No host ever has an engine or a benchmark without a session. -/
theorem Reachable.opened (hs : s.Reachable) : s.world.Opened := by
  induction hs with
  | initial =>
    intro p g hp
    cases p <;> cases hp
  | after hs hm ih => exact (hs.step hm).opened ih

/-- The host holds the handle of the engine. -/
def Has (s : Host) (h : Handle) (e : Engine) : Prop :=
  (h, .engine e.session) ∈ s.ledger.held ∧ s.world.engine? h.pointer = some e

/-- The handle of an engine that the host holds is resolved to it. -/
theorem Reachable.found {h : Handle} {e : Engine} (hs : s.Reachable) (he : s.Has h e) :
    ∃ a, Engine.Found s.world h (a, e) := by
  obtain ⟨⟨a, e'⟩, hf, -⟩ := hs.agrees.backed.engine_found he.1
  obtain rfl : e' = e := Option.some.inj (hf.engine?.symm.trans he.2)
  exact ⟨a, hf⟩

/-! ### Runs -/

/-- After some moves, one after the other. -/
def afterAll (s : Host) : List Move → Host
  | [] => s
  | m :: ms => (s.after m).afterAll ms

/-- The host keeps to what it was given, move after move. -/
def PermitsAll (s : Host) : List Move → Prop
  | [] => True
  | m :: ms => s.Permits m ∧ (s.after m).PermitsAll ms

instance decidablePermitsAll (s : Host) : (ms : List Move) → Decidable (s.PermitsAll ms)
  | [] => inferInstanceAs (Decidable True)
  | m :: ms =>
    have := decidablePermitsAll (s.after m) ms
    inferInstanceAs (Decidable (s.Permits m ∧ (s.after m).PermitsAll ms))

theorem Reachable.afterAll (hs : s.Reachable) (hp : s.PermitsAll ms) :
    (s.afterAll ms).Reachable := by
  induction ms generalizing s with
  | nil => exact hs
  | cons m ms ih => exact ih (hs.after hp.1) hp.2

end Host

end HandleBench
