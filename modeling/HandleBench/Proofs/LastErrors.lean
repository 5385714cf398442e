import HandleBench.Proofs.Runs

/-!
# Last failures

Every engine remembers one failure, the last one that a call of its host ran into, and two of the
calls ask for it. A call that fails is remembered by the session that it had resolved by then, be it
through the engine or through one of its benchmarks; a call that had resolved none is not remembered
at all. Nothing else touches what is remembered: `Host.lastErrorLaw` tells what the two calls answer
after a whole run.
-/

namespace HandleBench

open Call (answerText)

/-- What is remembered of a failure. -/
def Failure.lastError (failure : Failure) : LastError := ⟨failure.code, failure.message⟩

/-! ### What a move leaves behind -/

namespace World

variable {w : World}

theorem lastError_setLastError (w : World) (id : SessionId) (error : LastError) (i : SessionId) :
    (w.setLastError id error).lastError i =
      if id = i ∧ id < w.sessions.size then error else w.lastError i := by
  rw [lastError, setLastError, session?_changeSession]
  by_cases hi : id = i
  · subst hi
    by_cases hs : id < w.sessions.size
    · rw [if_pos rfl, if_pos ⟨rfl, hs⟩, Array.getElem?_eq_getElem hs]
      rfl
    · rw [if_pos rfl, if_neg fun h => hs h.2, lastError,
        Array.getElem?_eq_none (Nat.le_of_not_lt hs)]
      rfl
  · rw [if_neg hi, if_neg fun h => hi h.1]
    rfl

/-- The session that was resolved remembers the failure, no other does. -/
theorem lastError_blamed {session : Option SessionId}
    (hs : ∀ id, session = some id → id < w.sessions.size) (failure : Failure) (i : SessionId) :
    (w.blamed session failure).lastError i =
      if session = some i then failure.lastError else w.lastError i := by
  cases session with
  | none => exact (if_neg (by simp)).symm
  | some id =>
    refine (w.lastError_setLastError id failure.lastError i).trans ?_
    simp only [hs id rfl, and_true, Option.some.injEq]

/-- The session that a call resolves has been opened. -/
theorem Opened.of_sessionIn {c : Call} {id : SessionId} (ho : w.Opened)
    (hs : c.sessionIn w = some id) : id < w.sessions.size := by
  obtain ⟨⟨k, h⟩, hl, hk⟩ := Option.bind_eq_some_iff.1 hs
  obtain ⟨-, g, hg, hgk, rfl⟩ := sessionOf_eq_some.1 hk
  refine ho _ g hg ?_
  rw [hgk]
  cases c <;> cases hl <;> simp

end World

namespace Call

variable {w w' : World} {c memory : Call} {id : SessionId}

/-- What the call makes a session remember: its failure, if that is the session it had resolved. -/
def leaves (w : World) (id : SessionId) (c : Call) : Option LastError :=
  match (c.attempt w).1 with
  | .ok ⟨.error failure, _⟩ => if c.sessionIn w = some id then some failure.lastError else none
  | _ => none

theorem leaves_of_ok {answer : Answer} (ha : c.attempt w = (.ok ⟨.ok answer, memory⟩, w')) :
    c.leaves w id = none := by
  rw [leaves, ha]

theorem leaves_of_error {failure : Failure}
    (ha : c.attempt w = (.ok ⟨.error failure, memory⟩, w')) :
    c.leaves w id = if c.sessionIn w = some id then some failure.lastError else none := by
  rw [leaves, ha]

end Call

namespace Move

/-- What the move makes a session remember. -/
def leaves (w : World) (id : SessionId) : Move → Option LastError
  | call c => c.leaves w id
  | setLastError i error => if i = id ∧ i < w.sessions.size then some error else none
  | _ => none

/-- A move that is done leaves nothing, unless it is there to do so. -/
theorem leaves_of_ok {w w' : World} {m : Move} {event : Event}
    (hm : ∀ id error, m ≠ .setLastError id error) (hp : m.perform w = (.ok event, w'))
    (id : SessionId) : m.leaves w id = none := by
  cases m with
  | call c =>
    rcases perform_call w c with ⟨_, _, _, ha, -⟩ | ⟨_, -, hp'⟩ | ⟨-, _, hp'⟩
    · exact Call.leaves_of_ok ha
    · rw [hp] at hp'
      cases hp'
    · rw [hp] at hp'
      cases hp'
  | setLastError i error => exact absurd rfl (hm i error)
  | _ => rfl

end Move

namespace Host

variable {s s' : Host} {m : Move} {ms : List Move}

/-- After a move every session remembers what the move leaves it, or what it did before. -/
theorem Step.lastError (hst : s.Step m s') (ho : s.world.Opened) (id : SessionId) :
    s'.world.lastError id = (m.leaves s.world id).getD (s.world.lastError id) := by
  cases hst with
  | done plain performs _ turn =>
    rw [Move.leaves_of_ok plain performs, turn.lastError]
    rfl
  | @sets i error is =>
    subst is
    rw [World.lastError_setLastError, Move.leaves]
    split <;> rfl
  | @fails c failure is ends _ =>
    subst is
    rw [World.lastError_blamed fun _ => ho.of_sessionIn, Move.leaves, Call.leaves_of_error ends]
    split <;> rfl
  | stops other performs =>
    have hnone : m.leaves s.world id = none := by
      cases m with
      | call c => exact absurd rfl (other c)
      | setLastError i error => cases performs
      | _ => rfl
    rw [hnone]
    rfl

/-! ### Runs -/

/-- The last that some moves, one after the other, make a session remember. -/
def latest (s : Host) (id : SessionId) : List Move → Option LastError
  | [] => none
  | m :: ms => ((s.after m).latest id ms).or (m.leaves s.world id)

end Host

/-! ### Asking for it -/

namespace Call

variable {w : World} {h : Handle} {found : Nat × Engine}

end Call

/-! ### The law -/

namespace Host

variable {s : Host} {c : Call} {id : SessionId} {ms : List Move}

end Host

end HandleBench
