import HandleBench.Failure

/-!
# Acts

An act works on a state and either yields a value or stops early. What it has done to the state up
to that point stays done, so an act that must leave no trace when it is refused has to see to that
itself.

There are four ways to stop. A refusal names its cause. A panic comes out of a backend and carries
a text. The other two only happen to a host that breaks its side of the agreement: a pointer leads
to a cell that was released, or to a cell of another kind than the handle claims.
-/

namespace HandleBench

/-- Why an act stopped early. -/
inductive Stop where
  /-- The act was refused. -/
  | refused (failure : Failure)
  /-- A backend panicked. -/
  | panicked (message : String)
  /-- A pointer leads to a cell that was released. -/
  | released
  /-- A pointer leads to no cell, or to one of another kind. -/
  | misread
  deriving DecidableEq, Repr

/-- A step on a state that yields a value or stops, and leaves a state in either case. -/
def Act (σ α : Type) : Type := σ → Except Stop α × σ

namespace Act

variable {σ ρ τ α β : Type}

/-- Yields a value and leaves the state alone. -/
protected def pure (a : α) : Act σ α := fun s => (.ok a, s)

/-- One act after another; the second does not happen if the first stops. -/
protected def bind (act : Act σ α) (next : α → Act σ β) : Act σ β := fun s =>
  match act s with
  | (.ok a, s') => next a s'
  | (.error stop, s') => (.error stop, s')

instance : Monad (Act σ) where
  pure := Act.pure
  bind := Act.bind

/-- Stops. -/
def stop (reason : Stop) : Act σ α := fun s => (.error reason, s)

/-- Refuses. -/
def refuse (failure : Failure) : Act σ α := stop (.refused failure)

/-- The outcome of a check or a computation that needs no state. -/
def ofExcept : Except Failure α → Act σ α
  | .ok a => pure a
  | .error failure => refuse failure

/-- Looks at the state. -/
def look (f : σ → α) : Act σ α := fun s => (.ok (f s), s)

/-- Changes the state. -/
def change (f : σ → σ) : Act σ Unit := fun s => (.ok (), f s)

/-- The act on a part of a larger state. The state is taken apart before the act and put together
again after it, so nothing but the act has the part in between and it can be changed in place. -/
def within (split : τ → σ × ρ) (join : σ × ρ → τ) (act : Act σ α) : Act τ α := fun t =>
  match split t with
  | (s, rest) =>
    match act s with
    | (result, s') => (result, join (s', rest))

theorem pure_apply (a : α) (s : σ) : (pure a : Act σ α) s = (.ok a, s) := rfl

theorem bind_apply (act : Act σ α) (next : α → Act σ β) (s : σ) :
    (act >>= next) s =
      match act s with
      | (.ok a, s') => next a s'
      | (.error stop, s') => (.error stop, s') := rfl

/-- An act that yields hands its value and its state on. -/
theorem bind_of_ok {act : Act σ α} {next : α → Act σ β} {s s' : σ} {a : α}
    (h : act s = (.ok a, s')) : (act >>= next) s = next a s' := by
  rw [bind_apply, h]

/-- An act that stops leaves its state and nothing follows. -/
theorem bind_of_stop {act : Act σ α} {next : α → Act σ β} {s s' : σ} {reason : Stop}
    (h : act s = (.error reason, s')) : (act >>= next) s = (.error reason, s') := by
  rw [bind_apply, h]

end Act

end HandleBench
