import HandleBench.Proofs.Act
import HandleBench.Proofs.Kind

/-!
# Changes of the world

Seen from a host, a cell is what a handle that points at it grants: an engine, a benchmark or one
holding of a payload, each in its session. Everything that acts on the world does to the handles of
the host at most what an `Event` says, and `Change` relates the worlds before and after to it. The
descriptor of a benchmark, the last failure of a session and the count of its live benchmarks do not
come into it.
-/

namespace HandleBench

/-! ### What handles grant -/

/-- What a handle gives access to. -/
inductive Grant where
  /-- An engine with its session. -/
  | engine (session : SessionId)
  /-- A benchmark of a session. -/
  | benchmark (session : SessionId)
  /-- One holding of a payload; its root is the count of payloads made before it. -/
  | object (session : SessionId) (root : Nat)
  deriving DecidableEq, Repr

namespace Grant

/-- The kind of thing that is granted. -/
@[simp] def kind : Grant → Kind
  | engine _ => .engine
  | benchmark _ => .benchmark
  | object .. => .object

/-- The payload that is held. -/
def root? : Grant → Option Nat
  | object _ root => some root
  | _ => none

end Grant

/-- What a cell grants. -/
@[simp] def Cell.grant? : Cell → Option Grant
  | .engine e => some (.engine e.session)
  | .benchmark b => some (.benchmark b.session)
  | .object o => some (.object o.session o.payload)
  | .released => none

namespace World

/-- What a pointer leads to. -/
def grantAt (w : World) : Pointer → Option Grant
  | .word _ => none
  | .cell a => w.cells[a]?.bind Cell.grant?

/-- The value behind the handle of an object. -/
def value? (w : World) (h : Handle) : Option Payload :=
  match w.grantAt h.pointer with
  | some (.object _ root) => (w.payload? root).map (·.value)
  | _ => none

/-- The handle can be taken for one of the kind: its tag claims so and, unless it is that of a
catalog entry, its pointer leads there. -/
def ReadAs (w : World) (h : Handle) (k : Kind) : Prop :=
  h.tag.Claims k ∧ (k ≠ .entry → ∃ g, w.grantAt h.pointer = some g ∧ g.kind = k)

/-- Whatever the handle claims to be, its pointer is null or leads there. -/
def Honest (w : World) (h : Handle) : Prop :=
  ∀ k, h.tag.Claims k → h.isNull = true ∨ w.ReadAs h k

variable {w w' : World} {p : Pointer} {g : Grant} {a : Nat} {c : Cell}

theorem grantAt_cell (hp : p = .cell a) (hc : w.cells[a]? = some c) : w.grantAt p = c.grant? := by
  subst hp
  simp [grantAt, hc]

theorem cell_of_grantAt (h : w.grantAt p = some g) :
    ∃ a c, p = .cell a ∧ w.cells[a]? = some c ∧ c.grant? = some g := by
  cases p with
  | word => cases h
  | cell a =>
    obtain ⟨c, hc, hg⟩ := Option.bind_eq_some_iff.1 h
    exact ⟨a, c, rfl, hc, hg⟩

theorem grantAt_null {h : Handle} (hn : h.isNull = true) : w.grantAt h.pointer = none := by
  rw [Handle.isNull_iff.1 hn]
  rfl

theorem grantAt_congr (h : w'.cells = w.cells) : w'.grantAt = w.grantAt := by
  funext p
  cases p <;> simp [grantAt, h]

/-- What can be seen of the cell that a pointer leads to. -/
def view {α : Type} (see : Cell → Option α) (w : World) : Pointer → Option α
  | .word _ => none
  | .cell a => w.cells[a]?.bind see

theorem view_push {α : Type} (see : Cell → Option α) (h : w'.cells = w.cells.push c)
    (p : Pointer) : w'.view see p = if p = .cell w.cells.size then see c else w.view see p := by
  cases p with
  | word => simp [view]
  | cell a =>
    by_cases ha : a = w.cells.size
    · simp [view, h, ha]
    · simp [view, h, Array.getElem?_push, ha]

theorem view_set {α : Type} (see : Cell → Option α) (h : w'.cells = w.cells.setIfInBounds a c)
    (ha : a < w.cells.size) (p : Pointer) :
    w'.view see p = if p = .cell a then see c else w.view see p := by
  cases p with
  | word => simp [view]
  | cell b =>
    by_cases hb : b = a
    · subst hb
      simp [view, h, ha]
    · simp [view, h, hb, Ne.symm hb]

theorem grantAt_eq_view (w : World) : w.grantAt = w.view Cell.grant? := by
  funext p
  cases p <;> rfl

theorem grantAt_push (h : w'.cells = w.cells.push c) (p : Pointer) :
    w'.grantAt p = if p = .cell w.cells.size then c.grant? else w.grantAt p := by
  rw [grantAt_eq_view, grantAt_eq_view]
  exact view_push Cell.grant? h p

theorem grantAt_set (h : w'.cells = w.cells.setIfInBounds a c) (ha : a < w.cells.size)
    (p : Pointer) : w'.grantAt p = if p = .cell a then c.grant? else w.grantAt p := by
  rw [grantAt_eq_view, grantAt_eq_view]
  exact view_set Cell.grant? h ha p

theorem payload?_congr (h : w'.payloads = w.payloads) : w'.payload? = w.payload? := by
  funext i
  rw [payload?, payload?, h]

theorem payload?_push {shared : Option SharedPayload}
    (h : w'.payloads = w.payloads.push shared) (i : Nat) :
    w'.payload? i = if i = w.payloads.size then shared else w.payload? i := by
  rw [payload?, payload?, h, Array.getElem?_push]
  split <;> rfl

theorem payload?_addHolder (w : World) (root i : Nat) :
    (w.addHolder root).payload? i =
      if i = root then (w.payload? i).map SharedPayload.hold else w.payload? i := by
  simp only [payload?, addHolder, Array.getElem?_modify, eq_comm]
  split
  · cases w.payloads[i]? <;> rfl
  · rfl

theorem payload?_dropHolder (w : World) (root i : Nat) :
    (w.dropHolder root).payload? i =
      if i = root then (w.payload? i).bind SharedPayload.drop else w.payload? i := by
  simp only [payload?, dropHolder, Array.getElem?_modify, eq_comm]
  split
  · cases w.payloads[i]? <;> rfl
  · rfl

theorem grantAt_fresh : w.grantAt (.cell w.cells.size) = none := by simp [grantAt]

end World

/-! ### Events -/

/-- What happens to the handles of a host. -/
inductive Event where
  /-- None comes and none goes. -/
  | nothing
  /-- The handles of catalog entries come. -/
  | entries (hs : List Handle)
  /-- The handle of a new engine comes. -/
  | engine (h : Handle) (session : SessionId)
  /-- The handle of a new benchmark comes. -/
  | benchmark (h : Handle) (session : SessionId)
  /-- The first handle of a new payload comes. -/
  | created (h : Handle) (session : SessionId) (value : Payload)
  /-- One more handle of the payload behind `source` comes. -/
  | shared (h source : Handle)
  /-- A handle goes. -/
  | released (h : Handle)

/-- The handles that are already the host's and are shared or go. -/
def Event.given : Event → List Handle
  | shared _ source => [source]
  | released h => [h]
  | _ => []

/-- The handle of an object that comes. -/
def Event.minted? : Event → Option Handle
  | created h _ _ | shared h _ => some h
  | _ => none

/-- What releasing a handle of any kind does; null handles and those of catalog entries stand for
nothing that could go. -/
def Event.ofDestroy (h : Handle) : Event :=
  if h.isNull || h.tag == Tag.descriptor then .nothing else .released h

/-- What happens if handles come of which only the first is not null. -/
def Event.ofFirst (made : List Handle) (event : Handle → Event) : Event :=
  match made with
  | [] => .nothing
  | h :: _ => event h

theorem Event.given_ofDestroy (h : Handle) : ∀ x ∈ (ofDestroy h).given, x ∈ [h] := by
  unfold ofDestroy
  split <;> simp [given]

theorem Event.given_ofFirst {made : List Handle} {event : Handle → Event}
    (h : ∀ x, (event x).given = []) : (ofFirst made event).given = [] := by
  cases made with
  | nil => rfl
  | cons x _ => exact h x

theorem Event.given_ofFirst_shared (made : List Handle) (source : Handle) :
    ∀ x ∈ (ofFirst made (.shared · source)).given, x ∈ [source] := by
  cases made <;> simp [ofFirst, given]

theorem Event.minted?_ofDestroy (h : Handle) : (ofDestroy h).minted? = none := by
  unfold ofDestroy
  split <;> rfl

theorem Event.minted?_ofFirst {made : List Handle} {event : Handle → Event}
    (h : ∀ x, (event x).minted? = none) : (ofFirst made event).minted? = none := by
  cases made with
  | nil => rfl
  | cons x _ => exact h x

namespace World

/-- The handle is the only new one. -/
structure Gains (w w' : World) (h : Handle) (g : Grant) : Prop where
  /-- Its pointer led nowhere. -/
  fresh : w.grantAt h.pointer = none
  /-- Its pointer leads to what is granted, every other pointer where it led. -/
  grantAt : ∀ p, w'.grantAt p = if p = h.pointer then some g else w.grantAt p

/-- The world with one object more that holds the payload of another. -/
def share (w : World) (object : ObjectCell) : World :=
  { w.addHolder object.payload with cells := w.cells.push (.object object) }

/-- The payloads after a holding is gone; engines and benchmarks hold none. -/
def letGo (w : World) : Grant → World
  | .object _ root => w.dropHolder root
  | _ => w

/-- Between the worlds the handles of the host change as the event says, and the payloads with
them. -/
inductive Change (w w' : World) : Event → Prop where
  /-- Pointers lead where they led. -/
  | nothing (grants : w'.grantAt = w.grantAt) (payloads : w'.payloads = w.payloads) :
    Change w w' .nothing
  /-- A payload has been shared and released again. -/
  | passed {source : Handle} {session : SessionId} {root : Nat}
    (held : w.grantAt source.pointer = some (.object session root))
    (grants : w'.grantAt = w.grantAt)
    (payloads : w'.payloads = ((w.addHolder root).dropHolder root).payloads) : Change w w' .nothing
  /-- Handles of catalog entries need no cells. -/
  | entries {hs : List Handle} (descriptors : ∀ h ∈ hs, ∃ i, h = .descriptor i)
    (grants : w'.grantAt = w.grantAt) (payloads : w'.payloads = w.payloads) :
    Change w w' (.entries hs)
  /-- A new engine. -/
  | engine {h : Handle} {session : SessionId} (tag : h.tag = .engine)
    (gains : Gains w w' h (.engine session)) (payloads : w'.payloads = w.payloads) :
    Change w w' (.engine h session)
  /-- A new benchmark. -/
  | benchmark {h : Handle} {session : SessionId} (tag : h.tag.classBits = Kind.benchmark.bits)
    (gains : Gains w w' h (.benchmark session)) (payloads : w'.payloads = w.payloads) :
    Change w w' (.benchmark h session)
  /-- A new payload with its first holder. -/
  | created {h : Handle} {session : SessionId} {value : Payload}
    (tag : h.tag.classBits = Kind.object.bits)
    (gains : Gains w w' h (.object session w.payloads.size))
    (payloads : w'.payloads = w.payloads.push (some ⟨value, 1⟩)) :
    Change w w' (.created h session value)
  /-- One more holder of a payload, in the session of the first. -/
  | shared {h source : Handle} {session : SessionId} {root : Nat}
    (held : w.grantAt source.pointer = some (.object session root))
    (tag : h.tag.classBits = Kind.object.bits ∨ h.tag = source.tag)
    (gains : Gains w w' h (.object session root))
    (payloads : w'.payloads = (w.addHolder root).payloads) : Change w w' (.shared h source)
  /-- A handle less, and a holder less of what it held. -/
  | released {h : Handle} {g : Grant} (held : w.grantAt h.pointer = some g)
    (grants : ∀ p, w'.grantAt p = if p = h.pointer then none else w.grantAt p)
    (payloads : w'.payloads = (w.letGo g).payloads) : Change w w' (.released h)

variable {w w' : World}

theorem Change.grantAt_released {h : Handle} (hc : Change w w' (.released h)) (p : Pointer) :
    w'.grantAt p = if p = h.pointer then none else w.grantAt p := by
  cases hc with
  | released _ grants _ => exact grants p

theorem Change.refl (w : World) : Change w w .nothing := .nothing rfl rfl

/-- A new cell is what the handle with its address gains. -/
theorem gains_push {h : Handle} {c : Cell} {g : Grant} (hp : h.pointer = .cell w.cells.size)
    (hc : w'.cells = w.cells.push c) (hg : c.grant? = some g) : Gains w w' h g := by
  refine ⟨?_, fun p => ?_⟩
  · rw [hp, grantAt_fresh]
  · rw [grantAt_push hc, hg, hp]

/-- Clearing the cell of a handle takes nothing else away. -/
theorem grantAt_cleared {h : Handle} {a : Nat} {c : Cell} (hp : h.pointer = .cell a)
    (hc : w.cells[a]? = some c) (h' : w'.cells = w.cells.setIfInBounds a .released) (p : Pointer) :
    w'.grantAt p = if p = h.pointer then none else w.grantAt p := by
  have ha : a < w.cells.size := (Array.getElem?_eq_some_iff.1 hc).1
  rw [grantAt_set h' ha, hp]
  rfl

end World

end HandleBench
