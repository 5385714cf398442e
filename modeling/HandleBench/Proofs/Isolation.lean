import HandleBench.Proofs.Catalogs
import HandleBench.Proofs.Resolution

/-!
# Sessions are apart

What is done in one session cannot be seen in another: not in its record, not in the cells of its
engine, its benchmarks and its objects, and not in their payloads or in who holds them. This is
`World.Spares`, and it comes from two facts. A deed works on the cells of its own session only, and
no payload is held by objects of two sessions, `World.Separate`. `Host.Reachable.isolationLaw` says
it of two engines of a host, and that neither lets the handles of the other through.
-/

namespace HandleBench

/-! ### What belongs to a session -/

/-- What is in a cell, if it belongs to the session. -/
def Cell.ofSession (id : SessionId) (c : Cell) : Option Cell :=
  if c.grant?.map Grant.session = some id then some c else none

namespace World

/-- Nothing of the session is changed. -/
structure Spares (w w' : World) (id : SessionId) : Prop where
  /-- Its record is as it was: the count of its live benchmarks, its last failure and the texts of
  its error codes. -/
  session : w'.sessions[id]? = w.sessions[id]?
  /-- Pointers lead to what they led to, as far as it belongs to the session: the engine with its
  catalog and its names, the benchmarks and the objects. -/
  cells : w'.view (Cell.ofSession id) = w.view (Cell.ofSession id)
  /-- The payloads of its objects are there as they were, with as many holders. -/
  payloads : ∀ p root, w.grantAt p = some (.object id root) → w'.payload? root = w.payload? root

/-- No payload is held by objects of two sessions. -/
structure Separate (w : World) : Prop where
  /-- Whoever holds the same payload is of the same session. -/
  apart : ∀ p p' id id' root, w.grantAt p = some (.object id root) →
    w.grantAt p' = some (.object id' root) → id = id'
  /-- What is held has been made. -/
  rooted : ∀ p id root, w.grantAt p = some (.object id root) → root < w.payloads.size

variable {w w' : World} {id other : SessionId} {a : Nat} {c : Cell} {p : Pointer} {root : Nat}

theorem Spares.refl (w : World) (id : SessionId) : w.Spares w id := ⟨rfl, rfl, fun _ _ _ => rfl⟩

theorem ofSession_eq_some {c' : Cell} :
    c.ofSession id = some c' ↔ c' = c ∧ ∃ g, c.grant? = some g ∧ g.session = id := by
  unfold Cell.ofSession
  split
  · next h =>
    have hg := Option.map_eq_some_iff.1 h
    constructor
    · intro hc
      cases hc
      exact ⟨rfl, hg⟩
    · rintro ⟨rfl, -⟩
      rfl
  · next h =>
    constructor
    · intro hc
      cases hc
    · rintro ⟨-, hg⟩
      exact absurd (Option.map_eq_some_iff.2 hg) h

theorem cell_of_object (hg : w.grantAt p = some (.object id root)) :
    ∃ a o, p = .cell a ∧ w.cells[a]? = some (.object o) ∧ o.session = id ∧ o.payload = root := by
  obtain ⟨a, c, hp, hc, hg⟩ := cell_of_grantAt hg
  cases c with
  | object o =>
    cases hg
    exact ⟨a, o, hp, hc, rfl, rfl⟩
  | _ => cases hg

/-! ### Deeds leave other sessions alone -/

/-- A payload that has been made is counted ever after. -/
theorem Deed.size_payloads (hd : w.Deed id w') : w.payloads.size ≤ w'.payloads.size := by
  cases hd with
  | made value => simp
  | shared => simp [share, addHolder]
  | passed => simp [Object.release, dropHolder, share, addHolder, clear]
  | dropped => simp [Object.release, dropHolder, clear]
  | _ => exact Nat.le_refl _

/-- An object that is there after a deed was there before, or it is of the session of the deed and
holds what an object of the session held or what was made. -/
theorem Deed.object_new (hd : w.Deed id w') (hg : w'.grantAt p = some (.object other root)) :
    w.grantAt p = some (.object other root) ∨ other = id ∧
      ((∃ p', w.grantAt p' = some (.object id root)) ∨
        root = w.payloads.size ∧ root < w'.payloads.size) := by
  obtain ⟨a, o, rfl, hc, rfl, rfl⟩ := cell_of_object hg
  rcases hd.cell_new hc with hold | hnew
  · exact .inl (grantAt_cell rfl hold)
  · cases hnew with
    | made payloads =>
      refine .inr ⟨rfl, .inr ⟨rfl, ?_⟩⟩
      rw [payloads, Array.size_push]
      exact Nat.lt_succ_self _
    | shared finds => exact .inr ⟨finds.session, .inl ⟨_, finds.grant⟩⟩

/-- Deeds leave sessions with payloads of their own. -/
theorem Deed.separate (hd : w.Deed id w') (hw : w.Separate) : w'.Separate := by
  have rooted := hw.rooted
  constructor
  case apart =>
    intro p p' j j' root hg hg'
    rcases hd.object_new hg with hold | ⟨rfl, hnew⟩
    · rcases hd.object_new hg' with hold' | ⟨rfl, ⟨q, hq⟩ | ⟨hroot, -⟩⟩
      · exact hw.apart p p' j j' root hold hold'
      · exact hw.apart p q j j' root hold hq
      · exact absurd hroot (Nat.ne_of_lt (rooted p j root hold))
    · rcases hd.object_new hg' with hold' | ⟨rfl, -⟩
      · rcases hnew with ⟨q, hq⟩ | ⟨hroot, -⟩
        · exact hw.apart q p' j j' root hq hold'
        · exact absurd hroot (Nat.ne_of_lt (rooted p' j' root hold'))
      · rfl
  case rooted =>
    intro p j root hg
    rcases hd.object_new hg with hold | ⟨-, ⟨q, hq⟩ | ⟨-, hlt⟩⟩
    · exact Nat.lt_of_lt_of_le (rooted p j root hold) hd.size_payloads
    · exact Nat.lt_of_lt_of_le (rooted q id root hq) hd.size_payloads
    · exact hlt

/-- Overwriting the cell of another handle is not seen. -/
theorem cell_kept_set {b : Nat} {old new : Cell} {g g' : Grant} (hc : w.cells[a]? = some c)
    (hg : c.grant? = some g) (hb : w.cells[b]? = some old) (hg' : old.grant? = some g')
    (hs : g.session ≠ g'.session) : (w.cells.setIfInBounds b new)[a]? = some c := by
  have hne : b ≠ a := by
    rintro rfl
    rw [hc] at hb
    cases hb
    rw [hg] at hg'
    cases hg'
    exact hs rfl
  rw [Array.getElem?_setIfInBounds, if_neg hne, hc]

theorem cell_kept_push {new : Cell} {cells : Array Cell} (hc : cells[a]? = some c) :
    (cells.push new)[a]? = some c := by
  have hlt := (Array.getElem?_eq_some_iff.1 hc).1
  rw [Array.getElem?_push, if_neg (Nat.ne_of_lt hlt), hc]

/-- What belongs to another session is where it was. -/
theorem Deed.cell_kept (hd : w.Deed id w') (hc : w.cells[a]? = some c) {g : Grant}
    (hg : c.grant? = some g) (hs : g.session ≠ id) : w'.cells[a]? = some c := by
  cases hd with
  | nothing | edited | opened => exact hc
  | engine | benchmark | made | shared => exact cell_kept_push hc
  | concretized inst finds own =>
    exact cell_kept_set hc hg finds.cell rfl (by rw [Grant.session, own]; exact hs)
  | @passed h found finds =>
    have hshared : (w.share found.2).cells[a]? = some c := cell_kept_push hc
    exact cell_kept_set hshared hg Array.getElem?_push_size rfl
      (by rw [Grant.session, finds.session]; exact hs)
  | dropped finds =>
    exact cell_kept_set hc hg finds.cell rfl (by rw [Grant.session, finds.session]; exact hs)
  | freed finds own =>
    exact cell_kept_set hc hg finds.cell rfl (by rw [Grant.session, own]; exact hs)
  | closed finds own =>
    exact cell_kept_set hc hg finds.cell rfl (by rw [Grant.session, own]; exact hs)

/-- The record of another session is as it was. -/
theorem Deed.session_kept (hd : w.Deed id w') (hs : other ≠ id) :
    w'.sessions[other]? = w.sessions[other]? := by
  have changed : ∀ f, (w.changeSession id f).sessions[other]? = w.sessions[other]? := by
    intro f
    rw [session?_changeSession, if_neg (Ne.symm hs)]
  have pushed : ∀ s, id = w.sessions.size → (w.sessions.push s)[other]? = w.sessions[other]? := by
    intro s new
    rw [Array.getElem?_push, if_neg (new ▸ hs)]
  cases hd with
  | edited f => exact changed f
  | opened errors new => exact pushed _ new
  | engine errors e new => exact pushed _ new
  | benchmark => exact changed _
  | @freed h found finds own =>
    subst own
    exact changed _
  | _ => rfl

/-- What objects of another session hold is as it was. -/
theorem Deed.payload_kept (hd : w.Deed id w') (hw : w.Separate) (hs : other ≠ id)
    (hg : w.grantAt p = some (.object other root)) : w'.payload? root = w.payload? root := by
  have hne : ∀ {h : Handle} {found : Nat × ObjectCell}, Object.Found w id h found →
      root ≠ found.2.payload := by
    rintro h found finds rfl
    exact hs (hw.apart p h.pointer other id _ hg finds.grant)
  cases hd with
  | made value =>
    rw [payload?_push rfl, if_neg (Nat.ne_of_lt (hw.rooted p other root hg))]
  | @shared h found finds =>
    show (w.addHolder found.2.payload).payload? root = _
    rw [payload?_addHolder, if_neg (hne finds)]
  | @passed h found finds =>
    show ((w.addHolder found.2.payload).dropHolder found.2.payload).payload? root = _
    rw [payload?_dropHolder, if_neg (hne finds), payload?_addHolder, if_neg (hne finds)]
  | @dropped h found finds =>
    show (w.dropHolder found.2.payload).payload? root = _
    rw [payload?_dropHolder, if_neg (hne finds)]
  | _ => rfl

/-- A deed spares every other session. -/
theorem Deed.spares (hd : w.Deed id w') (hw : w.Separate) (hs : other ≠ id) :
    w.Spares w' other := by
  constructor
  case session => exact hd.session_kept hs
  case cells =>
    funext p
    cases p with
    | word => rfl
    | cell a =>
      refine Option.ext fun c => ?_
      show w'.cells[a]?.bind (Cell.ofSession other) = some c ↔
        w.cells[a]?.bind (Cell.ofSession other) = some c
      simp only [Option.bind_eq_some_iff, ofSession_eq_some]
      constructor
      · rintro ⟨_, hc, rfl, g, hg, hgs⟩
        rcases hd.cell_new hc with hold | hnew
        · exact ⟨c, hold, rfl, g, hg, hgs⟩
        · -- whatever a deed brings is of its own session
          refine absurd ?_ hs
          rw [← hgs]
          cases hnew with
          | engine _ own => cases hg; exact own
          | benchmark => cases hg; rfl
          | concretized _ own => cases hg; exact own
          | made => cases hg; rfl
          | shared finds => cases hg; exact finds.session
          | released => cases hg
      · rintro ⟨_, hc, rfl, g, hg, rfl⟩
        exact ⟨c, hd.cell_kept hc hg hs, rfl, g, hg, rfl⟩
  case payloads =>
    intro p root hg
    exact hd.payload_kept hw hs hg

/-- A cell of one session may get other contents of that session. -/
theorem spares_set {old new : Cell} (hc : w.cells[a]? = some old)
    (hold : old.ofSession other = none) (hnew : new.ofSession other = none) :
    w.Spares { w with cells := w.cells.setIfInBounds a new } other := by
  refine ⟨rfl, ?_, fun _ _ _ => rfl⟩
  funext p
  rw [view_set (Cell.ofSession other) rfl (Array.getElem?_eq_some_iff.1 hc).1, hnew]
  split
  · next hp =>
    rw [hp]
    simp [view, hc, hold]
  · rfl

/-- Registering something more with an engine spares every other session. -/
theorem spares_register {e : Engine} (hc : w.cells[a]? = some (.engine e)) (hw : w.Separate)
    (hs : other ≠ e.session) (item : Registry.Item) :
    w.Spares (e.register a item w).2 other := by
  have hold : ∀ e' : Engine, e'.session = e.session → (Cell.engine e').ofSession other = none := by
    intro e' he
    refine if_neg ?_
    rw [Cell.grant?, Option.map_some, Grant.session, he, Option.some.injEq]
    exact Ne.symm hs
  have cataloged : ∀ result : Except Failure Registry, w.Spares ((do
      let after ← Act.ofExcept result
      Act.change fun w => { w with
        cells := w.cells.setIfInBounds a (.engine { e with
          catalog := after.catalog, schemes := after.schemes,
          securities := after.securities }) } : Act World Unit) w).2 other := by
    intro result
    cases result with
    | error failure => exact .refl w other
    | ok after => exact spares_set hc (hold e rfl) (hold _ rfl)
  cases item with
  | error code text =>
    cases hr : addErrorText e.session code text w with
    | mk result w' =>
      rw [Engine.register, hr]
      cases result with
      | ok => exact ((addErrorText_deeds w e.session code text).of_ok hr).1.spares hw hs
      | error reason =>
        obtain ⟨rfl, -⟩ := (addErrorText_atomic w e.session code text True).of_error hr
        exact .refl w' other
  | _ => exact cataloged _

end World

namespace Host

variable {s : Host} {m : Move}

/-- Wherever a host arrives, sessions have payloads of their own. -/
theorem Reachable.separate (hs : s.Reachable) : s.world.Separate := by
  induction hs with
  | initial =>
    constructor
    case apart =>
      intro p p' j j' root hg
      cases p <;> cases hg
    case rooted =>
      intro p j root hg
      cases p <;> cases hg
  | after hs hm ih =>
    rcases hs.deed hm with hw | ⟨id, -, hd⟩
    · rwa [hw]
    · exact hd.separate ih

/-- Two engines of a host have different sessions. -/
theorem Reachable.session_ne {h h' : Handle} {e e' : Engine} (hs : s.Reachable) (he : s.Has h e)
    (he' : s.Has h' e') (hne : h ≠ h') : e.session ≠ e'.session := by
  intro hsession
  have hp := hs.catalogued.sole _ _ e e' he.2 he'.2 hsession
  exact hne (congrArg Prod.fst (hs.agrees.backed.unique he.1 he'.1 hp))

/-! ### The law -/

/-- The moves in a session: its functions, the methods of its engine, and the exported calls that
resolve its engine or one of its benchmarks first. -/
inductive In (s : Host) (id : SessionId) : Move → Prop where
  /-- The text of an error code is added. -/
  | addErrorText (code : Int32) (text : String) : In s id (.addErrorText id code text)
  /-- The last failure is set. -/
  | setLastError (error : LastError) : In s id (.setLastError id error)
  /-- A payload is made. -/
  | create (size : UInt64) (bits : Tag) (value : Payload) : In s id (.create id size bits value)
  /-- A payload is retrieved. -/
  | retrieve (h : Handle) (required : Tag) (expected : PayloadKind) :
    In s id (.retrieve id h required expected)
  /-- A payload is shared. -/
  | duplicate (h : Handle) (bits : Option Tag) (required : Tag) :
    In s id (.duplicate id h bits required)
  /-- The holders of a payload are counted. -/
  | holders (h : Handle) : In s id (.holders id h)
  /-- An object is released. -/
  | release (h : Handle) : In s id (.release id h)
  /-- A method of the engine is called. -/
  | method {engine : Handle} {e : Engine} (own : s.Has engine e) (same : e.session = id)
    (m : Method) : In s id (.method engine m)
  /-- An exported call is made that resolves an engine or a benchmark of the session. -/
  | call {c : Call} (resolves : c.sessionIn s.world = some id) : In s id (.call c)

theorem Reachable.home_of_in {id : SessionId} (hs : s.Reachable) (hm : s.In id m) :
    m.home s.world = some id := by
  cases hm with
  | method own same =>
    obtain ⟨a, hf⟩ := hs.found own
    exact Engine.found_iff.2 ⟨_, hf, same⟩
  | call resolves => exact Call.home_of_sessionIn resolves
  | _ => rfl

/-- What holds between two sessions of a host. -/
structure IsolationLaw (s : Host) (a b : SessionId) : Prop where
  /-- No move in the one changes anything of the other, whether it succeeds or fails. -/
  spared : ∀ m, s.Permits m → s.In a m → s.world.Spares (s.after m).world b
  /-- Nor does what is registered with the engine of the one. -/
  registered : ∀ h e address item, s.Has h e → e.session = a → h.pointer = .cell address →
    s.world.Spares (e.register address item s.world).2 b
  /-- A move in the one that resolves a benchmark or an object of the other fails, and nothing comes
  of it. If it is no exported call, which records its failure, it leaves the world as it was. -/
  refused : ∀ m x, s.Permits m → s.In a m → x ∈ m.asks s.world → x.2 ≠ .entry →
    s.world.Owned b x.1 → ∃ reason w, m.perform s.world = (.error reason, w) ∧ reason.Fair ∧
      w.cells = s.world.cells ∧ w.payloads = s.world.payloads ∧ (s.after m).ledger = s.ledger ∧
        ((∀ c, m ≠ .call c) → w = s.world)
  /-- The engine of the one releases nothing of the other. -/
  kept : ∀ h e x, s.Has h e → e.session = a → s.ledger.Knows x → s.world.Owned b x →
    ∃ failure, e.destroy x s.world = (.error (.refused failure), s.world)

/-- **Sessions are isolated.** Two engines of a host have sessions of their own, and what is done
with the one neither changes anything of the other nor gets at it. -/
theorem Reachable.isolationLaw {h h' : Handle} {e e' : Engine} (hs : s.Reachable) (he : s.Has h e)
    (he' : s.Has h' e') (hne : h ≠ h') :
    e.session ≠ e'.session ∧ s.IsolationLaw e.session e'.session := by
  have hab := hs.session_ne he he' hne
  refine ⟨hab, ?_⟩
  constructor
  case spared =>
    intro m hm hin
    rcases hs.deed hm with hw | ⟨id, hid, hd⟩
    · rw [hw]
      exact .refl s.world _
    · rw [hs.home_of_in hin] at hid
      cases hid
      exact hd.spares hs.separate (Ne.symm hab)
  case registered =>
    intro engine e₁ address item hown hsame hp
    obtain ⟨address', hf⟩ := hs.found hown
    obtain rfl : address' = address := by
      have hp' := hf.pointer
      rw [hp] at hp'
      cases hp'
      rfl
    exact World.spares_register hf.cell hs.separate (hsame ▸ Ne.symm hab) item
  case refused =>
    intro m x hm hin hx hk hb
    cases hp : m.perform s.world with
    | mk result w =>
      cases result with
      | ok event =>
        obtain ⟨id, hid, g, hg, hgs⟩ := ((m.perform_deed s.world).of_ok hp).2 x hx hk
        rw [hs.home_of_in hin] at hid
        cases hid
        obtain ⟨g', hg', hgs'⟩ := hb
        rw [hg] at hg'
        cases hg'
        exact absurd (hgs.symm.trans hgs') hab
      | error reason =>
        obtain ⟨hcells, hpayloads, hfair⟩ := (m.perform_ends s.world).of_error hp
        refine ⟨reason, w, rfl, hfair (hs.honest hm), hcells, hpayloads, ?_, ?_⟩
        · rw [after_of_error hp]
        · intro hc
          exact (Act.Ends.of_error (m.perform_atomic s.world hc) hp).1
  case kept =>
    intro engine e₁ x _ hsame hk hb
    obtain ⟨g, hg, hgs⟩ := hb
    refine destroy_foreign hs.agrees (hs.agrees.backed.held_of_leads hk hg) (.inr ?_)
    rw [hgs, hsame]
    exact Ne.symm hab

/-! ### Two engines side by side -/

/-- The engines of the neighbours below: a byte carrier each. -/
def neighbour (session : SessionId) : Engine :=
  ⟨session, .unset, [.bare .plain (.byteCarrier (.named "mock"))], .empty, .empty⟩

/-- The handle of the second engine. -/
def otherEngine : Handle := ⟨.cell 1, 0, .engine⟩

/-- The benchmark of the first engine. -/
def nearBenchmark : Handle := ⟨.cell 2, 0, .instanceBits⟩

/-- The benchmark of the second engine. -/
def farBenchmark : Handle := ⟨.cell 3, 0, .instanceBits⟩

/-- What the second benchmark has encoded. -/
def farEncoded : Handle := ⟨.cell 4, 0, .object ||| Carrier.dataBit⟩

/-- The moves of a host that makes two engines and a benchmark of each, and encodes with the
second. -/
def neighbourly : List Move :=
  let registry : Registry := ⟨[.bare .plain (.byteCarrier (.named "mock"))], .empty, .empty, .empty⟩
  [.make .unset registry, .make .unset registry, .method sampleEngine .entries,
    .method sampleEngine (.create (.descriptor 0) none),
    .method otherEngine (.create (.descriptor 0) none),
    .method otherEngine (.give farBenchmark (.encode []))]

/-- That host. -/
def neighbours : Host := initial.afterAll neighbourly

theorem reachable_neighbours : neighbours.Reachable :=
  Reachable.initial.afterAll (show initial.PermitsAll neighbourly by decide)

/-- The first benchmark does not encrypt what the second has encoded, and the second engine does not
notice. -/
theorem isolationLaw_neighbours : neighbours.Reachable ∧
    neighbours.Has sampleEngine (neighbour 0) ∧ neighbours.Has otherEngine (neighbour 1) ∧
    (∃ reason w, (Move.method sampleEngine (.give nearBenchmark (.encrypt farEncoded))).perform
      neighbours.world = (.error reason, w) ∧ w = neighbours.world) ∧
    neighbours.world.Spares
      (neighbours.after (.method sampleEngine (.destroyBenchmark nearBenchmark))).world 1 := by
  have he : neighbours.Has sampleEngine (neighbour 0) := ⟨by decide, rfl⟩
  have he' : neighbours.Has otherEngine (neighbour 1) := ⟨by decide, rfl⟩
  have law := (reachable_neighbours.isolationLaw he he' (by decide)).2
  refine ⟨reachable_neighbours, he, he', ?_, ?_⟩
  · obtain ⟨reason, w, hp, -, -, -, -, hw⟩ := law.refused
      (.method sampleEngine (.give nearBenchmark (.encrypt farEncoded))) (farEncoded, .object)
      (by decide) (.method he rfl _) (by decide) (by decide) ⟨.object 1 0, rfl, rfl⟩
    exact ⟨reason, w, hp, hw fun c hc => by cases hc⟩
  · exact law.spared _ (by decide) (.method he rfl _)

end Host

end HandleBench
