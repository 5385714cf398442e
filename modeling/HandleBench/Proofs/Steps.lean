import HandleBench.Proofs.Change

/-!
# Steps on handles

What each act on engines, benchmarks and objects does to the world: it is all or nothing, what it
does is an event, and it succeeds only on handles that can be taken for what it needs. From a host
whose handles are honest it never stops because a pointer leads to the wrong thing.
-/

namespace HandleBench

namespace World

variable {w : World} {p : Pointer} {h : Handle} {a : Nat} {c : Cell} {k : Kind} {honest : Prop}

theorem follow_atomic (hh : honest → ∃ g, w.grantAt p = some g ∧ g.kind = k) :
    (follow p).Atomic w honest fun found w' =>
      w' = w ∧ p = .cell found.1 ∧ w.cells[found.1]? = some found.2 := by
  have dangling : w.grantAt p = none → honest → False := fun hn hh' => by
    obtain ⟨g, hg, -⟩ := hh hh'
    rw [hn] at hg
    cases hg
  refine Act.ends_of_forall ?_ ?_
  · intro found w' hf
    unfold follow at hf
    split at hf
    · cases hf
    · split at hf
      · cases hf
      · cases hf
      · next c hne hc =>
        cases hf
        exact ⟨rfl, rfl, hc⟩
  · intro reason w' hf
    unfold follow at hf
    split at hf
    · cases hf
      exact ⟨rfl, fun hh' => (dangling rfl hh').elim⟩
    · split at hf
      · next hc =>
        cases hf
        exact ⟨rfl, fun hh' => (dangling (by simp [grantAt, hc]) hh').elim⟩
      · next hc =>
        cases hf
        exact ⟨rfl, fun hh' => (dangling (by simp [grantAt, hc]) hh').elim⟩
      · cases hf

theorem follow_eq_ok (hc : w.cells[a]? = some c) (hg : c.grant? ≠ none) :
    follow (.cell a) w = (.ok (a, c), w) := by
  simp only [follow, hc]
  cases c <;> first | rfl | exact absurd rfl hg

/-- An honest handle does not lead to a cell of another kind than it claims. -/
theorem misread_fair {σ : Type} {s : σ} (hh : honest → ∃ g, w.grantAt p = some g ∧ g.kind = k)
    (hp : p = .cell a) (hc : w.cells[a]? = some c) (hk : c.grant?.map Grant.kind ≠ some k) :
    s = s ∧ (honest → Stop.misread.Fair) := by
  refine ⟨rfl, fun hh' => absurd ?_ hk⟩
  obtain ⟨g, hg, hk'⟩ := hh hh'
  rw [← grantAt_cell hp hc, hg, ← hk']
  rfl

theorem Honest.leads (hh : w.Honest h) (hk : h.tag.Claims k) (hn : h.isNull = false)
    (he : k ≠ .entry) : ∃ g, w.grantAt h.pointer = some g ∧ g.kind = k := by
  rcases hh k hk with hnull | hr
  · rw [hn] at hnull
    cases hnull
  · exact hr.2 he

end World

/-! ### Objects -/

theorem requireUnreserved_eq_ok {bits : Tag} :
    requireUnreserved bits = .ok () ↔ bits.touchesReserved = false := by
  unfold requireUnreserved
  split <;> simp_all

theorem Handle.checkObject_eq_ok {h : Handle} {required : Tag} :
    h.checkObject required = .ok () ↔ required.touchesReserved = false ∧
      h.tag.hasClass .object = true ∧ h.tag.hasClass required = true := by
  unfold checkObject
  rw [← requireUnreserved_eq_ok]
  cases requireUnreserved required with
  | error => exact ⟨fun hc => (by cases hc), fun hc => (by cases hc.1)⟩
  | ok =>
    cases ho : h.tag.hasClass .object <;> cases hr : h.tag.hasClass required <;>
      simp [bind, Except.bind, throw, throwThe, MonadExceptOf.throw, pure, Except.pure]

namespace Object

variable {w : World} {session : SessionId} {h : Handle} {required : Tag} {found : Nat × ObjectCell}

/-- What resolving the handle of an object finds. -/
structure Found (w : World) (session : SessionId) (h : Handle) (found : Nat × ObjectCell) :
    Prop where
  /-- Its address. -/
  pointer : h.pointer = .cell found.1
  /-- The object at the address. -/
  cell : w.cells[found.1]? = some (.object found.2)
  /-- The session of the object. -/
  session : found.2.session = session
  /-- The tag is that of an object. -/
  tag : h.tag.Claims .object

theorem Found.grant (hf : Found w session h found) :
    w.grantAt h.pointer = some (.object session found.2.payload) := by
  rw [World.grantAt_cell hf.pointer hf.cell, Cell.grant?, hf.session]

theorem Found.readAs (hf : Found w session h found) :
    w.ReadAs h .object := ⟨hf.tag, fun _ => ⟨_, hf.grant, rfl⟩⟩

theorem Found.not_null (hf : Found w session h found) : h.isNull = false :=
  Handle.not_null_of_cell hf.pointer

theorem Found.checked (hf : Found w session h found) : h.checkObject 0 = .ok () :=
  Handle.checkObject_eq_ok.2 ⟨by decide, hf.tag, by simp [Tag.hasClass]⟩

theorem resolve_atomic (w : World) (session : SessionId) (h : Handle) (required : Tag) :
    (resolve session h required).Atomic w (w.Honest h) fun found w' =>
      w' = w ∧ Found w session h found := by
  unfold resolve
  refine Act.Atomic.bind_ofExcept fun _ hc => ?_
  have ht : h.tag.Claims .object := (Handle.checkObject_eq_ok.1 hc).2.1
  split
  · exact Act.atomic_refuse
  · next hn =>
    have leads : w.Honest h → ∃ g, w.grantAt h.pointer = some g ∧ g.kind = .object := fun hh =>
      hh.leads ht (by simpa using hn) (by simp)
    refine Act.Atomic.bind (World.follow_atomic leads) fun ⟨a, c⟩ ⟨hp, hc⟩ => ?_
    cases c with
    | object o =>
      simp only
      split
      · next hs => exact Act.atomic_pure ⟨rfl, hp, hc, hs, ht⟩
      · exact Act.atomic_refuse
    | _ => exact World.misread_fair leads hp hc (by simp)

/-- A handle that passes the checks is resolved if its pointer leads to an object of the session. -/
theorem resolve_eq_ok (hf : Found w session h found) (hc : h.checkObject required = .ok ()) :
    resolve session h required w = (.ok found, w) := by
  simp only [resolve, hc, Act.ofExcept, Act.bind_apply, Act.pure_apply, hf.not_null, hf.pointer,
    World.follow_eq_ok hf.cell (by simp), hf.session, Bool.false_eq_true, if_false, if_true]

theorem classBits_mint {bits : Tag} (h : requireUnreserved bits = .ok ()) :
    (Tag.object ||| bits).classBits = Kind.object.bits :=
  Tag.classBits_or (requireUnreserved_eq_ok.1 h) .object

/-- A new handle leads to the object in its new cell. -/
theorem found_push {w' : World} {tag : Tag} (object : ObjectCell)
    (hw : w'.cells = w.cells.push (.object object))
    (hs : object.session = session) (ht : tag.Claims .object) (size : UInt64) :
    Found w' session ⟨.cell w.cells.size, size, tag⟩ (w.cells.size, object) := by
  refine ⟨rfl, ?_, hs, ht⟩
  rw [hw]
  exact Array.getElem?_push_size

theorem create_atomic (w : World) (session : SessionId) (size : UInt64) (bits : Tag)
    (value : Payload) (honest : Prop) :
    (create session size bits value).Atomic w honest fun h w' =>
      w.Change w' (.created h session value) := by
  unfold create mint World.allocate
  refine Act.Atomic.bind_ofExcept fun _ hb => ?_
  exact World.Change.created (classBits_mint hb) (World.gains_push rfl rfl rfl) rfl

theorem retrieve_atomic (w : World) (session : SessionId) (h : Handle) (required : Tag)
    (expected : PayloadKind) :
    (retrieve session h required expected).Atomic w (w.Honest h) fun value w' =>
      w' = w ∧ w.ReadAs h .object ∧ (w.value? h).bind (·.as? expected) = some value := by
  unfold retrieve
  refine Act.Atomic.bind (resolve_atomic w session h required) fun found hf => ?_
  refine Act.Atomic.bind_look ?_
  split
  · next value hv =>
    refine Act.atomic_pure ⟨rfl, hf.readAs, ?_⟩
    rw [World.value?, hf.grant, ← hv]
    exact Option.bind_map
  · exact Act.atomic_refuse

/-- Duplicating a handle shares the payload; the new handle has the tag of the given one, or the
bits it was asked for. -/
theorem duplicate_shares (w : World) (session : SessionId) (h : Handle) (bits : Option Tag)
    (required : Tag) :
    (duplicate session h bits required).Atomic w (w.Honest h) fun made w' =>
      ∃ found, Found w session h found ∧ w' = w.share found.2 ∧
        made.pointer = .cell w.cells.size ∧
        (if bits.isSome then made.tag.classBits = Kind.object.bits else made.tag = h.tag) := by
  unfold duplicate mint World.allocate
  refine Act.Atomic.bind (resolve_atomic w session h required) fun found hf => ?_
  cases bits with
  | none => exact ⟨found, hf, rfl, rfl, rfl⟩
  | some bits =>
    refine Act.Atomic.bind_ofExcept fun _ hb => ?_
    exact ⟨found, hf, rfl, rfl, classBits_mint hb⟩

theorem gains_share {made : Handle} (hf : Found w session h found)
    (hp : made.pointer = .cell w.cells.size) :
    w.Gains (w.share found.2) made (.object session found.2.payload) :=
  World.gains_push hp rfl (by rw [Cell.grant?, hf.session])

theorem duplicate_atomic (w : World) (session : SessionId) (h : Handle) (bits : Option Tag)
    (required : Tag) :
    (duplicate session h bits required).Atomic w (w.Honest h) fun made w' =>
      w.Change w' (.shared made h) ∧ w.ReadAs h .object := by
  refine (duplicate_shares w session h bits required).mono id ?_
  rintro made w' ⟨found, hf, rfl, hp, ht⟩
  refine ⟨.shared hf.grant ?_ (gains_share hf hp) rfl, hf.readAs⟩
  split at ht
  · exact .inl ht
  · exact .inr ht

/-- Releasing an object takes its handle away and one holder of its payload. -/
theorem change_release (hf : Found w session h found) :
    w.Change (release w found.1 found.2) (.released h) :=
  .released hf.grant (World.grantAt_cleared hf.pointer hf.cell rfl) rfl

theorem destroy_atomic (w : World) (session : SessionId) (h : Handle) :
    (destroy session h).Atomic w (w.Honest h) fun _ w' =>
      w.Change w' (.released h) ∧ w.ReadAs h .object := by
  unfold destroy
  refine Act.Atomic.bind (resolve_atomic w session h 0) fun found hf => ?_
  exact ⟨change_release hf, hf.readAs⟩

theorem Found.destroy_eq (hf : Found w session h found) :
    destroy session h w = (.ok (), release w found.1 found.2) := by
  rw [destroy, Act.bind_of_ok (resolve_eq_ok hf hf.checked)]
  rfl

theorem holders_atomic (w : World) (session : SessionId) (h : Handle) :
    (holders session h).Atomic w (w.Honest h) fun _ w' => w' = w ∧ w.ReadAs h .object := by
  unfold holders
  refine Act.Atomic.bind (resolve_atomic w session h 0) fun found hf => ?_
  exact ⟨rfl, hf.readAs⟩

end Object

/-! ### Benchmarks -/

theorem World.session?_changeSession (w : World) (id i : SessionId) (f : Session → Session) :
    (w.changeSession id f).sessions[i]? =
      if id = i then w.sessions[i]?.map f else w.sessions[i]? :=
  Array.getElem?_modify

theorem World.size_changeSession (w : World) (id : SessionId) (f : Session → Session) :
    (w.changeSession id f).sessions.size = w.sessions.size := Array.size_modify

theorem World.changeSession_changeSession (w : World) (id : SessionId) (f g : Session → Session) :
    (w.changeSession id f).changeSession id g = w.changeSession id fun s => g (f s) := by
  simp only [changeSession, World.mk.injEq, and_true]
  refine Array.ext (by simp) fun i hi hj => ?_
  simp only [Array.getElem_modify]
  split <;> rfl

theorem World.changeSession_id (w : World) (id : SessionId) :
    (w.changeSession id fun s => s) = w := by
  have : w.sessions.modify id (fun s => s) = w.sessions :=
    Array.ext (by simp) fun i hi hj => by simp [Array.getElem_modify]
  rw [changeSession, this]

/-- A slot that is taken and given back leaves nothing behind. -/
theorem World.releaseSlot_acquired (w : World) (id : SessionId) :
    (w.changeSession id fun s => { s with live := s.live + 1 }).releaseSlot id = w := by
  rw [releaseSlot, changeSession_changeSession]
  exact w.changeSession_id id

theorem Event.ofDestroy_null {h : Handle} (hn : h.isNull = true) : ofDestroy h = .nothing := by
  simp [ofDestroy, hn]

theorem Event.ofDestroy_entry {h : Handle} (ht : h.tag = Tag.descriptor) :
    ofDestroy h = .nothing := by
  simp [ofDestroy, ht]

theorem Event.ofDestroy_claims {h : Handle} {k : Kind} (hn : h.isNull = false)
    (ht : h.tag.Claims k) (hk : k ≠ .entry) : ofDestroy h = .released h := by
  have hne : h.tag ≠ Tag.descriptor := fun he =>
    hk (Tag.Claims.unique (by rw [he]; decide) ht)
  simp [ofDestroy, hn, hne]

namespace Benchmark

variable {w : World} {h : Handle} {found : Nat × Benchmark}

/-- What resolving the handle of a benchmark finds. -/
structure Found (w : World) (h : Handle) (found : Nat × Benchmark) : Prop where
  /-- Its address. -/
  pointer : h.pointer = .cell found.1
  /-- The benchmark at the address. -/
  cell : w.cells[found.1]? = some (.benchmark found.2)
  /-- The tag is that of a benchmark. -/
  tag : h.tag.Claims .benchmark

theorem Found.grant (hf : Found w h found) :
    w.grantAt h.pointer = some (.benchmark found.2.session) :=
  World.grantAt_cell hf.pointer hf.cell

theorem Found.readAs (hf : Found w h found) : w.ReadAs h .benchmark :=
  ⟨hf.tag, fun _ => ⟨_, hf.grant, rfl⟩⟩

theorem Found.not_null (hf : Found w h found) : h.isNull = false :=
  Handle.not_null_of_cell hf.pointer

theorem resolve_atomic (w : World) (h : Handle) :
    (resolve h).Atomic w (w.Honest h) fun found w' => w' = w ∧ Found w h found := by
  unfold resolve
  split
  · exact Act.atomic_refuse
  · next ht =>
    have ht : h.tag.Claims .benchmark := by simpa [Tag.Claims] using ht
    split
    · exact Act.atomic_refuse
    · next hn =>
      have leads : w.Honest h → ∃ g, w.grantAt h.pointer = some g ∧ g.kind = .benchmark := fun hh =>
        hh.leads ht (by simpa using hn) (by simp)
      refine Act.Atomic.bind (World.follow_atomic leads) fun ⟨a, c⟩ ⟨hp, hc⟩ => ?_
      cases c with
      | benchmark b => exact Act.atomic_pure ⟨rfl, hp, hc, ht⟩
      | _ => exact World.misread_fair leads hp hc (by simp)

theorem resolve_eq_ok (hf : Found w h found) :
    resolve h w = (.ok found, w) := by
  have ht : h.tag.hasClass .instanceBits = true := hf.tag
  simp only [resolve, ht, hf.not_null, hf.pointer, Act.bind_apply, Act.pure_apply,
    World.follow_eq_ok hf.cell (by simp), Bool.not_true, Bool.false_eq_true, if_false]

/-- The bits of an instance that goes behind a handle leave the reserved ones alone. -/
theorem unreserved_of_instantiate {description : Description} {params : Option (List Param)}
    {inst : Instance} (hi : instantiate description params = .ok inst) :
    inst.classTag.touchesReserved = false := by
  unfold instantiate at hi
  cases hd : description.instantiate params with
  | error =>
    rw [hd] at hi
    cases hi
  | ok inst' =>
    cases hr : requireUnreserved inst'.classTag with
    | error =>
      simp only [hd, bind, Except.bind, hr] at hi
      cases hi
    | ok =>
      simp only [hd, bind, Except.bind, hr, pure, Except.pure, Except.ok.injEq] at hi
      rw [← hi]
      exact requireUnreserved_eq_ok.1 hr

theorem create_atomic (w : World) (session : SessionId) (limit : Option Nat)
    (description : Description) (params : Option (List Param)) (honest : Prop) :
    (create session limit description params).Atomic w honest fun h w' =>
      w.Change w' (.benchmark h session) := by
  unfold create
  refine Act.ends_bind.2 ?_
  unfold Act.Ends World.acquireSlot
  split
  · next heq =>
    split at heq
    · cases heq
    · cases heq
      cases hi : instantiate description params with
      | error failure =>
        exact ⟨w.releaseSlot_acquired session, fun _ => trivial⟩
      | ok inst =>
        refine World.Change.benchmark ?_ (World.gains_push rfl rfl rfl) rfl
        show (inst.classTag ||| Tag.instanceBits).classBits = _
        rw [UInt64.or_comm]
        exact Tag.classBits_or (unreserved_of_instantiate hi) .benchmark
  · next heq =>
    split at heq
    · cases heq
      exact ⟨rfl, fun _ => trivial⟩
    · cases heq

/-- Releasing a benchmark takes its handle away and no payload. -/
theorem change_release (hf : Found w h found) :
    w.Change (release w found.1 found.2) (.released h) :=
  .released hf.grant (World.grantAt_cleared hf.pointer hf.cell rfl) rfl

theorem concretize_atomic (hf : Found w h found) (concrete : Descriptor)
    (honest : Prop) :
    (found.2.concretize found.1 concrete).Atomic w honest fun _ w' => w.Change w' .nothing := by
  unfold concretize
  refine Act.Atomic.bind_ofExcept fun inst _ => ?_
  refine World.Change.nothing ?_ rfl
  funext p
  rw [World.grantAt_set rfl (Array.getElem?_eq_some_iff.1 hf.cell).1]
  split
  · next hp => rw [hp, ← hf.pointer, hf.grant]; rfl
  · rfl

end Benchmark

/-! ### Engines -/

namespace Engine

variable {w : World} {h : Handle} {found : Nat × Engine}

/-- What resolving the handle of an engine finds. -/
structure Found (w : World) (h : Handle) (found : Nat × Engine) : Prop where
  /-- Its address. -/
  pointer : h.pointer = .cell found.1
  /-- The engine at the address. -/
  cell : w.cells[found.1]? = some (.engine found.2)
  /-- The tag is that of an engine. -/
  tag : h.tag.Claims .engine

theorem Found.grant (hf : Found w h found) :
    w.grantAt h.pointer = some (.engine found.2.session) :=
  World.grantAt_cell hf.pointer hf.cell

theorem Found.readAs (hf : Found w h found) : w.ReadAs h .engine :=
  ⟨hf.tag, fun _ => ⟨_, hf.grant, rfl⟩⟩

theorem Found.not_null (hf : Found w h found) : h.isNull = false :=
  Handle.not_null_of_cell hf.pointer

theorem resolve_atomic (w : World) (h : Handle) :
    (resolve h).Atomic w (w.Honest h) fun found w' => w' = w ∧ Found w h found := by
  unfold resolve
  split
  · exact Act.atomic_refuse
  · next hnt =>
    obtain ⟨hn, ht⟩ : h.isNull = false ∧ h.tag = Tag.engine := by simpa using hnt
    have leads : w.Honest h → ∃ g, w.grantAt h.pointer = some g ∧ g.kind = .engine := fun hh =>
      hh.leads ht hn (by simp)
    refine Act.Atomic.bind (World.follow_atomic leads) fun ⟨a, c⟩ ⟨hp, hc⟩ => ?_
    cases c with
    | engine e => exact Act.atomic_pure ⟨rfl, hp, hc, ht⟩
    | _ => exact World.misread_fair leads hp hc (by simp)

theorem resolve_eq_ok (hf : Found w h found) :
    resolve h w = (.ok found, w) := by
  have ht : (h.tag != Tag.engine) = false := by
    rw [show h.tag = Tag.engine from hf.tag]
    rfl
  simp only [resolve, ht, hf.not_null, hf.pointer, Act.bind_apply, Act.pure_apply,
    World.follow_eq_ok hf.cell (by simp), Bool.or_false, Bool.false_eq_true, if_false]

theorem make_atomic (w : World) (settings : EngineSettings) (registry : Registry) (honest : Prop) :
    (make settings registry).Atomic w honest fun h w' =>
      w.Change w' (.engine h w.sessions.size) :=
  World.Change.engine rfl (World.gains_push rfl rfl rfl) rfl

theorem start_atomic (w : World) (backend : Backend) (settings : EngineSettings) (honest : Prop) :
    (start backend settings).Atomic w honest fun h w' =>
      w.Change w' (.engine h w.sessions.size) := by
  unfold start
  refine Act.Atomic.bind_ofExcept fun _ _ => ?_
  split
  · exact make_atomic w settings _ honest
  · exact Act.atomic_refuse

theorem claims_of_find {e : Engine} {description : Description} (h' : e.find h = .ok description) :
    h.tag.Claims .entry := by
  unfold find at h'
  split at h'
  · cases h'
  · next ht => simpa [Tag.Claims] using ht

theorem readAs_of_find {e : Engine} {description : Description}
    (h' : e.find h = .ok description) : w.ReadAs h .entry :=
  ⟨claims_of_find h', fun hne => absurd rfl hne⟩

/-- What is said about a catalog entry is said only of the handle of one. -/
theorem readAs_of_about {α : Type} {e : Engine} {about : Description → α} {a : α}
    (h' : (do return about (← e.find h) : Except Failure α) = .ok a) : w.ReadAs h .entry := by
  cases hd : e.find h with
  | error =>
    rw [hd] at h'
    cases h'
  | ok description => exact readAs_of_find hd

theorem create_atomic (w : World) (e : Engine) (h : Handle) (params : Option (List Param))
    (honest : Prop) :
    (e.create h params).Atomic w honest fun made w' =>
      w.Change w' (.benchmark made e.session) ∧ w.ReadAs h .entry := by
  unfold create
  refine Act.Atomic.bind_ofExcept fun description hd => ?_
  exact (Benchmark.create_atomic w e.session _ description params honest).mono id
    fun _ _ hc => ⟨hc, readAs_of_find hd⟩

theorem own_atomic (w : World) (e : Engine) (h : Handle) :
    (e.own h).Atomic w (w.Honest h) fun found w' =>
      w' = w ∧ Benchmark.Found w h found ∧ found.2.session = e.session := by
  unfold own
  refine Act.Atomic.bind (Benchmark.resolve_atomic w h) fun found hf => ?_
  simp only
  split
  · next hs => exact Act.atomic_pure ⟨rfl, hf, hs⟩
  · exact Act.atomic_refuse

theorem destroyBenchmark_atomic (w : World) (e : Engine) (h : Handle) :
    (e.destroyBenchmark h).Atomic w (w.Honest h) fun _ w' =>
      w.Change w' (.ofDestroy h) ∧ (h.isNull = false → w.ReadAs h .benchmark) := by
  unfold destroyBenchmark
  split
  · next hn =>
    refine Act.atomic_pure ⟨?_, fun hn' => absurd (hn.symm.trans hn') (by simp)⟩
    rw [Event.ofDestroy_null hn]
    exact .refl w
  · refine Act.Atomic.bind (own_atomic w e h) fun found ⟨hf, _⟩ => ⟨?_, fun _ => hf.readAs⟩
    show w.Change (Benchmark.release w found.1 found.2) (.ofDestroy h)
    rw [Event.ofDestroy_claims hf.not_null hf.tag (by simp)]
    exact Benchmark.change_release hf

theorem destroy_atomic (w : World) (e : Engine) (h : Handle) :
    (e.destroy h).Atomic w (w.Honest h) fun _ w' => w.Change w' (.ofDestroy h) := by
  unfold destroy
  split
  · next hn =>
    refine Act.atomic_pure ?_
    rw [Event.ofDestroy_null (by simp only [Bool.and_eq_true] at hn; exact hn.1)]
    exact .refl w
  · split
    · exact (destroyBenchmark_atomic w e h).mono id fun _ _ hc => hc.1
    · split
      · next ho =>
        refine (Object.destroy_atomic w e.session h).mono id fun _ _ ⟨hc, hr⟩ => ?_
        have hn : h.isNull = false := by
          cases hn : h.isNull with
          | false => rfl
          | true =>
            obtain ⟨g, hg, -⟩ := hr.2 (by simp)
            rw [World.grantAt_null hn] at hg
            cases hg
        rwa [Event.ofDestroy_claims hn hr.1 (by simp)]
      · split
        · next ht =>
          refine Act.atomic_pure ?_
          rw [Event.ofDestroy_entry ht]
          exact .refl w
        · exact Act.atomic_refuse

end Engine

end HandleBench
