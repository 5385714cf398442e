import HandleBench.Proofs.Hosts
import HandleBench.Proofs.Samples

/-!
# What acts on good handles come to

The other modules say what an act can do at most. On a handle that leads where its tag says, the
outcome is known: an object is counted, retrieved, duplicated and released, and the exported call
for releasing takes away whatever its handle stands for.
-/

namespace HandleBench

/-! ### Objects -/

/-- The value of a payload, if it is of the expected kind. -/
def Payload.give (p : Payload) (expected : PayloadKind) : Except Failure expected.Value :=
  match p.as? expected with
  | some value => .ok value
  | none => .error (.payloadKind expected)

/-- The tag of one more handle of a payload: the one of the given handle, or the bits of objects
with the bits that are asked for. -/
def Tag.reissued (t : Tag) : Option Tag → Except Failure Tag
  | none => .ok t
  | some bits => do
    requireUnreserved bits
    return .object ||| bits

namespace Object

variable {w : World} {session : SessionId} {h : Handle} {bits required tag : Tag} {new : Option Tag}
  {found : Nat × ObjectCell}

theorem Found.holders_eq (hf : Found w session h found) :
    holders session h w =
      (.ok (((w.payload? found.2.payload).map (·.holders)).getD 0), w) := by
  rw [holders, Act.bind_of_ok (resolve_eq_ok hf hf.checked)]
  rfl

/-- What is retrieved is settled by the handle and the value of its payload. -/
theorem Found.retrieve_eq (hf : Found w session h found) {shared : SharedPayload}
    (hp : w.payload? found.2.payload = some shared) (required : Tag) (expected : PayloadKind) :
    retrieve session h required expected w =
      Act.ofExcept (do h.checkObject required; shared.value.give expected) w := by
  cases hc : h.checkObject required with
  | error failure =>
    rw [retrieve, resolve, hc]
    rfl
  | ok =>
    rw [retrieve, Act.bind_of_ok (resolve_eq_ok hf hc)]
    have hv : (w.payload? found.2.payload).bind (·.value.as? expected) =
        shared.value.as? expected := by rw [hp]; rfl
    simp only [Act.bind_apply, Act.look, hv]
    change _ = Act.ofExcept (shared.value.give expected) w
    unfold Payload.give
    cases shared.value.as? expected <;> rfl

/-- The world with one more payload, held by one object. -/
def withNew (w : World) (session : SessionId) (value : Payload) : World :=
  { w with
    payloads := w.payloads.push (some ⟨value, 1⟩)
    cells := w.cells.push (.object ⟨session, w.payloads.size⟩) }

theorem create_eq (size : UInt64) (hu : requireUnreserved bits = .ok ()) (value : Payload) :
    create session size bits value w =
      (.ok ⟨.cell w.cells.size, size, .object ||| bits⟩, withNew w session value) := by
  rw [create, hu]
  rfl

theorem create_refused (size : UInt64) {failure : Failure}
    (hu : requireUnreserved bits = .error failure) (value : Payload) :
    create session size bits value w = (.error (.refused failure), w) := by
  rw [create, hu]
  rfl

/-- A handle that passes the checks is duplicated. -/
theorem Found.duplicate_eq (hf : Found w session h found) (hc : h.checkObject required = .ok ())
    (ht : h.tag.reissued new = .ok tag) :
    duplicate session h new required w =
      (.ok ⟨.cell w.cells.size, h.size, tag⟩, w.share found.2) := by
  rw [duplicate, Act.bind_of_ok (resolve_eq_ok hf hc)]
  cases new with
  | none =>
    cases ht
    rfl
  | some bits =>
    obtain ⟨⟨⟩, hu, ht⟩ := Except.bind_eq_ok.1 ht
    cases ht
    simp only [hu]
    rfl

/-- Nothing is minted if a check refuses, or if it does for the bits that are asked for. -/
theorem Found.duplicate_refused (hf : Found w session h found) {failure : Failure}
    (hr : (do h.checkObject required; h.tag.reissued new) = .error failure) :
    duplicate session h new required w = (.error (.refused failure), w) := by
  cases hc : h.checkObject required with
  | error failure' =>
    rw [hc] at hr
    cases hr
    rw [duplicate, resolve, hc]
    rfl
  | ok =>
    rw [hc] at hr
    rw [duplicate, Act.bind_of_ok (resolve_eq_ok hf hc)]
    cases new with
    | none => cases hr
    | some bits =>
      have hr : (do requireUnreserved bits; return Tag.object ||| bits) = .error failure := hr
      cases hu : requireUnreserved bits with
      | error failure' =>
        rw [hu] at hr
        cases hr
        simp only [hu]
        rfl
      | ok =>
        rw [hu] at hr
        cases hr

end Object

namespace Frame

variable {f : Frame} {h : Handle}

theorem bindEngine_eq {found : Nat × Engine} (hf : Engine.Found f.world h found) :
    bindEngine h f = (.ok found.2, { f with session := some found.2.session }) := by
  have hr : onWorld (Engine.resolve h) f = (.ok found, f) := by
    rw [onWorld_apply, Engine.resolve_eq_ok hf]
  rw [bindEngine, Act.bind_of_ok hr]
  rfl

theorem bindBenchmark_eq {found : Nat × Benchmark} (hf : Benchmark.Found f.world h found) :
    bindBenchmark h f = (.ok found, { f with session := some found.2.session }) := by
  have hr : onWorld (Benchmark.resolve h) f = (.ok found, f) := by
    rw [onWorld_apply, Benchmark.resolve_eq_ok hf]
  rw [bindBenchmark, Act.bind_of_ok hr]
  rfl

theorem lookSession_eq {α : Type} [Inhabited α] {id : SessionId} {session : Session}
    (h : f.world.sessions[id]? = some session) (look : Session → α) :
    lookSession id look f = (.ok (look session), f) := by
  rw [lookSession, Act.look, h]
  rfl

end Frame

/-! ### Releasing by the exported call -/

/-- The world without the thing that a pointer leads to. -/
def World.without (w : World) (p : Pointer) : World :=
  match p with
  | .word _ => w
  | .cell a =>
    match w.cells[a]? with
    | some (.engine _) => w.clear a
    | some (.benchmark b) => Benchmark.release w a b
    | some (.object o) => Object.release w a o
    | _ => w

theorem Engine.Found.without_eq {w : World} {h : Handle} {found : Nat × Engine}
    (hf : Engine.Found w h found) : w.without h.pointer = w.clear found.1 := by
  simp [World.without, hf.pointer, hf.cell]

theorem Benchmark.Found.without_eq {w : World} {h : Handle} {found : Nat × Benchmark}
    (hf : Benchmark.Found w h found) :
    w.without h.pointer = Benchmark.release w found.1 found.2 := by
  simp [World.without, hf.pointer, hf.cell]

theorem Object.Found.without_eq {w : World} {session : SessionId} {h : Handle}
    {found : Nat × ObjectCell} (hf : Object.Found w session h found) :
    w.without h.pointer = Object.release w found.1 found.2 := by
  simp [World.without, hf.pointer, hf.cell]

namespace Call

variable {w : World} {c : Call} {h : Handle}

theorem attempt_of_body {answer : Answer} {f : Frame}
    (hb : c.body ⟨w, none, c⟩ = (.ok answer, f)) :
    c.attempt w = (.ok ⟨.ok answer, f.memory⟩, f.world) := by
  rw [attempt, hb]

/-- Releasing succeeds if all of it does. -/
theorem attempt_destroy {w' : World} {session : Option SessionId}
    (hd : destroyAny h ⟨w, none, destroy h⟩ = (.ok (), ⟨w', session, destroy h⟩)) :
    (destroy h).attempt w = (.ok ⟨.ok (.code .success), destroy h⟩, w') := by
  have hb : (destroy h).body ⟨w, none, destroy h⟩ =
      (.ok (.code .success), ⟨w', session, destroy h⟩) := Act.bind_of_ok hd
  exact attempt_of_body hb

theorem destroy_null (hn : h.isNull = true) :
    (destroy h).attempt w = (.ok ⟨.ok (.code .success), destroy h⟩, w) := by
  have hd : destroyAny h ⟨w, none, destroy h⟩ = (.ok (), ⟨w, none, destroy h⟩) := by
    rw [destroyAny, if_pos hn]
    rfl
  exact attempt_destroy hd

theorem destroy_entry (hn : h.isNull = false) (ht : h.tag = Tag.descriptor) :
    (destroy h).attempt w = (.ok ⟨.ok (.code .success), destroy h⟩, w) := by
  have hd : destroyAny h ⟨w, none, destroy h⟩ = (.ok (), ⟨w, none, destroy h⟩) := by
    rw [destroyAny, if_neg (by simp [hn]), ht, if_neg (by decide), if_neg (by decide),
      if_neg (by decide), if_pos rfl]
    rfl
  exact attempt_destroy hd

theorem destroy_benchmark {found : Nat × Benchmark} (hf : Benchmark.Found w h found) :
    (destroy h).attempt w =
      (.ok ⟨.ok (.code .success), destroy h⟩, Benchmark.release w found.1 found.2) := by
  have ht : h.tag.hasClass .instanceBits = true := hf.tag
  have hd : destroyAny h ⟨w, none, destroy h⟩ = (.ok (),
      ⟨Benchmark.release w found.1 found.2, some found.2.session, destroy h⟩) := by
    rw [destroyAny, if_neg (by simp [hf.not_null]), if_pos ht,
      Act.bind_of_ok (Frame.bindBenchmark_eq hf)]
    rfl
  exact attempt_destroy hd

theorem follow_eq {σ : Type} {a : Nat} {cell : Cell} {f : Frame} {next : Nat × Cell → Act Frame σ}
    (hp : h.pointer = .cell a) (hc : f.world.cells[a]? = some cell) (hg : cell.grant? ≠ none) :
    (Frame.onWorld (World.follow h.pointer) >>= next) f = next (a, cell) f := by
  refine Act.bind_of_ok ?_
  rw [Frame.onWorld_apply, hp, World.follow_eq_ok hc hg]

theorem destroy_object {session : SessionId} {found : Nat × ObjectCell}
    (hf : Object.Found w session h found) (hb : ¬ h.tag.Claims .benchmark) :
    (destroy h).attempt w =
      (.ok ⟨.ok (.code .success), destroy h⟩, Object.release w found.1 found.2) := by
  have hb : ¬ h.tag.hasClass .instanceBits = true := hb
  have ht : h.tag.hasClass .object = true := hf.tag
  have hd : destroyAny h ⟨w, none, destroy h⟩ = (.ok (),
      ⟨Object.release w found.1 found.2, none, destroy h⟩) := by
    rw [destroyAny, if_neg (by simp [hf.not_null]), if_neg hb, if_pos ht,
      follow_eq hf.pointer hf.cell (by simp)]
    rfl
  exact attempt_destroy hd

theorem destroy_engine {found : Nat × Engine} (hf : Engine.Found w h found) :
    (destroy h).attempt w = (.ok ⟨.ok (.code .success), destroy h⟩, w.clear found.1) := by
  have ht : h.tag = Tag.engine := hf.tag
  have hd : destroyAny h ⟨w, none, destroy h⟩ = (.ok (), ⟨w.clear found.1, none, destroy h⟩) := by
    rw [destroyAny, if_neg (by simp [hf.not_null]), ht, if_neg (by decide), if_neg (by decide),
      if_pos rfl, follow_eq hf.pointer hf.cell (by simp)]
    rfl
  exact attempt_destroy hd

end Call

/-! ### Releasing through an engine -/

namespace Engine

variable {w : World} {e : Engine} {h : Handle}

theorem own_eq {found : Nat × Benchmark} (hf : Benchmark.Found w h found)
    (hs : found.2.session = e.session) : e.own h w = (.ok found, w) := by
  rw [own, Act.bind_of_ok (Benchmark.resolve_eq_ok hf)]
  simp only [if_pos hs]
  rfl

theorem destroy_benchmark {found : Nat × Benchmark} (hf : Benchmark.Found w h found)
    (hs : found.2.session = e.session) :
    e.destroy h w = (.ok (), Benchmark.release w found.1 found.2) := by
  have ht : h.tag.hasClass .instanceBits = true := hf.tag
  rw [destroy, if_neg (by simp [hf.not_null]), if_pos ht, destroyBenchmark,
    if_neg (by simp [hf.not_null]), Act.bind_of_ok (own_eq hf hs)]
  rfl

theorem destroy_object {found : Nat × ObjectCell} (hf : Object.Found w e.session h found)
    (hb : ¬ h.tag.Claims .benchmark) :
    e.destroy h w = (.ok (), Object.release w found.1 found.2) := by
  have hb : ¬ h.tag.hasClass .instanceBits = true := hb
  have ht : h.tag.hasClass .object = true := hf.tag
  rw [destroy, if_neg (by simp [hf.not_null]), if_neg hb, if_pos ht, hf.destroy_eq]

/-- Nothing is released through the handle of an engine, of another engine's benchmark or of
another session's object. -/
theorem destroy_own_kind (ht : h.tag = Tag.engine) (hn : h.isNull = false) :
    e.destroy h w = (.error (.refused (.unknownTag h.tag)), w) := by
  rw [destroy, if_neg (by simp [hn]), ht, if_neg (by decide), if_neg (by decide),
    if_neg (by decide)]
  rfl

theorem destroy_foreign_benchmark {found : Nat × Benchmark} (hf : Benchmark.Found w h found)
    (hs : found.2.session ≠ e.session) :
    e.destroy h w = (.error (.refused .foreignBenchmark), w) := by
  have ht : h.tag.hasClass .instanceBits = true := hf.tag
  have ho : e.own h w = (.error (.refused .foreignBenchmark), w) := by
    rw [own, Act.bind_of_ok (Benchmark.resolve_eq_ok hf)]
    simp only [if_neg hs]
    rfl
  rw [destroy, if_neg (by simp [hf.not_null]), if_pos ht, destroyBenchmark,
    if_neg (by simp [hf.not_null]), Act.bind_of_stop ho]

theorem destroy_foreign_object {session : SessionId} {found : Nat × ObjectCell}
    (hf : Object.Found w session h found) (hb : ¬ h.tag.Claims .benchmark)
    (hs : session ≠ e.session) : e.destroy h w = (.error (.refused .foreignObject), w) := by
  have hb : ¬ h.tag.hasClass .instanceBits = true := hb
  have ht : h.tag.hasClass .object = true := hf.tag
  have hr : Object.resolve e.session h 0 w = (.error (.refused .foreignObject), w) := by
    rw [← hf.session] at hs
    simp only [Object.resolve, hf.checked, Act.ofExcept, Act.bind_apply, Act.pure_apply,
      hf.not_null, hf.pointer, World.follow_eq_ok hf.cell (by simp), if_neg hs,
      Bool.false_eq_true, if_false]
    rfl
  rw [destroy, if_neg (by simp [hf.not_null]), if_neg hb, if_pos ht, Object.destroy,
    Act.bind_of_stop hr]

/-- Null handles and those of catalog entries stand for nothing that could be released. -/
theorem destroy_entry (ht : h.tag = Tag.descriptor) : e.destroy h w = (.ok (), w) := by
  have hc : (h.isNull && !h.tag.hasClass .descriptor) = false := by
    rw [ht, show Tag.descriptor.hasClass .descriptor = true by decide]
    simp
  rw [destroy, if_neg (by simp [hc]), ht, if_neg (by decide), if_neg (by decide), if_pos rfl]
  rfl

theorem destroy_null (hn : h.isNull = true) : ∃ result, ∀ w, e.destroy h w = (result, w) := by
  by_cases hd : h.tag.hasClass .descriptor = true
  · by_cases hb : h.tag.hasClass .instanceBits = true
    · refine ⟨.ok (), fun w => ?_⟩
      rw [destroy, if_neg (by simp [hd]), if_pos hb, destroyBenchmark, if_pos hn]
      rfl
    by_cases ho : h.tag.hasClass .object = true
    · refine ⟨.error (.refused .emptyObject), fun w => ?_⟩
      have hc : h.checkObject 0 = .ok () :=
        Handle.checkObject_eq_ok.2 ⟨by decide, ho, by simp [Tag.hasClass]⟩
      rw [destroy, if_neg (by simp [hd]), if_neg hb, if_pos ho, Object.destroy, Object.resolve, hc]
      simp only [hn, if_true]
      rfl
    by_cases ht : h.tag = .descriptor
    · exact ⟨.ok (), fun w => destroy_entry ht⟩
    · refine ⟨.error (.refused (.unknownTag h.tag)), fun w => ?_⟩
      rw [destroy, if_neg (by simp [hd]), if_neg hb, if_neg ho, if_neg ht]
      rfl
  · refine ⟨.ok (), fun w => ?_⟩
    rw [destroy, if_pos (by simp [hn, hd])]
    rfl

end Engine

/-! ### Handles that are booked -/

namespace Ledger.Backed

variable {l : Ledger} {w : World} {h : Handle} {session : SessionId}

theorem engine_found (hb : l.Backed w) (hm : (h, .engine session) ∈ l.held) :
    ∃ found, Engine.Found w h found ∧ found.2.session = session :=
  Engine.found_iff.1 (World.sessionOf_eq_some.2
    ⟨hb.claims hm, .engine session, hb.leads _ hm, rfl, rfl⟩)

theorem benchmark_found (hb : l.Backed w) (hm : (h, .benchmark session) ∈ l.held) :
    ∃ found, Benchmark.Found w h found ∧ found.2.session = session :=
  Benchmark.found_iff.1 (World.sessionOf_eq_some.2
    ⟨hb.claims hm, .benchmark session, hb.leads _ hm, rfl, rfl⟩)

theorem object_found {root : Nat} (hb : l.Backed w) (hm : (h, .object session root) ∈ l.held) :
    ∃ found, Object.Found w session h found ∧ found.2.payload = root := by
  obtain ⟨a, c, hp, hc, hg⟩ := World.cell_of_grantAt (hb.leads _ hm)
  cases c with
  | object o =>
    cases hg
    exact ⟨(a, o), ⟨hp, hc, rfl, hb.claims hm⟩, rfl⟩
  | _ => cases hg

theorem not_benchmark {root : Nat} (hb : l.Backed w) (hm : (h, .object session root) ∈ l.held) :
    ¬ h.tag.Claims .benchmark := fun hc =>
  absurd (hb.kind_of_claims hm hc) (by simp)

theorem change_without {g : Grant} (hb : l.Backed w) (hm : (h, g) ∈ l.held) :
    w.Change (w.without h.pointer) (.released h) := by
  cases g with
  | engine session =>
    obtain ⟨found, hf, -⟩ := hb.engine_found hm
    rw [hf.without_eq]
    exact .released hf.grant (World.grantAt_cleared hf.pointer hf.cell rfl) rfl
  | benchmark session =>
    obtain ⟨found, hf, -⟩ := hb.benchmark_found hm
    rw [hf.without_eq]
    exact Benchmark.change_release hf
  | object session root =>
    obtain ⟨found, hf, -⟩ := hb.object_found hm
    rw [hf.without_eq]
    exact Object.change_release hf

/-- The exported call releases what a known handle stands for, and nothing else. -/
theorem destroy_known (hb : l.Backed w) (hk : l.Knows h) :
    (Call.destroy h).attempt w =
      (.ok ⟨.ok (.code .success), .destroy h⟩, w.without h.pointer) := by
  rcases hk with hn | he | ⟨g, hm⟩
  · rw [Call.destroy_null hn, Handle.isNull_iff.1 hn]
    rfl
  · obtain ⟨i, rfl⟩ := hb.descriptors h he
    cases hn : (Handle.descriptor i).isNull with
    | true => exact Call.destroy_null hn
    | false => exact Call.destroy_entry hn rfl
  · cases g with
    | engine session =>
      obtain ⟨found, hf, -⟩ := hb.engine_found hm
      rw [Call.destroy_engine hf, hf.without_eq]
    | benchmark session =>
      obtain ⟨found, hf, -⟩ := hb.benchmark_found hm
      rw [Call.destroy_benchmark hf, hf.without_eq]
    | object session root =>
      obtain ⟨found, hf, -⟩ := hb.object_found hm
      rw [Call.destroy_object hf (hb.not_benchmark hm), hf.without_eq]

end Ledger.Backed

end HandleBench
