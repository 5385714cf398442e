import HandleBench.Proofs.Calls

/-!
# Acts in lockstep

Carried out in two related states, an act in *lockstep* yields the same value or stops for the same
reason, and leaves related states again: `Act.Lockstep`. Whatever is done to objects is in lockstep
in worlds that show the same objects, `World.ShowsObjects`, and so are the jobs of benchmarks, since
all they need is in objects. Such are worlds that differ in a single cell, which is released in one
of them, as long as no handle points there. All acts keep them in lockstep that are given no such
handle, whatever they do to the rest of the world. `Call.body_lockstep` says so of the bodies of all
calls at once.
-/

namespace HandleBench

namespace Act

variable {σ τ α β : Type}

/-- From two states in the relation the act ends the same way, in two states in the relation again;
a value that it yields is as `yields` says. -/
def Lockstep (act : Act σ α) (relates : σ → σ → Prop) (yields : α → Prop) : Prop :=
  ∀ s s', relates s s' → ∃ result t t', act s = (result, t) ∧ act s' = (result, t') ∧
    relates t t' ∧ ∀ a, result = .ok a → yields a

namespace Lockstep

variable {relates : σ → σ → Prop} {yields : α → Prop} {act : Act σ α}

theorem mono {yields' : α → Prop} (h : act.Lockstep relates yields)
    (hy : ∀ a, yields a → yields' a) : act.Lockstep relates yields' := by
  intro s s' hr
  obtain ⟨result, t, t', hs, hs', ht, ha⟩ := h s s' hr
  exact ⟨result, t, t', hs, hs', ht, fun a he => hy a (ha a he)⟩

theorem weaken (h : act.Lockstep relates yields) : act.Lockstep relates fun _ => True :=
  h.mono fun _ _ => trivial

protected theorem pure {a : α} (h : yields a) : (pure a : Act σ α).Lockstep relates yields := by
  intro s s' hr
  refine ⟨_, s, s', rfl, rfl, hr, fun a' he => ?_⟩
  cases he
  exact h

theorem stop (reason : Stop) : (stop reason : Act σ α).Lockstep relates yields :=
  fun s s' hr => ⟨_, s, s', rfl, rfl, hr, fun _ he => by cases he⟩

theorem refuse (failure : Failure) : (refuse failure : Act σ α).Lockstep relates yields :=
  stop _

theorem ofExcept {e : Except Failure α} (h : ∀ a, e = .ok a → yields a) :
    (ofExcept e : Act σ α).Lockstep relates yields := by
  cases e with
  | ok a => exact Lockstep.pure (h a rfl)
  | error failure => exact refuse failure

theorem look {f : σ → α} (hf : ∀ s s', relates s s' → f s' = f s) :
    (look f).Lockstep relates fun _ => True := by
  intro s s' hr
  refine ⟨.ok (f s), s, s', rfl, ?_, hr, fun _ _ => trivial⟩
  rw [Act.look, hf s s' hr]

theorem change {f : σ → σ} (hf : ∀ s s', relates s s' → relates (f s) (f s')) :
    (change f).Lockstep relates fun _ => True :=
  fun s s' hr => ⟨.ok (), f s, f s', rfl, rfl, hf s s' hr, fun _ _ => trivial⟩

/-- One act after another, in lockstep whether the second happens or not. -/
protected theorem bind {next : α → Act σ β} {yields' : β → Prop}
    (h : act.Lockstep relates yields) (hn : ∀ a, yields a → (next a).Lockstep relates yields') :
    (act >>= next).Lockstep relates yields' := by
  intro s s' hr
  obtain ⟨result, t, t', hs, hs', ht, hy⟩ := h s s' hr
  rw [bind_apply, bind_apply, hs, hs']
  cases result with
  | ok a => exact hn a (hy a rfl) t t' ht
  | error reason => exact ⟨_, t, t', rfl, rfl, ht, fun _ he => by cases he⟩

/-- The same act, over all elements of a list. -/
theorem mapM {f : α → Act σ β} {xs : List α}
    (h : ∀ x ∈ xs, (f x).Lockstep relates fun _ => True) :
    (xs.mapM f).Lockstep relates fun _ => True := by
  induction xs with
  | nil => exact Lockstep.pure trivial
  | cons x xs ih =>
    rw [List.mapM_cons]
    refine .bind (h x List.mem_cons_self) fun y _ => ?_
    refine .bind (ih fun x' hx' => h x' (List.mem_cons_of_mem x hx')) fun ys _ => ?_
    exact .pure trivial

end Lockstep

end Act

/-! ### Worlds that differ in a cell -/

/-- The handle does not point at the cell. -/
def Handle.Avoids (h : Handle) (a : Nat) : Prop := h.pointer ≠ .cell a

namespace World

/-- The second world is the first one without what is at an address. -/
structure Lacks (a : Nat) (w w' : World) : Prop where
  /-- The address is one of the first world. -/
  here : a < w.cells.size
  /-- Nothing else is different. -/
  eq : w' = w.clear a

variable {a : Nat} {w w' : World}

theorem cell?_clear {b : Nat} (hb : b ≠ a) (w : World) :
    (w.clear a).cells[b]? = w.cells[b]? :=
  Array.getElem?_setIfInBounds_ne (Ne.symm hb)

/-- A change that leaves cells alone can be made in both worlds. -/
theorem Lacks.congr (hr : Lacks a w w') (f : World → World)
    (hc : (f w).cells = w.cells) (hf : f (w.clear a) = (f w).clear a) : Lacks a (f w) (f w') :=
  ⟨hc ▸ hr.here, hr.eq ▸ hf⟩

theorem follow_lockstep {p : Pointer} (hp : p ≠ .cell a) :
    (follow p).Lockstep (Lacks a) fun found => p = .cell found.1 ∧ found.1 ≠ a := by
  rintro w w' ⟨ha, rfl⟩
  cases p with
  | word value => exact ⟨_, w, _, rfl, rfl, ⟨ha, rfl⟩, fun _ he => by cases he⟩
  | cell b =>
    have hb : b ≠ a := fun he => hp (by rw [he])
    simp only [follow, cell?_clear hb]
    cases w.cells[b]? with
    | none => exact ⟨_, w, _, rfl, rfl, ⟨ha, rfl⟩, fun _ he => by cases he⟩
    | some c =>
      have found : ∀ c' : Cell, ∀ x, (Except.ok (b, c') : Except Stop (Nat × Cell)) = .ok x →
          Pointer.cell b = .cell x.1 ∧ x.1 ≠ a := by
        rintro c' x he
        cases he
        exact ⟨rfl, hb⟩
      cases c with
      | released => exact ⟨_, w, _, rfl, rfl, ⟨ha, rfl⟩, fun _ he => by cases he⟩
      | _ => exact ⟨_, w, _, rfl, rfl, ⟨ha, rfl⟩, found _⟩

/-- Whatever is put somewhere comes to a new address. -/
theorem allocate_lockstep (cell : Cell) : (allocate cell).Lockstep (Lacks a) (· ≠ a) := by
  rintro w w' ⟨ha, rfl⟩
  have hsize : (w.clear a).cells.size = w.cells.size := Array.size_setIfInBounds
  have hpush : (w.cells.setIfInBounds a .released).push cell =
      (w.cells.push cell).setIfInBounds a .released := by grind
  refine ⟨.ok w.cells.size, { w with cells := w.cells.push cell }, _, rfl, ?_, ⟨?_, rfl⟩,
    fun b he => ?_⟩
  · rw [allocate, hsize, clear, hpush]
    rfl
  · rw [Array.size_push]
    omega
  · cases he
    omega

theorem Lacks.set (hr : Lacks a w w') {b : Nat} (hb : b ≠ a) (cell : Cell) :
    Lacks a { w with cells := w.cells.setIfInBounds b cell }
      { w' with cells := w'.cells.setIfInBounds b cell } := by
  obtain ⟨ha, rfl⟩ := hr
  refine ⟨by rwa [Array.size_setIfInBounds], ?_⟩
  simp only [clear, Array.setIfInBounds_comm _ _ (Ne.symm hb)]

/-- A session can be opened and changed without notice. -/
theorem openSession_lockstep (errors : NameTable) :
    (openSession errors).Lockstep (Lacks a) fun _ => True := by
  rintro w w' ⟨ha, rfl⟩
  exact ⟨_, _, _, rfl, rfl, ⟨ha, rfl⟩, fun _ _ => trivial⟩

theorem Lacks.changeSession (hr : Lacks a w w') (id : SessionId) (f : Session → Session) :
    Lacks a (w.changeSession id f) (w'.changeSession id f) :=
  hr.congr (·.changeSession id f) rfl rfl

theorem acquireSlot_lockstep (id : SessionId) (limit : Option Nat) :
    (acquireSlot id limit).Lockstep (Lacks a) fun _ => True := by
  intro w w' hr
  have hlive : w'.live = w.live := by
    rw [hr.eq]
    rfl
  unfold acquireSlot
  rw [hlive]
  split
  · exact ⟨_, w, w', rfl, rfl, hr, fun _ he => by cases he⟩
  · exact ⟨_, _, _, rfl, rfl, hr.changeSession _ _, fun _ _ => trivial⟩

end World

/-! ### Objects -/

/-- Worlds in the relation show the same objects to whoever asks with handles that are `clear`: such
a handle stands for the same object in both, at an address that is `free`, and the payloads are the
same. Changing payloads, new objects and releasing what is at a free address keep the relation. -/
structure World.ShowsObjects (relates : World → World → Prop) (clear : Handle → Prop)
    (free : Nat → Prop) : Prop where
  /-- The payloads are the same. -/
  payloads : ∀ {w w'}, relates w w' → w'.payloads = w.payloads
  /-- They may become any others. -/
  swap : ∀ {w w'}, relates w w' → ∀ payloads, relates { w with payloads } { w' with payloads }
  /-- A handle stands for the same object. -/
  resolve : ∀ {h}, clear h → ∀ session required,
    (Object.resolve session h required).Lockstep relates (free ·.1)
  /-- A new object gets a handle of the same address. -/
  allocate : ∀ object, (allocate (.object object)).Lockstep relates
    fun b => ∀ size tag, clear ⟨.cell b, size, tag⟩
  /-- An address can be released. -/
  release : ∀ {w w' b}, relates w w' → free b → relates (w.clear b) (w'.clear b)

/-- They show the same objects still when the same was done to the payloads. -/
theorem World.ShowsObjects.edit {relates : World → World → Prop} {clear : Handle → Prop}
    {free : Nat → Prop} (hw : World.ShowsObjects relates clear free) {w w' : World}
    (hr : relates w w') (f : Array (Option SharedPayload) → Array (Option SharedPayload)) :
    relates { w with payloads := f w.payloads } { w' with payloads := f w'.payloads } := by
  rw [hw.payloads hr]
  exact hw.swap hr _

theorem Object.resolve_lacks {a : Nat} {h : Handle} (hh : h.Avoids a) (session : SessionId)
    (required : Tag) : (resolve session h required).Lockstep (World.Lacks a) (·.1 ≠ a) := by
  refine .bind (.ofExcept fun _ _ => trivial) fun _ _ => ?_
  split
  · exact .refuse _
  refine .bind (World.follow_lockstep hh) fun found hf => ?_
  split
  · split
    · exact .pure hf.2
    · exact .refuse _
  · exact .stop _

/-- Worlds that differ in a cell show the same objects to handles that do not point there. -/
theorem World.lacks_showsObjects (a : Nat) :
    ShowsObjects (Lacks a) (·.Avoids a) (· ≠ a) where
  payloads hr := by
    rw [hr.eq]
    rfl
  swap hr payloads := hr.congr (fun w => { w with payloads }) rfl rfl
  resolve := Object.resolve_lacks
  allocate _ := (allocate_lockstep _).mono fun _ hb _ _ he => hb (Pointer.cell.inj he)
  release hr hb := hr.set hb .released

section Shown

variable {relates : World → World → Prop} {clear : Handle → Prop} {free : Nat → Prop}
  (hw : World.ShowsObjects relates clear free)

include hw

namespace Object

variable {h : Handle} (session : SessionId)

theorem mint_lockstep (object : ObjectCell) (size : UInt64) (tag : Tag) :
    (mint object size tag).Lockstep relates clear :=
  .bind (hw.allocate object) fun _ hb => .pure (hb size tag)

theorem create_lockstep (size : UInt64) (bits : Tag) (value : Payload) :
    (create session size bits value).Lockstep relates clear := by
  refine .bind (.ofExcept fun _ _ => trivial) fun _ _ => ?_
  refine .bind (.look fun _ _ hr => by rw [hw.payloads hr]) fun index _ => ?_
  refine .bind (.change fun _ _ hr => hw.edit hr fun payloads => payloads.push _) fun _ _ => ?_
  exact mint_lockstep hw _ size _

theorem retrieve_lockstep (hh : clear h) (required : Tag) (expected : PayloadKind) :
    (retrieve session h required expected).Lockstep relates fun _ => True := by
  refine .bind (hw.resolve hh session required) fun found _ => ?_
  refine .bind (.look fun _ _ hr => by simp only [World.payload?, hw.payloads hr]) fun value _ => ?_
  split
  · exact .pure trivial
  · exact .refuse _

theorem duplicate_lockstep (hh : clear h) (bits : Option Tag) (required : Tag) :
    (duplicate session h bits required).Lockstep relates clear := by
  refine .bind (hw.resolve hh session required) fun found _ => ?_
  have shared : ∀ tag : Tag, (Act.change (fun w : World => w.addHolder found.2.payload) >>=
      fun _ => mint found.2 h.size tag).Lockstep relates clear := by
    intro tag
    refine .bind (.change fun _ _ hr => ?_) fun _ _ => mint_lockstep hw found.2 h.size tag
    exact hw.edit hr fun payloads => payloads.modify _ _
  cases bits with
  | none => exact shared h.tag
  | some bits =>
    refine .bind (.ofExcept fun _ _ => trivial) fun _ _ => ?_
    exact shared (.object ||| bits)

theorem release_lockstep {b : Nat} (hb : free b) (object : ObjectCell) :
    (Act.change (release · b object)).Lockstep relates fun _ => True :=
  .change fun _ _ hr => hw.edit (hw.release hr hb) fun payloads => payloads.modify _ _

theorem destroy_lockstep (hh : clear h) :
    (destroy session h).Lockstep relates fun _ => True :=
  .bind (hw.resolve hh session 0) fun found hf => release_lockstep hw hf found.2

theorem holders_lockstep (hh : clear h) :
    (holders session h).Lockstep relates fun _ => True :=
  .bind (hw.resolve hh session 0) fun _ _ =>
    .look fun _ _ hr => by simp only [World.payload?, hw.payloads hr]

end Object

/-! ### Jobs -/

namespace Carrier

variable {h : Handle} (session : SessionId)

theorem share_lockstep (hh : clear h) : (share session h).Lockstep relates clear :=
  Object.duplicate_lockstep hw session hh none dataBit

theorem store_lockstep (hh : clear h) (slots : List Handle) :
    (store session h slots).Lockstep relates fun _ => True := by
  refine .bind (share_lockstep hw session hh) fun stored hs => ?_
  cases slots with
  | nil => exact .bind (Object.destroy_lockstep hw session hs) fun _ _ => .pure trivial
  | cons slot slots => exact .pure trivial

theorem operate_lockstep (config : CarrierConfig) (hh : clear h) :
    (operate config session h).Lockstep relates fun _ => True := by
  unfold operate
  split
  · exact .stop _
  split
  · exact .refuse _
  · exact .weaken (share_lockstep hw session hh)

end Carrier

namespace Product

variable {h : Handle} (p : Product) (session : SessionId)

theorem encrypt_lockstep (hh : clear h) : (encrypt session h).Lockstep relates clear :=
  Object.duplicate_lockstep hw session hh _ _

theorem decrypt_lockstep (hh : clear h) : (decrypt session h).Lockstep relates clear :=
  Object.duplicate_lockstep hw session hh _ _

theorem load_lockstep {handles : List Handle} (hh : ∀ x ∈ handles, clear x) :
    (load session handles).Lockstep relates fun _ => True := by
  unfold load
  split
  · next encrypted =>
    exact .weaken (Object.duplicate_lockstep hw session (hh encrypted List.mem_cons_self) _ _)
  · exact .refuse _

theorem store_lockstep (hh : clear h) (slots : List Handle) :
    (store session h slots).Lockstep relates fun _ => True := by
  cases slots with
  | nil => exact .pure trivial
  | cons slot slots =>
    exact .bind (Object.duplicate_lockstep hw session hh _ _) fun stored _ => .pure trivial

theorem operate_lockstep (hh : clear h) (selections : List Selection) :
    (p.operate session h selections).Lockstep relates fun _ => True := by
  refine .bind (.ofExcept fun _ _ => trivial) fun selected _ => ?_
  refine .bind (Object.retrieve_lockstep hw session hh _ _) fun components _ => ?_
  refine .bind (.ofExcept fun _ _ => trivial) fun results _ => ?_
  exact .weaken (Object.create_lockstep hw session _ _ _)

end Product

namespace Benchmark

variable {h : Handle} (b : Benchmark)

theorem encode_lockstep (packs : List Pack) :
    (b.encode packs).Lockstep relates fun _ => True := by
  obtain ⟨session, inst⟩ := b
  cases inst with
  | product p =>
    refine .bind (.ofExcept fun _ _ => trivial) fun components _ => ?_
    exact .weaken (Object.create_lockstep hw session _ _ _)
  | carrier config => exact .weaken (Object.create_lockstep hw session _ _ _)

theorem decode_lockstep (hh : clear h) (packs : List Pack) :
    (b.decode h packs).Lockstep relates fun _ => True := by
  obtain ⟨session, inst⟩ := b
  cases inst with
  | product p => exact .bind (Object.retrieve_lockstep hw session hh _ _) fun _ _ => .pure trivial
  | carrier config =>
    exact .bind (Object.retrieve_lockstep hw session hh _ _) fun _ _ => .pure trivial

theorem encrypt_lockstep (hh : clear h) :
    (b.encrypt h).Lockstep relates fun _ => True := by
  obtain ⟨session, inst⟩ := b
  cases inst with
  | product p => exact .weaken (Product.encrypt_lockstep hw session hh)
  | carrier config => exact .weaken (Carrier.share_lockstep hw session hh)

theorem decrypt_lockstep (hh : clear h) :
    (b.decrypt h).Lockstep relates fun _ => True := by
  obtain ⟨session, inst⟩ := b
  cases inst with
  | product p => exact .weaken (Product.decrypt_lockstep hw session hh)
  | carrier config => exact .weaken (Carrier.share_lockstep hw session hh)

theorem load_lockstep {handles : List Handle} (hh : ∀ x ∈ handles, clear x) :
    (b.load handles).Lockstep relates fun _ => True := by
  obtain ⟨session, inst⟩ := b
  cases inst with
  | product p => exact Product.load_lockstep hw session hh
  | carrier config =>
    cases handles with
    | nil => exact .refuse _
    | cons first rest =>
      exact .weaken (Carrier.share_lockstep hw session (hh first List.mem_cons_self))

theorem store_lockstep (hh : clear h) (slots : List Handle) :
    (b.store h slots).Lockstep relates fun _ => True := by
  obtain ⟨session, inst⟩ := b
  cases inst with
  | product p => exact Product.store_lockstep hw session hh slots
  | carrier config => exact Carrier.store_lockstep hw session hh slots

theorem operate_lockstep (hh : clear h) (selections : List Selection) :
    (b.operate h selections).Lockstep relates fun _ => True := by
  obtain ⟨session, inst⟩ := b
  cases inst with
  | product p => exact p.operate_lockstep hw session hh selections
  | carrier config => exact Carrier.operate_lockstep hw session config hh

end Benchmark

end Shown

variable {a : Nat}

/-! ### Benchmarks -/

namespace Benchmark

variable {h : Handle} (b : Benchmark)

theorem resolve_lockstep (hh : h.Avoids a) :
    (resolve h).Lockstep (World.Lacks a) (·.1 ≠ a) := by
  unfold resolve
  split
  · exact .refuse _
  split
  · exact .refuse _
  refine .bind (World.follow_lockstep hh) fun found hf => ?_
  split
  · exact .pure hf.2
  · exact .stop _

theorem release_lockstep {address : Nat} (hb : address ≠ a) :
    (Act.change (release · address b)).Lockstep (World.Lacks a) fun _ => True :=
  .change fun _ _ hr => (hr.set hb .released).changeSession b.session _

theorem concretize_lockstep {address : Nat} (hb : address ≠ a) (concrete : Descriptor) :
    (b.concretize address concrete).Lockstep (World.Lacks a) fun _ => True := by
  refine .bind (.ofExcept fun _ _ => trivial) fun inst _ => ?_
  exact .change fun _ _ hr => hr.set hb _

/-- Creating a benchmark takes a slot and gives it back in both worlds or in none. -/
theorem create_lockstep (session : SessionId) (limit : Option Nat) (description : Description)
    (params : Option (List Param)) :
    (create session limit description params).Lockstep (World.Lacks a) fun _ => True := by
  refine .bind (World.acquireSlot_lockstep session limit) fun _ _ => ?_
  split
  · exact .bind (World.allocate_lockstep _) fun _ _ => .pure trivial
  · refine .bind (.change fun _ _ hr => hr.changeSession session _) fun _ _ => ?_
    exact .refuse _

end Benchmark

/-! ### Engines -/

namespace Engine

variable {h : Handle}

theorem resolve_lockstep (hh : h.Avoids a) :
    (resolve h).Lockstep (World.Lacks a) fun _ => True := by
  unfold resolve
  split
  · exact .refuse _
  refine .bind (World.follow_lockstep hh) fun found _ => ?_
  split
  · exact .pure trivial
  · exact .stop _

theorem start_lockstep (backend : Backend) (settings : EngineSettings) :
    (start backend settings).Lockstep (World.Lacks a) fun _ => True := by
  refine .bind (.ofExcept fun _ _ => trivial) fun _ _ => ?_
  split
  · refine .bind (World.openSession_lockstep _) fun session _ => ?_
    exact .bind (World.allocate_lockstep _) fun _ _ => .pure trivial
  · exact .refuse _

theorem create_lockstep (e : Engine) (h : Handle) (params : Option (List Param)) :
    (e.create h params).Lockstep (World.Lacks a) fun _ => True :=
  .bind (.ofExcept fun _ _ => trivial) fun description _ =>
    Benchmark.create_lockstep e.session _ description params

end Engine

/-! ### Calls -/

namespace Frame

variable {α : Type} {h : Handle}

/-- The second frame is the first one with its world without what is at an address. -/
structure Lacks (a : Nat) (f f' : Frame) : Prop where
  /-- The address is one of the first world. -/
  here : a < f.world.cells.size
  /-- Nothing else is different. -/
  eq : f' = { f with world := f.world.clear a }

theorem onWorld_lockstep {act : Act World α} {yields : α → Prop}
    (h : act.Lockstep (World.Lacks a) yields) : (onWorld act).Lockstep (Lacks a) yields := by
  rintro f f' ⟨ha, rfl⟩
  obtain ⟨result, w, w', hw, hw', hr, hy⟩ := h f.world _ ⟨ha, rfl⟩
  refine ⟨result, { f with world := w }, { f with world := w' }, ?_, ?_, ⟨hr.here, ?_⟩, hy⟩
  · rw [onWorld_apply, hw]
  · rw [onWorld_apply, hw']
  · rw [hr.eq]

theorem write_lockstep (memory : Call) : (write memory).Lockstep (Lacks a) fun _ => True :=
  .change fun _ _ hr => ⟨hr.here, by rw [hr.eq]⟩

theorem bindSession_lockstep (id : SessionId) :
    (bindSession id).Lockstep (Lacks a) fun _ => True :=
  .change fun _ _ hr => ⟨hr.here, by rw [hr.eq]⟩

theorem bindEngine_lockstep (hh : h.Avoids a) :
    (bindEngine h).Lockstep (Lacks a) fun _ => True := by
  refine .bind (onWorld_lockstep (Engine.resolve_lockstep hh)) fun found _ => ?_
  exact .bind (bindSession_lockstep _) fun _ _ => .pure trivial

theorem bindBenchmark_lockstep (hh : h.Avoids a) :
    (bindBenchmark h).Lockstep (Lacks a) (·.1 ≠ a) := by
  refine .bind (onWorld_lockstep (Benchmark.resolve_lockstep hh)) fun found hf => ?_
  exact .bind (bindSession_lockstep _) fun _ _ => .pure hf

theorem lookSession_lockstep [Inhabited α] (id : SessionId) (f : Session → α) :
    (lookSession id f).Lockstep (Lacks a) fun _ => True :=
  .look fun _ _ hr => by rw [hr.eq]; rfl

end Frame

namespace Call

variable {α β : Type} {h : Handle}

/-- Reading arguments has nothing to do with the world. -/
theorem readArray_lockstep (array : HostArray α) (name : String) :
    (readArray array name).Lockstep (Frame.Lacks a) (· = announced array) :=
  .ofExcept fun _ hr => read_eq_announced hr

theorem require_lockstep (slot : Slot α) (name : String) :
    (require slot name).Lockstep (Frame.Lacks a) fun _ => True := by
  cases slot with
  | none => exact .refuse _
  | some content => exact .pure trivial

theorem discard_lockstep {act : Act Frame α} {yields : α → Prop}
    (h : act.Lockstep (Frame.Lacks a) yields) :
    (discard act).Lockstep (Frame.Lacks a) fun _ => True :=
  .bind h fun _ _ => .pure trivial

theorem readParams_lockstep (params : Option (HostArray Param)) :
    (readParams params).Lockstep (Frame.Lacks a) fun _ => True := by
  cases params with
  | none => exact .pure trivial
  | some array =>
    refine .bind (readArray_lockstep array _) fun read _ => ?_
    refine .bind (discard_lockstep (.ofExcept fun _ _ => trivial)) fun _ (_ : True) => ?_
    exact .pure trivial

theorem scratch_lockstep (arity : Nat) (hosts : List (HostArray Param)) :
    (scratch arity hosts).Lockstep (Frame.Lacks a) fun _ => True := by
  refine .mapM fun host _ => ?_
  dsimp only
  split
  · exact .bind (discard_lockstep (require_lockstep _ _)) fun _ _ => .pure trivial
  · exact .pure trivial

/-- What a call writes and answers at last is the same in both worlds. -/
theorem finish_lockstep (memory : Call) (answer : Answer) :
    (do Frame.write memory; return answer : Act Frame Answer).Lockstep (Frame.Lacks a)
      fun _ => True :=
  .bind (Frame.write_lockstep memory) fun _ _ => .pure trivial

theorem destroyAny_lockstep (hh : h.Avoids a) :
    (destroyAny h).Lockstep (Frame.Lacks a) fun _ => True := by
  unfold destroyAny
  split
  · exact .pure trivial
  split
  · refine .bind (Frame.bindBenchmark_lockstep hh) fun found hf => ?_
    exact Frame.onWorld_lockstep (Benchmark.release_lockstep found.2 hf)
  split
  · refine .bind (Frame.onWorld_lockstep (World.follow_lockstep hh)) fun found hf => ?_
    split
    · have objects := World.lacks_showsObjects a
      exact Frame.onWorld_lockstep (Object.release_lockstep objects hf.2 _)
    · exact .stop _
  split
  · refine .bind (Frame.onWorld_lockstep (World.follow_lockstep hh)) fun found hf => ?_
    split
    · exact Frame.onWorld_lockstep (.change fun _ _ hr => hr.set hf.2 .released)
    · exact .stop _
  split
  · exact .pure trivial
  · exact .refuse _

theorem describeEntry_lockstep (hh : h.Avoids a) (entry : Handle) (descriptor : Slot RawDescriptor)
    (slots : HostArray (HostArray Param)) :
    (describeEntry h entry descriptor slots).Lockstep (Frame.Lacks a) fun _ => True := by
  refine .bind (Frame.bindEngine_lockstep hh) fun e _ => ?_
  split
  · exact .refuse _
  refine .bind (.ofExcept fun _ _ => trivial) fun arity (_ : True) => ?_
  refine .bind (.ofExcept fun _ _ => trivial) fun count (_ : True) => ?_
  refine .bind (scratch_lockstep _ _) fun blank _ => ?_
  split
  · exact .refuse _
  · exact .pure trivial

/-- **Every call takes the same course** in worlds that differ in a cell to which none of its
handles leads. -/
theorem body_lockstep (c : Call) (hc : ∀ x ∈ c.handles, x.Avoids a) :
    c.body.Lockstep (Frame.Lacks a) fun _ => True := by
  have lead : ∀ {k : Kind} {x : Handle}, c.lead = some (k, x) → x.Avoids a :=
    fun hl => hc _ (lead_mem hl)
  have objects := World.lacks_showsObjects a
  cases c with
  | version major minor revision =>
    refine .bind (discard_lockstep (require_lockstep _ _)) fun _ _ => ?_
    refine .bind (discard_lockstep (require_lockstep _ _)) fun _ _ => ?_
    refine .bind (discard_lockstep (require_lockstep _ _)) fun _ _ => ?_
    exact finish_lockstep _ _
  | start slot settings =>
    show (if slot.isNone then _ else _ : Act Frame Answer).Lockstep _ _
    split
    · exact .refuse _
    refine .bind (.ofExcept fun _ _ => trivial) fun read (_ : True) => ?_
    refine .bind (Frame.onWorld_lockstep (Engine.start_lockstep _ read)) fun made _ => ?_
    exact finish_lockstep _ _
  | destroy h => exact .bind (destroyAny_lockstep (lead rfl)) fun _ _ => .pure trivial
  | count h slot =>
    refine .bind (Frame.bindEngine_lockstep (lead rfl)) fun e _ => ?_
    refine .bind (discard_lockstep (require_lockstep _ _)) fun _ _ => ?_
    exact finish_lockstep _ _
  | subscribe h slots =>
    refine .bind (Frame.bindEngine_lockstep (lead rfl)) fun e _ => ?_
    refine .bind (readArray_lockstep _ _) fun before _ => ?_
    refine .bind (.ofExcept fun _ _ => trivial) fun entries (_ : True) => ?_
    exact finish_lockstep _ _
  | details h entry arity sets =>
    refine .bind (Frame.bindEngine_lockstep (lead rfl)) fun e _ => ?_
    refine .bind (discard_lockstep (require_lockstep _ _)) fun _ _ => ?_
    refine .bind (discard_lockstep (require_lockstep _ _)) fun _ _ => ?_
    refine .bind (.ofExcept fun _ _ => trivial) fun size (_ : True) => ?_
    refine .bind (.ofExcept fun _ _ => trivial) fun count (_ : True) => ?_
    exact finish_lockstep _ _
  | describe h entry descriptor slots =>
    refine .bind (describeEntry_lockstep (lead rfl) _ _ _) fun written _ => ?_
    exact finish_lockstep _ _
  | create h entry params slot =>
    refine .bind (Frame.bindEngine_lockstep (lead rfl)) fun e _ => ?_
    refine .bind (discard_lockstep (require_lockstep _ _)) fun _ _ => ?_
    refine .bind (readParams_lockstep _) fun read _ => ?_
    refine .bind (Frame.onWorld_lockstep (Engine.create_lockstep e entry read)) fun made _ => ?_
    exact finish_lockstep _ _
  | text h entry params buffer =>
    refine .bind (Frame.bindEngine_lockstep (lead rfl)) fun e _ => ?_
    refine .bind (readParams_lockstep _) fun read _ => ?_
    refine .bind (.ofExcept fun _ _ => trivial) fun content (_ : True) => ?_
    exact finish_lockstep _ _
  | concretize h descriptor =>
    refine .bind (Frame.bindBenchmark_lockstep (lead rfl)) fun b hb => ?_
    refine .bind (require_lockstep _ _) fun raw _ => ?_
    refine .bind (.ofExcept fun _ _ => trivial) fun concrete (_ : True) => ?_
    refine .bind (Frame.onWorld_lockstep (b.2.concretize_lockstep hb concrete)) fun _ _ => ?_
    exact .pure trivial
  | encode h packs slot =>
    refine .bind (Frame.bindBenchmark_lockstep (lead rfl)) fun b _ => ?_
    refine .bind (require_lockstep _ _) fun memory _ => ?_
    refine .bind (discard_lockstep (require_lockstep _ _)) fun _ _ => ?_
    refine .bind (.ofExcept fun _ _ => trivial) fun read (_ : True) => ?_
    refine .bind (Frame.onWorld_lockstep (b.2.encode_lockstep objects read)) fun made _ => ?_
    exact finish_lockstep _ _
  | decode h source packs =>
    have hsource := hc source (by simp [handles])
    refine .bind (Frame.bindBenchmark_lockstep (lead rfl)) fun b _ => ?_
    refine .bind (require_lockstep _ _) fun memory _ => ?_
    refine .bind (.ofExcept fun _ _ => trivial) fun before (_ : True) => ?_
    have job := b.2.decode_lockstep objects hsource before
    refine .bind (Frame.onWorld_lockstep job) fun after _ => ?_
    exact finish_lockstep _ _
  | encrypt h source slot =>
    have hsource := hc source (by simp [handles])
    refine .bind (Frame.bindBenchmark_lockstep (lead rfl)) fun b _ => ?_
    refine .bind (discard_lockstep (require_lockstep _ _)) fun _ _ => ?_
    refine .bind (Frame.onWorld_lockstep (b.2.encrypt_lockstep objects hsource)) fun made _ => ?_
    exact finish_lockstep _ _
  | decrypt h source slot =>
    have hsource := hc source (by simp [handles])
    refine .bind (Frame.bindBenchmark_lockstep (lead rfl)) fun b _ => ?_
    refine .bind (discard_lockstep (require_lockstep _ _)) fun _ _ => ?_
    refine .bind (Frame.onWorld_lockstep (b.2.decrypt_lockstep objects hsource)) fun made _ => ?_
    exact finish_lockstep _ _
  | load h sources slot =>
    have hsources : ∀ x ∈ announced sources, x.Avoids a :=
      fun x hx => hc x (List.mem_cons_of_mem _ hx)
    refine .bind (Frame.bindBenchmark_lockstep (lead rfl)) fun b _ => ?_
    refine .bind (discard_lockstep (require_lockstep _ _)) fun _ _ => ?_
    refine .bind (readArray_lockstep _ _) fun read hr => ?_
    have job := b.2.load_lockstep objects (hr ▸ hsources)
    refine .bind (Frame.onWorld_lockstep job) fun made _ => ?_
    exact finish_lockstep _ _
  | store h result slots =>
    have hresult := hc result (by simp [handles])
    refine .bind (Frame.bindBenchmark_lockstep (lead rfl)) fun b _ => ?_
    refine .bind (readArray_lockstep _ _) fun before _ => ?_
    have job := b.2.store_lockstep objects hresult before
    refine .bind (Frame.onWorld_lockstep job) fun stored _ => ?_
    exact finish_lockstep _ _
  | operate h loaded selections slot =>
    have hloaded := hc loaded (by simp [handles])
    refine .bind (Frame.bindBenchmark_lockstep (lead rfl)) fun b _ => ?_
    refine .bind (discard_lockstep (require_lockstep _ _)) fun _ _ => ?_
    refine .bind (readArray_lockstep _ _) fun read _ => ?_
    have job := b.2.operate_lockstep objects hloaded read
    refine .bind (Frame.onWorld_lockstep job) fun made _ => ?_
    exact finish_lockstep _ _
  | schemeName h id buffer =>
    refine .bind (Frame.bindEngine_lockstep (lead rfl)) fun e _ => ?_
    refine .bind (.ofExcept fun _ _ => trivial) fun name (_ : True) => ?_
    exact finish_lockstep _ _
  | securityName h id buffer =>
    refine .bind (Frame.bindEngine_lockstep (lead rfl)) fun e _ => ?_
    refine .bind (.ofExcept fun _ _ => trivial) fun name (_ : True) => ?_
    exact finish_lockstep _ _
  | errorText h code buffer =>
    refine .bind (Frame.bindEngine_lockstep (lead rfl)) fun e _ => ?_
    refine .bind (Frame.lookSession_lockstep _ _) fun content _ => ?_
    exact finish_lockstep _ _
  | lastError h =>
    refine .bind (Frame.bindEngine_lockstep (lead rfl)) fun e _ => ?_
    exact .bind (Frame.lookSession_lockstep _ _) fun code _ => .pure trivial
  | lastErrorText h buffer =>
    refine .bind (Frame.bindEngine_lockstep (lead rfl)) fun e _ => ?_
    refine .bind (Frame.lookSession_lockstep _ _) fun content _ => ?_
    exact finish_lockstep _ _

end Call

end HandleBench
