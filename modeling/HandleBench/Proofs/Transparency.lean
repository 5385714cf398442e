import HandleBench.Proofs.BareInstances
import HandleBench.Proofs.Lockstep
import HandleBench.Proofs.Moves

/-!
# Concrete descriptors change nothing

A host asks engines for all kinds of things, and in between it may give concrete descriptors to
benchmarks as often as it likes, whether they are accepted or not. The replies to all else are the
same as without them: `World.Alike.repliesTo`. What carries this through a run is that the worlds
are alike, that is, the same but for concrete descriptors. A call leads from alike worlds to
alike worlds and gets the same reply in both, `EngineCall.perform_lockstep`, and a concrete
descriptor leads to an alike world in any case, `World.alike_aside`.
-/

namespace HandleBench

/-! ### Alike worlds -/

/-- A cell without what a concrete descriptor can change. -/
def Cell.bare : Cell → Cell
  | .benchmark b => .benchmark b.bare
  | c => c

/-- Cells that are the same when bare hold two benchmarks, or they are the same. -/
theorem Cell.cases_of_bare {c c' : Cell} (h : c'.bare = c.bare) :
    (∃ b b', c = .benchmark b ∧ c' = .benchmark b' ∧ b'.bare = b.bare) ∨ c' = c := by
  cases c with
  | benchmark b =>
    cases c' with
    | benchmark b' => exact .inl ⟨b, b', rfl, rfl, Cell.benchmark.inj h⟩
    | _ => cases h
  | _ => cases c' <;> first | exact .inr h | cases h

namespace World

/-- The worlds are the same but for what concrete descriptors have changed. -/
structure Alike (w w' : World) : Prop where
  /-- The sessions are the same. -/
  sessions : w'.sessions = w.sessions
  /-- The payloads are the same. -/
  payloads : w'.payloads = w.payloads
  /-- The cells are the same when bare. -/
  cells : w'.cells.map Cell.bare = w.cells.map Cell.bare

namespace Alike

variable {w w' w'' : World}

theorem refl (w : World) : w.Alike w := ⟨rfl, rfl, rfl⟩

theorem trans (h : w.Alike w') (h' : w'.Alike w'') : w.Alike w'' :=
  ⟨h'.sessions.trans h.sessions, h'.payloads.trans h.payloads, h'.cells.trans h.cells⟩

theorem size (h : w.Alike w') : w'.cells.size = w.cells.size := by
  simpa using congrArg Array.size h.cells

theorem cell (h : w.Alike w') (a : Nat) :
    w'.cells[a]?.map Cell.bare = w.cells[a]?.map Cell.bare := by
  simpa using congrArg (·[a]?) h.cells

/-- The same cell can be put to a new address. -/
theorem push (h : w.Alike w') (c : Cell) :
    Alike { w with cells := w.cells.push c } { w' with cells := w'.cells.push c } := by
  refine ⟨h.sessions, h.payloads, ?_⟩
  rw [Array.map_push, Array.map_push, h.cells]

/-- It can be put to an address that there is. -/
theorem set (h : w.Alike w') (a : Nat) (c : Cell) :
    Alike { w with cells := w.cells.setIfInBounds a c }
      { w' with cells := w'.cells.setIfInBounds a c } := by
  refine ⟨h.sessions, h.payloads, ?_⟩
  rw [Array.map_setIfInBounds, Array.map_setIfInBounds, h.cells]

theorem changeSession (h : w.Alike w') (id : SessionId) (f : Session → Session) :
    (w.changeSession id f).Alike (w'.changeSession id f) :=
  ⟨congrArg (·.modify id f) h.sessions, h.payloads, h.cells⟩

/-- A benchmark may become any that is the same when bare. -/
theorem of_bare {a : Nat} {b b' : Benchmark} (hc : w.cells[a]? = some (.benchmark b))
    (hb : b'.bare = b.bare) :
    w.Alike { w with cells := w.cells.setIfInBounds a (.benchmark b') } := by
  have hat : (w.cells.map Cell.bare)[a]? = some (Cell.bare (.benchmark b')) := by
    rw [Array.getElem?_map, hc, Option.map_some, Cell.bare, Cell.bare, hb]
  obtain ⟨ha, hget⟩ := Array.getElem?_eq_some_iff.1 hat
  refine ⟨rfl, rfl, ?_⟩
  rw [Array.map_setIfInBounds, Array.setIfInBounds_def, dif_pos ha, ← hget,
    Array.set_getElem_self]

end Alike

variable {α : Type} {yields : α → Prop}

/-- Alike worlds show the same behind a pointer, a benchmark apart, of which they show the same when
bare. Whoever does not care for more is in lockstep. -/
theorem follow_bind_lockstep {p : Pointer} {next : Nat × Cell → Act World α}
    (hn : ∀ a c c', c'.bare = c.bare → next (a, c') = next (a, c))
    (hl : ∀ found, (next found).Lockstep Alike yields) :
    (follow p >>= next).Lockstep Alike yields := by
  intro w w' hr
  rw [Act.bind_apply, Act.bind_apply]
  cases p with
  | word value => exact ⟨_, w, w', rfl, rfl, hr, fun _ he => by cases he⟩
  | cell a =>
    have hcell := hr.cell a
    simp only [follow]
    cases hc : w.cells[a]? with
    | none =>
      rw [hc, Option.map_none, Option.map_eq_none_iff] at hcell
      rw [hcell]
      exact ⟨_, w, w', rfl, rfl, hr, fun _ he => by cases he⟩
    | some c =>
      rw [hc, Option.map_some, Option.map_eq_some_iff] at hcell
      obtain ⟨c', hc', hbare⟩ := hcell
      rw [hc']
      rcases Cell.cases_of_bare hbare with ⟨b, b', rfl, rfl, -⟩ | rfl
      · simp only [hn a _ _ hbare]
        exact hl _ w w' hr
      · cases c' with
        | released => exact ⟨_, w, w', rfl, rfl, hr, fun _ he => by cases he⟩
        | _ => exact hl _ w w' hr

theorem allocate_alike (c : Cell) : (allocate c).Lockstep Alike fun _ => True := by
  intro w w' hr
  refine ⟨.ok w.cells.size, _, _, rfl, ?_, hr.push c, fun _ _ => trivial⟩
  rw [allocate, hr.size]

theorem acquireSlot_alike (id : SessionId) (limit : Option Nat) :
    (acquireSlot id limit).Lockstep Alike fun _ => True := by
  intro w w' hr
  have hlive : w'.live id = w.live id := by rw [live, live, hr.sessions]
  unfold acquireSlot
  rw [hlive]
  split
  · exact ⟨_, w, w', rfl, rfl, hr, fun _ he => by cases he⟩
  · exact ⟨_, _, _, rfl, rfl, hr.changeSession _ _, fun _ _ => trivial⟩

end World

theorem Object.resolve_alike (h : Handle) (session : SessionId) (required : Tag) :
    (resolve session h required).Lockstep World.Alike fun _ => True := by
  refine .bind (.ofExcept fun _ _ => trivial) fun _ _ => ?_
  split
  · exact .refuse _
  refine World.follow_bind_lockstep (fun a c c' hbare => ?_) fun found => ?_
  · rcases Cell.cases_of_bare hbare with ⟨b, b', rfl, rfl, -⟩ | rfl <;> rfl
  · split
    · split
      · exact .pure trivial
      · exact .refuse _
    · exact .stop _

/-- Alike worlds show the same objects. -/
theorem World.alike_showsObjects : ShowsObjects Alike (fun _ => True) fun _ => True where
  payloads := Alike.payloads
  swap hr _ := ⟨hr.sessions, rfl, hr.cells⟩
  resolve {h} _ := Object.resolve_alike h
  allocate object := (allocate_alike (.object object)).mono fun _ _ _ _ => trivial
  release hr _ := hr.set _ .released

/-! ### Engines -/

namespace Engine

/-- Gives a benchmark a job and yields what the host gets of it. -/
def fulfil (e : Engine) (h : Handle) : Job → Act World Gift
  | .concretize concrete => do
    e.concretize h concrete
    return .nothing
  | .encode packs => return .handles [← e.encode h packs]
  | .decode encoded packs => return .packs (← e.decode h encoded packs)
  | .encrypt encoded => return .handles [← e.encrypt h encoded]
  | .decrypt encrypted => return .handles [← e.decrypt h encrypted]
  | .load handles => return .handles [← e.load h handles]
  | .store result slots => return .handles (← e.store h result slots)
  | .operate loaded selections => return .handles [← e.operate h loaded selections]

theorem fulfil_eq (e : Engine) (h : Handle) (job : Job) :
    e.fulfil h job = e.own h >>= fun found => found.2.fulfil found.1 job := by
  cases job <;> exact Act.bind_bind _ _ _

/-- Calls a method and yields what the host gets of it. -/
def answer (e : Engine) : Method → Act World Gift
  | .entries => return .handles e.entries
  | .subscribe slots => return .handles (← Act.ofExcept (e.subscribe slots))
  | .schemeName id => return .text (← Act.ofExcept (e.schemeName id))
  | .securityName id => return .text (← Act.ofExcept (e.securityName id))
  | .arity entry => return .count (← Act.ofExcept (e.arity entry))
  | .setCount entry => return .count (← Act.ofExcept (e.setCount entry))
  | .text entry params => return .text (← Act.ofExcept (e.text entry params))
  | .describe entry memory =>
    return .outline (e.describe entry memory).1 (e.describe entry memory).2
  | .create entry params => return .handles [← e.create entry params]
  | .destroyBenchmark h => do
    e.destroyBenchmark h
    return .nothing
  | .destroy h => do
    e.destroy h
    return .nothing
  | .give h job => e.fulfil h job

end Engine

/-! ### Lockstep -/

namespace Benchmark

open World (Alike alike_showsObjects)

/-- The same benchmark does a job in lockstep. -/
theorem fulfil_lockstep (address : Nat) (b : Benchmark) (job : Job) :
    (b.fulfil address job).Lockstep Alike fun _ => True := by
  cases job with
  | concretize concrete =>
    refine .bind (.bind (.ofExcept fun _ _ => trivial) fun inst (_ : True) => ?_)
      fun _ (_ : True) => .pure trivial
    exact .change fun _ _ hr => hr.set address _
  | encode packs =>
    exact .bind (b.encode_lockstep alike_showsObjects packs) fun _ _ => .pure trivial
  | decode encoded packs =>
    exact .bind (b.decode_lockstep alike_showsObjects trivial packs) fun _ _ => .pure trivial
  | encrypt encoded =>
    exact .bind (b.encrypt_lockstep alike_showsObjects trivial) fun _ _ => .pure trivial
  | decrypt encrypted =>
    exact .bind (b.decrypt_lockstep alike_showsObjects trivial) fun _ _ => .pure trivial
  | load handles =>
    have clear : ∀ x ∈ handles, True := fun _ _ => trivial
    exact .bind (b.load_lockstep alike_showsObjects clear) fun _ _ => .pure trivial
  | store result slots =>
    exact .bind (b.store_lockstep alike_showsObjects trivial slots) fun _ _ => .pure trivial
  | operate loaded selections =>
    exact .bind (b.operate_lockstep alike_showsObjects trivial selections) fun _ _ => .pure trivial

/-- What is the same for benchmarks that are the same when bare is done in lockstep. -/
theorem resolve_bind_lockstep {α : Type} {yields : α → Prop} (h : Handle)
    {next : Nat × Benchmark → Act World α}
    (hn : ∀ a b b', b'.bare = b.bare → next (a, b') = next (a, b))
    (hl : ∀ found, (next found).Lockstep Alike yields) :
    (resolve h >>= next).Lockstep Alike yields := by
  unfold resolve
  split
  · exact .refuse _
  split
  · exact .refuse _
  rw [Act.bind_bind]
  refine World.follow_bind_lockstep (fun a c c' hbare => ?_) fun found => ?_
  · rcases Cell.cases_of_bare hbare with ⟨b, b', rfl, rfl, hbb⟩ | rfl
    · exact hn a b b' hbb
    · rfl
  · split
    · exact hl _
    · exact .stop _

theorem create_alike (session : SessionId) (limit : Option Nat) (description : Description)
    (params : Option (List Param)) :
    (create session limit description params).Lockstep Alike fun _ => True := by
  refine .bind (World.acquireSlot_alike session limit) fun _ _ => ?_
  split
  · exact .bind (World.allocate_alike _) fun _ _ => .pure trivial
  · refine .bind (.change fun _ _ hr => hr.changeSession session _) fun _ _ => ?_
    exact .refuse _

end Benchmark

namespace Engine

open World (Alike alike_showsObjects)

variable {α : Type} {yields : α → Prop} (e : Engine)

theorem resolve_alike (h : Handle) : (resolve h).Lockstep Alike fun _ => True := by
  unfold resolve
  split
  · exact .refuse _
  refine World.follow_bind_lockstep (fun a c c' hbare => ?_) fun found => ?_
  · rcases Cell.cases_of_bare hbare with ⟨b, b', rfl, rfl, -⟩ | rfl <;> rfl
  · split
    · exact .pure trivial
    · exact .stop _

/-- Alike worlds have benchmarks that are the same when bare, so whatever is the same for these is
done in lockstep. -/
theorem own_bind_lockstep (h : Handle) {next : Nat × Benchmark → Act World α}
    (hn : ∀ a b b', b'.bare = b.bare → next (a, b') = next (a, b))
    (hl : ∀ found, (next found).Lockstep Alike yields) :
    (e.own h >>= next).Lockstep Alike yields := by
  rw [own, Act.bind_bind]
  refine Benchmark.resolve_bind_lockstep h (fun a b b' hbare => ?_) fun ⟨a, b⟩ => ?_
  · simp only [(Benchmark.bare_eq_iff.1 hbare).1]
    split
    · exact hn a b b' hbare
    · rfl
  · dsimp only
    split
    · exact hl (a, b)
    · exact .refuse _

/-- A job is done in lockstep. -/
theorem fulfil_lockstep (h : Handle) (job : Job) :
    (e.fulfil h job).Lockstep Alike fun _ => True := by
  rw [fulfil_eq]
  refine e.own_bind_lockstep h (fun a b b' hbare => ?_) fun found =>
    Benchmark.fulfil_lockstep found.1 found.2 job
  exact congrFun (Benchmark.fulfil_congr a hbare) job

theorem destroyBenchmark_alike (h : Handle) :
    (e.destroyBenchmark h).Lockstep Alike fun _ => True := by
  unfold destroyBenchmark
  split
  · exact .pure trivial
  refine e.own_bind_lockstep h (fun a b b' hbare => ?_) fun found => ?_
  · have hsession := (Benchmark.bare_eq_iff.1 hbare).1
    simp only [Benchmark.release, hsession]
  · exact .change fun _ _ hr => (hr.set found.1 .released).changeSession _ _

theorem destroy_alike (h : Handle) : (e.destroy h).Lockstep Alike fun _ => True := by
  unfold destroy
  split
  · exact .pure trivial
  split
  · exact e.destroyBenchmark_alike h
  split
  · exact Object.destroy_lockstep alike_showsObjects e.session trivial
  split
  · exact .pure trivial
  · exact .refuse _

/-- Every method is in lockstep. -/
theorem answer_lockstep (m : Method) : (e.answer m).Lockstep Alike fun _ => True := by
  cases m with
  | entries => exact .pure trivial
  | describe entry memory => exact .pure trivial
  | create entry params =>
    refine .bind (.bind (.ofExcept fun _ _ => trivial) fun description (_ : True) => ?_)
      fun _ (_ : True) => .pure trivial
    exact Benchmark.create_alike e.session _ description params
  | destroyBenchmark h => exact .bind (e.destroyBenchmark_alike h) fun _ _ => .pure trivial
  | destroy h => exact .bind (e.destroy_alike h) fun _ _ => .pure trivial
  | give h job => exact e.fulfil_lockstep h job
  | _ => exact .bind (.ofExcept fun _ _ => trivial) fun _ (_ : True) => .pure trivial

end Engine

/-! ### Runs -/

/-- A method with the handle of the engine that it is called on. -/
structure EngineCall where
  /-- The handle. -/
  engine : Handle
  /-- The method. -/
  method : Method

/-- Calls the method on the engine. -/
def EngineCall.perform (c : EngineCall) : Act World Gift := do
  let found ← Engine.resolve c.engine
  found.2.answer c.method

/-- What comes after an act only wraps up its value. -/
theorem Act.bind_snd {σ α β : Type} {act : Act σ α} {next : α → Act σ β}
    (hn : ∀ a s, (next a s).2 = s) (s : σ) : ((act >>= next) s).2 = (act s).2 := by
  rw [bind_apply]
  cases act s with
  | mk result s' =>
    cases result with
    | ok a => exact hn a s'
    | error reason => rfl

theorem Engine.fulfil_world (e : Engine) (h : Handle) (job : Job) (w : World) :
    (e.fulfil h job w).2 = (e.carryOut h job w).2 := by
  cases job with
  | store result slots => exact Act.bind_snd (fun _ _ => rfl) w
  | _ =>
    exact (Act.bind_snd (fun _ _ => rfl) w).trans (Act.bind_snd (fun _ _ => rfl) w).symm

theorem Engine.answer_world (e : Engine) (m : Method) (w : World) :
    (e.answer m w).2 = (m.perform e w).2 := by
  cases m with
  | entries => rfl
  | describe entry memory =>
    have checked : ((Method.describe entry memory).perform e w).2 =
        ((Act.ofExcept (e.describe entry memory).1 : Act World Unit) w).2 :=
      Act.bind_snd (fun _ _ => rfl) w
    refine Eq.trans ?_ checked.symm
    cases (e.describe entry memory).1 <;> rfl
  | give h job =>
    refine (e.fulfil_world h job w).trans (Eq.symm ?_)
    refine @Act.bind_snd World _ _ (e.carryOut h job) _ (fun made s => ?_) w
    cases World.benchmark? (id w) h <;> rfl
  | _ => exact (Act.bind_snd (fun _ _ => rfl) w).trans (Act.bind_snd (fun _ _ => rfl) w).symm

/-- A call of a method changes the world as it does when it is a move of a host. -/
theorem EngineCall.perform_world (c : EngineCall) (w : World) :
    (c.perform w).2 = ((Move.method c.engine c.method).perform w).2 := by
  rw [perform, Move.perform, Act.bind_apply, Act.bind_apply]
  cases Engine.resolve c.engine w with
  | mk result w' =>
    cases result with
    | ok found => exact found.2.answer_world c.method w'
    | error reason => rfl

/-- **A call is answered alike in alike worlds.** -/
theorem EngineCall.perform_lockstep (c : EngineCall) :
    c.perform.Lockstep World.Alike fun _ => True :=
  .bind (Engine.resolve_alike c.engine) fun found _ => found.2.answer_lockstep c.method

/-- A line in the script of a host. -/
inductive Line where
  /-- A call of a method. -/
  | call (c : EngineCall)
  /-- A concrete descriptor for a benchmark, which is put in between. -/
  | aside (engine benchmark : Handle) (concrete : Descriptor)

namespace Line

/-- The call, unless the line is put in. -/
def call? : Line → Option EngineCall
  | call c => some c
  | aside .. => none

/-- What is done for the line. -/
def perform : Line → Act World Gift
  | call c => c.perform
  | aside engine benchmark concrete =>
    EngineCall.perform ⟨engine, .give benchmark (.concretize concrete)⟩

end Line

namespace World

variable {w w' : World}

/-- The replies to calls one after the other. -/
def replies (w : World) : List EngineCall → List (Except Stop Gift)
  | [] => []
  | c :: cs => (c.perform w).1 :: (c.perform w).2.replies cs

/-- The world after them. -/
def afterCalls (w : World) : List EngineCall → World
  | [] => w
  | c :: cs => (c.perform w).2.afterCalls cs

/-- The replies to the calls of a script. -/
def repliesTo (w : World) : List Line → List (Except Stop Gift)
  | [] => []
  | .call c :: lines => (c.perform w).1 :: (c.perform w).2.repliesTo lines
  | line :: lines => (line.perform w).2.repliesTo lines

/-- The world after a script. -/
def afterLines (w : World) : List Line → World
  | [] => w
  | line :: lines => (line.perform w).2.afterLines lines

/-- **A concrete descriptor leads to an alike world**, whether it is accepted or not. -/
theorem alike_aside (w : World) (engine benchmark : Handle) (concrete : Descriptor) :
    w.Alike ((Line.aside engine benchmark concrete).perform w).2 := by
  have changes : ((Line.aside engine benchmark concrete).perform).Atomic w False
      fun _ w' => w.Alike w' := by
    refine Act.Atomic.bind ((Engine.resolve_atomic w engine).mono False.elim
      fun _ _ hf => hf) fun found _ => ?_
    rw [Engine.answer, Engine.fulfil_eq]
    refine Act.Atomic.bind ((Engine.own_atomic w found.2 benchmark).mono False.elim
      fun _ _ hf => hf) fun owned ⟨hf, _⟩ => ?_
    rw [Benchmark.fulfil, Benchmark.concretize, Act.bind_bind]
    refine Act.Atomic.bind_ofExcept fun inst hi => ?_
    exact Alike.of_bare hf.cell (Benchmark.bare_eq_iff.2 ⟨rfl, Instance.bare_concretize hi⟩)
  unfold Act.Atomic Act.Ends at changes
  split at changes
  · next h => rw [h]; exact changes
  · next h => rw [h, changes.1]; exact .refl w

/-- Calls get the same replies in alike worlds, whatever concrete descriptors are put in between
for one of them, and lead to alike worlds again. -/
theorem Alike.repliesTo (hr : w.Alike w') (lines : List Line) :
    w'.repliesTo lines = w.replies (lines.filterMap Line.call?) ∧
      (w.afterCalls (lines.filterMap Line.call?)).Alike (w'.afterLines lines) := by
  induction lines generalizing w w' with
  | nil => exact ⟨rfl, hr⟩
  | cons line lines ih =>
    cases line with
    | call c =>
      obtain ⟨result, v, v', hv, hv', hr', -⟩ := c.perform_lockstep w w' hr
      obtain ⟨hreplies, hafter⟩ := ih hr'
      simp only [List.filterMap_cons, Line.call?, World.repliesTo, replies, afterCalls,
        afterLines, Line.perform, hv, hv']
      exact ⟨congrArg _ hreplies, hafter⟩
    | aside engine benchmark concrete =>
      exact ih (hr.trans (w'.alike_aside engine benchmark concrete))

end World

end HandleBench
