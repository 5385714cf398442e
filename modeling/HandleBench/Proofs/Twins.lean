import HandleBench.Proofs.ResultShapes
import HandleBench.Proofs.Transparency

/-!
# Instances do not meet

What a step of the pipeline comes to is settled by the shape and the category of the product and by
what the host passes. A handle is passed with its tag, its size and whatever its session finds
behind it: *twins*, in one world or in two, agree in that. Given twins, akin products stop for the
same reason or yield twins again, `Product.fulfil_agrees`, whatever else there is in either world.
And a product stays akin to what was made of its parameters, wherever the host goes,
`Host.Created.remains`. Together with `World.Alike.repliesTo` this says that an instance has no
memory: `Host.instanceLaw`.
-/

namespace HandleBench

/-! ### Acts in two worlds -/

namespace Act

variable {σ α β γ δ : Type}

/-- Carried out in one state each, both acts stop for the same reason, or both yield, and the states
and the values are as `agrees` says. -/
def Agree (act : Act σ α) (s : σ) (act' : Act σ β) (s' : σ) (agrees : σ → σ → α → β → Prop) :
    Prop :=
  match act s, act' s' with
  | (.ok a, t), (.ok b, t') => agrees t t' a b
  | (.error reason, _), (.error reason', _) => reason = reason'
  | _, _ => False

namespace Agree

variable {act : Act σ α} {act' : Act σ β} {s s' : σ} {agrees : σ → σ → α → β → Prop}

theorem pure {a : α} {b : β} (h : agrees s s' a b) :
    Agree (pure a : Act σ α) s (Pure.pure b : Act σ β) s' agrees := h

theorem stop (reason : Stop) :
    Agree (stop reason : Act σ α) s (Act.stop reason : Act σ β) s' agrees := rfl

/-- One act after another, on both sides. -/
theorem bind {next : α → Act σ γ} {next' : β → Act σ δ} {agrees' : σ → σ → γ → δ → Prop}
    (h : Agree act s act' s' agrees)
    (hn : ∀ t t' a b, agrees t t' a b → Agree (next a) t (next' b) t' agrees') :
    Agree (act >>= next) s (act' >>= next') s' agrees' := by
  unfold Agree at h
  split at h
  · next ha ha' =>
    unfold Agree
    rw [bind_of_ok ha, bind_of_ok ha']
    exact hn _ _ _ _ h
  · next ha ha' =>
    unfold Agree
    rw [bind_of_stop ha, bind_of_stop ha']
    exact h
  · exact h.elim

/-- The same computation comes first on both sides. -/
theorem ofExcept_bind {e : Except Failure α} {next : α → Act σ γ} {next' : α → Act σ δ}
    {agrees' : σ → σ → γ → δ → Prop}
    (hn : ∀ a, e = .ok a → Agree (next a) s (next' a) s' agrees') :
    Agree (ofExcept e >>= next) s (ofExcept e >>= next') s' agrees' := by
  cases e with
  | ok a => exact hn a rfl
  | error failure => exact stop _

/-- Both sides see the same. -/
theorem look_bind {f g : σ → α} {next : α → Act σ γ} {next' : α → Act σ δ}
    {agrees' : σ → σ → γ → δ → Prop} (h : g s' = f s)
    (hn : ∀ a, Agree (next a) s (next' a) s' agrees') :
    Agree (look f >>= next) s (look g >>= next') s' agrees' := by
  show Agree (next (f s)) s (next' (g s')) s' agrees'
  rw [h]
  exact hn (f s)

/-- A value is wrapped up on both sides. -/
theorem andThen {f : α → γ} {g : β → δ} {agrees' : σ → σ → γ → δ → Prop}
    (h : Agree act s act' s' agrees)
    (hf : ∀ t t' a b, agrees t t' a b → agrees' t t' (f a) (g b)) :
    Agree (do return f (← act)) s (do return g (← act')) s' agrees' :=
  h.bind hf

end Agree

end Act

/-! ### Twins -/

/-- The value behind a handle that is resolved as an object of a session, if its payload is
there. -/
def Object.behind (session : SessionId) (h : Handle) : Act World (Option Payload) := do
  let found ← resolve session h 0
  Act.look fun w => (w.payload? found.2.payload).map (·.value)

/-- Two sessions, of one world or of two, find the same behind their handles, and these look the
same. -/
structure Twins (w : World) (id : SessionId) (w' : World) (id' : SessionId) (h h' : Handle) :
    Prop where
  /-- They have the same tag. -/
  tag : h.tag = h'.tag
  /-- They have the same size. -/
  size : h.size = h'.size
  /-- They stand for the same value, or they are refused for the same reason. -/
  behind : (Object.behind id h w).1 = (Object.behind id' h' w').1

namespace Object

variable {w w' : World} {id id' : SessionId} {h h' : Handle} {found : Nat × ObjectCell}

/-- What a handle is resolved to does not depend on the bits that its tag has to carry. -/
theorem resolve_eq (id : SessionId) (h : Handle) (required : Tag) :
    resolve id h required = Act.ofExcept (h.checkObject required) >>= fun _ => resolve id h 0 := by
  cases hc : h.checkObject required with
  | error failure =>
    funext w
    exact resolve_refused hc w
  | ok =>
    have hobject : h.checkObject 0 = .ok () := by
      obtain ⟨-, hobject, -⟩ := Handle.checkObject_eq_ok.1 hc
      exact Handle.checkObject_eq_ok.2 ⟨by decide, hobject, by simp [Tag.hasClass]⟩
    rw [resolve, resolve, hc, hobject]
    rfl

theorem resolve_cases (w : World) (id : SessionId) (h : Handle) (required : Tag) :
    (∃ found, Found w id h found ∧ resolve id h required w = (.ok found, w)) ∨
      ∃ reason, resolve id h required w = (.error reason, w) := by
  have ends := resolve_atomic w id h required
  cases hr : resolve id h required w with
  | mk result w' =>
    cases result with
    | ok found =>
      obtain ⟨rfl, hf⟩ := ends.of_ok hr
      exact .inl ⟨found, hf, rfl⟩
    | error reason =>
      obtain ⟨rfl, -⟩ := ends.of_error hr
      exact .inr ⟨reason, rfl⟩

theorem Found.behind_eq (hf : Found w id h found) :
    behind id h w = (.ok ((w.payload? found.2.payload).map (·.value)), w) := by
  rw [behind, Act.bind_of_ok (resolve_eq_ok hf hf.checked)]
  rfl

theorem behind_of_error {reason : Stop} (hr : resolve id h 0 w = (.error reason, w)) :
    behind id h w = (.error reason, w) :=
  Act.bind_of_stop hr

end Object

namespace Twins

variable {w w' : World} {id id' : SessionId} {h h' : Handle} {bits required : Tag}

theorem null : Twins w id w' id' .null .null := ⟨rfl, rfl, rfl⟩

/-- Null handles are twins of each other, as many as there are. -/
theorem nulls {slots slots' : List Handle} (h : slots.length = slots'.length) :
    List.Forall₂ (Twins w id w' id') (slots.map fun _ => .null) (slots'.map fun _ => .null) := by
  rw [List.map_const', List.map_const', h]
  exact List.forall₂_same.2 fun x hx => List.eq_of_mem_replicate hx ▸ null

/-- Handles that are minted for objects of the same value are twins. -/
theorem minted (v v' : World) {object object' : ObjectCell} (hu : requireUnreserved bits = .ok ())
    (hv : v.cells = w.cells.push (.object object)) (hs : object.session = id)
    (hv' : v'.cells = w'.cells.push (.object object')) (hs' : object'.session = id')
    (hsame : (v.payload? object.payload).map (·.value) =
      (v'.payload? object'.payload).map (·.value)) (size : UInt64) :
    Twins v id v' id' ⟨.cell w.cells.size, size, .object ||| bits⟩
      ⟨.cell w'.cells.size, size, .object ||| bits⟩ := by
  refine ⟨rfl, rfl, ?_⟩
  rw [(Object.found_minted hu hv hs size).behind_eq,
    (Object.found_minted hu hv' hs' size).behind_eq, hsame]

theorem create (hu : requireUnreserved bits = .ok ()) (size : UInt64) (value : Payload) :
    Act.Agree (Object.create id size bits value) w (Object.create id' size bits value) w'
      fun v v' => Twins v id v' id' := by
  let made (w : World) (id : SessionId) : World :=
    { w with payloads := w.payloads.push (some ⟨value, 1⟩)
             cells := w.cells.push (.object ⟨id, w.payloads.size⟩) }
  have hlast : ∀ w id, (made w id).payload? w.payloads.size = some ⟨value, 1⟩ := by
    intro w id
    rw [World.payload?_push rfl, if_pos rfl]
  rw [Object.create, Object.create]
  refine .ofExcept_bind fun _ _ => ?_
  refine minted (made w id) (made w' id') hu rfl rfl rfl rfl ?_ size
  rw [hlast, hlast]

variable (ht : Twins w id w' id' h h')

include ht

/-- Twins are resolved to objects of the same value, or they are refused for the same reason. -/
theorem resolve (required : Tag) :
    Act.Agree (Object.resolve id h required) w (Object.resolve id' h' required) w'
      fun v v' found found' => v = w ∧ v' = w' ∧ found.2.session = id ∧ found'.2.session = id' ∧
        (w.payload? found.2.payload).map (·.value) =
          (w'.payload? found'.2.payload).map (·.value) := by
  have hcheck : h'.checkObject required = h.checkObject required := by
    rw [Handle.checkObject, Handle.checkObject, ht.tag]
  have hbehind := ht.behind
  rw [Object.resolve_eq id, Object.resolve_eq id', hcheck]
  refine .ofExcept_bind fun _ _ => ?_
  rcases Object.resolve_cases w id h 0 with ⟨found, hf, hr⟩ | ⟨reason, hr⟩
  · rcases Object.resolve_cases w' id' h' 0 with ⟨found', hf', hr'⟩ | ⟨reason', hr'⟩
    · rw [hf.behind_eq, hf'.behind_eq] at hbehind
      rw [Act.Agree, hr, hr']
      exact ⟨rfl, rfl, hf.session, hf'.session, Except.ok.inj hbehind⟩
    · rw [hf.behind_eq, Object.behind_of_error hr'] at hbehind
      cases hbehind
  · rcases Object.resolve_cases w' id' h' 0 with ⟨found', hf', hr'⟩ | ⟨reason', hr'⟩
    · rw [hf'.behind_eq, Object.behind_of_error hr] at hbehind
      cases hbehind
    · rw [Object.behind_of_error hr, Object.behind_of_error hr'] at hbehind
      rw [Act.Agree, hr, hr']
      exact Except.error.inj hbehind

/-- The same is retrieved from them. -/
theorem retrieve (required : Tag) (expected : PayloadKind) :
    Act.Agree (Object.retrieve id h required expected) w
      (Object.retrieve id' h' required expected) w' fun _ _ value value' => value = value' := by
  refine (ht.resolve required).bind ?_
  rintro _ _ found found' ⟨rfl, rfl, -, -, hsame⟩
  have hvalue : ∀ shared : Option SharedPayload, shared.bind (·.value.as? expected) =
      (shared.map (·.value)).bind (·.as? expected) := by
    intro shared
    cases shared <;> rfl
  refine .look_bind ?_ fun value => ?_
  · rw [hvalue, hvalue, hsame]
  · cases value with
    | none => exact .stop _
    | some value => exact .pure rfl

/-- Twins shared are twins. -/
theorem duplicate (hu : requireUnreserved bits = .ok ()) (required : Tag) :
    Act.Agree (Object.duplicate id h (some bits) required) w
      (Object.duplicate id' h' (some bits) required) w' fun v v' => Twins v id v' id' := by
  refine (ht.resolve required).bind ?_
  rintro v v' found found' ⟨rfl, rfl, hs, hs', hsame⟩
  have hshared : ∀ (w : World) (object : ObjectCell),
      ((w.share object).payload? object.payload).map (·.value) =
        (w.payload? object.payload).map (·.value) := by
    intro w object
    rw [World.payload?_congr (show (w.share object).payloads = (w.addHolder _).payloads from rfl),
      World.payload?_addHolder, if_pos rfl, Option.map_map]
    rfl
  refine .ofExcept_bind fun _ _ => ?_
  rw [ht.size]
  refine minted (v.share found.2) (v'.share found'.2) hu rfl hs rfl hs' ?_ h'.size
  rw [hshared, hshared, hsame]

end Twins

/-- The same job with the same samples and the same selections, for twins of the handles. Slots that
are to be filled need only be as many. Giving a concrete descriptor is no job of the pipeline. -/
inductive Job.Twins (twins : Handle → Handle → Prop) : Job → Job → Prop where
  /-- Encoding the same samples. -/
  | encode (packs : List Pack) : Job.Twins twins (.encode packs) (.encode packs)
  /-- Decoding into the same packs. -/
  | decode {h h' : Handle} (ht : twins h h') (packs : List Pack) :
    Job.Twins twins (.decode h packs) (.decode h' packs)
  /-- Encrypting. -/
  | encrypt {h h' : Handle} (ht : twins h h') : Job.Twins twins (.encrypt h) (.encrypt h')
  /-- Decrypting. -/
  | decrypt {h h' : Handle} (ht : twins h h') : Job.Twins twins (.decrypt h) (.decrypt h')
  /-- Loading. -/
  | load {hs hs' : List Handle} (ht : List.Forall₂ twins hs hs') :
    Job.Twins twins (.load hs) (.load hs')
  /-- Storing into as many slots. -/
  | store {h h' : Handle} (ht : twins h h') {slots slots' : List Handle}
    (hslots : slots.length = slots'.length) : Job.Twins twins (.store h slots) (.store h' slots')
  /-- Operating on the same selections. -/
  | operate {h h' : Handle} (ht : twins h h') (selections : List Selection) :
    Job.Twins twins (.operate h selections) (.operate h' selections)

/-- The host gets twins of the handles, or the same packs. -/
inductive Gift.Twins (twins : Handle → Handle → Prop) : Gift → Gift → Prop where
  /-- Handles. -/
  | handles {hs hs' : List Handle} (ht : List.Forall₂ twins hs hs') :
    Gift.Twins twins (.handles hs) (.handles hs')
  /-- Packs. -/
  | packs (packs : List Pack) : Gift.Twins twins (.packs packs) (.packs packs)

theorem Gift.Twins.handle {twins : Handle → Handle → Prop} {h h' : Handle} (ht : twins h h') :
    Gift.Twins twins (.handles [h]) (.handles [h']) :=
  .handles (.cons ht .nil)

/-! ### Akin products -/

namespace Product

variable {w w' : World} {id id' : SessionId} {h h' : Handle} {p q : Product}

theorem encode_agrees (hpq : p.Akin q) (packs : List Pack) :
    Act.Agree (p.encode id packs) w (q.encode id' packs) w' fun v v' => Twins v id v' id' := by
  rw [← hpq.encode]
  exact .ofExcept_bind fun components _ => Twins.create (by decide) _ _

theorem decode_agrees (ht : Twins w id w' id' h h') (packs : List Pack) :
    Act.Agree (decode id h packs) w (decode id' h' packs) w' fun _ _ after after' =>
      after = after' := by
  refine (ht.retrieve plainBit .matrices).andThen ?_
  rintro _ _ components _ rfl
  rfl

theorem load_agrees {hs hs' : List Handle} (ht : List.Forall₂ (Twins w id w' id') hs hs') :
    Act.Agree (load id hs) w (load id' hs') w' fun v v' => Twins v id v' id' := by
  have hlength := ht.length_eq
  cases ht with
  | nil => exact .stop _
  | cons hfirst hrest =>
    cases hrest with
    | nil => exact hfirst.duplicate (by decide) encryptedBit
    | cons =>
      have refused : ∀ id x y zs, load id (x :: y :: zs) =
          Act.refuse (.handleCount 1 (x :: y :: zs).length) := fun _ _ _ _ => rfl
      rw [refused, refused, hlength]
      exact .stop _

theorem store_agrees (ht : Twins w id w' id' h h') {slots slots' : List Handle}
    (hslots : slots.length = slots'.length) :
    Act.Agree (store id h slots) w (store id' h' slots') w' fun v v' =>
      List.Forall₂ (Twins v id v' id') := by
  cases slots with
  | nil =>
    obtain rfl := List.length_eq_zero_iff.1 hslots.symm
    exact .pure .nil
  | cons slot slots =>
    cases slots' with
    | nil => cases hslots
    | cons slot' slots' =>
      refine (ht.duplicate (by decide) operatedBit).andThen ?_
      exact fun _ _ _ _ hstored => .cons hstored (Twins.nulls (Nat.succ.inj hslots))

theorem operate_agrees (hpq : p.Akin q) (ht : Twins w id w' id' h h')
    (selections : List Selection) :
    Act.Agree (p.operate id h selections) w (q.operate id' h' selections) w' fun v v' =>
      Twins v id v' id' := by
  rw [← hpq.operate]
  refine .ofExcept_bind fun selected _ => ?_
  refine (ht.retrieve loadedBit .matrices).bind ?_
  rintro v v' components _ rfl
  exact .ofExcept_bind fun results _ => Twins.create (by decide) _ _

/-- **Akin products make twins of twins.** Whatever else is in their worlds, and whatever was done
there, they stop for the same reason or the host gets the same. -/
theorem fulfil_agrees (hpq : p.Akin q) {job job' : Job} (hj : job.Twins (Twins w id w' id') job')
    (a a' : Nat) :
    Act.Agree (Benchmark.fulfil a ⟨id, .product p⟩ job) w
      (Benchmark.fulfil a' ⟨id', .product q⟩ job') w'
        fun v v' => Gift.Twins (Twins v id v' id') := by
  cases hj with
  | encode packs => exact (encode_agrees hpq packs).andThen fun _ _ _ _ => .handle
  | decode ht packs =>
    refine (decode_agrees ht packs).andThen ?_
    rintro _ _ after _ rfl
    exact .packs after
  | encrypt ht => exact (ht.duplicate (by decide) encodedBit).andThen fun _ _ _ _ => .handle
  | decrypt ht => exact (ht.duplicate (by decide) encryptedBit).andThen fun _ _ _ _ => .handle
  | load ht => exact (load_agrees ht).andThen fun _ _ _ _ => .handle
  | store ht hslots => exact (store_agrees ht hslots).andThen fun _ _ _ _ => .handles
  | operate ht selections =>
    exact (operate_agrees hpq ht selections).andThen fun _ _ _ _ => .handle

/-- Products are akin that were made of the same parameters for the same category. -/
theorem akin_of_ofParams {d d' : Descriptor} {params : List Param}
    (hp : ofParams d params = .ok p) (hq : ofParams d' params = .ok q)
    (hcategory : d.category = d'.category) : p.Akin q := by
  obtain ⟨shape, hshape, -⟩ := Except.bind_eq_ok.1 hp
  obtain ⟨rfl, -⟩ := ofParams_eq_ok hshape hp
  obtain ⟨rfl, -⟩ := ofParams_eq_ok hshape hq
  exact ⟨rfl, rfl, rfl, hcategory⟩

end Product

/-- What two descriptions of matrix products make of the same parameters, for the same category. -/
theorem Benchmark.akin_of_instantiate {d d' : Description} {params : Option (List Param)}
    {i j : Instance} (hd : d.backend = .matrixProduct) (hd' : d'.backend = .matrixProduct)
    (hi : instantiate d params = .ok i) (hj : instantiate d' params = .ok j)
    (hcategory : d.descriptor.category = d'.descriptor.category) :
    ∃ p q, i = .product p ∧ j = .product q ∧ p.Akin q := by
  have made : ∀ {d : Description} {i : Instance}, d.backend = .matrixProduct →
      instantiate d params = .ok i → ∃ params' p, params = some params' ∧ i = .product p ∧
        Product.ofParams d.descriptor params' = .ok p := by
    intro d i hd hi
    obtain ⟨i', hmade, hi⟩ := Except.bind_eq_ok.1 hi
    obtain ⟨_, -, hi⟩ := Except.bind_eq_ok.1 hi
    cases hi
    unfold Description.instantiate at hmade
    rw [hd] at hmade
    cases params with
    | none => cases hmade
    | some params =>
      cases hp : Product.ofParams d.descriptor params with
      | error failure =>
        simp only [hp] at hmade
        cases hmade
      | ok p =>
        simp only [hp] at hmade
        cases hmade
        exact ⟨params, p, rfl, rfl, hp⟩
  obtain ⟨params', p, rfl, rfl, hp⟩ := made hd hi
  obtain ⟨_, q, h, rfl, hq⟩ := made hd' hj
  cases h
  exact ⟨p, q, rfl, rfl, Product.akin_of_ofParams hp hq hcategory⟩

/-! ### Instances in the hands of hosts -/

namespace Host

variable {b : Handle} {d : Description} {params : Option (List Param)} {id : SessionId}
  {s t : Host}

/-- The host has had an engine of the session create the benchmark `b` of the description for the
parameters, and it has made any moves since. -/
inductive Created (b : Handle) (d : Description) (params : Option (List Param)) (id : SessionId) :
    Host → Prop where
  /-- The benchmark is created. -/
  | created {s : Host} {engine entry : Handle} {e : Engine} {w : World} (hs : s.Reachable)
    (permits : s.Permits (.method engine (.create entry params))) (has : s.Has engine e)
    (own : e.session = id) (finds : e.find entry = .ok d)
    (makes : e.create entry params s.world = (.ok b, w)) :
    Created b d params id (s.after (.method engine (.create entry params)))
  /-- The host makes a move. -/
  | moved {s : Host} {m : Move} (hs : Created b d params id s) (permits : s.Permits m) :
    Created b d params id (s.after m)

theorem Created.reachable (hc : Created b d params id s) : s.Reachable := by
  induction hc with
  | created hs permits => exact hs.after permits
  | moved _ permits ih => exact ih.after permits

/-- **An instance stays what it was created as.** Whatever is at its address at any time is the same
instance, but for a concrete descriptor. -/
theorem Created.remains (hc : Created b d params id s) :
    ∃ a inst, b.pointer = .cell a ∧ Benchmark.instantiate d params = .ok inst ∧
      a < s.world.cells.size ∧
        ∀ c, s.world.benchmarkAt (.cell a) = some c → c.bare = Benchmark.bare ⟨id, inst⟩ := by
  induction hc with
  | @created s engine entry e w hs permits has own finds makes =>
    have hafter : (s.after (.method engine (.create entry params))).world = w := by
      rw [after_of_ok ((hs.perform_method has _).trans (Act.bind_of_ok makes))]
    obtain ⟨d', inst, finds', hi, -, rfl, rfl⟩ := Engine.create_makes makes
    obtain rfl := Except.ok.inj (finds.symm.trans finds')
    subst own
    refine ⟨s.world.cells.size, inst, rfl, hi, ?_⟩
    rw [hafter]
    refine ⟨by simp, fun c hc => ?_⟩
    -- what is at the new address was put there just now
    obtain ⟨_, hp, hcell⟩ := World.cell_of_benchmarkAt hc
    obtain rfl := Pointer.cell.inj hp
    rw [Array.getElem?_push_size] at hcell
    cases hcell
    rfl
  | @moved s m hc permits ih =>
    obtain ⟨a, inst, hb, hi, ha, hsame⟩ := ih
    refine ⟨a, inst, hb, hi, ?_⟩
    rcases hc.reachable.deed permits with hw | ⟨id', -, hd⟩
    · rw [hw]
      exact ⟨ha, hsame⟩
    · refine ⟨Nat.lt_of_lt_of_le ha hd.size_cells, fun c hcell => ?_⟩
      obtain ⟨c', hcell', hbare⟩ := hd.benchmark_kept ha hcell
      exact hbare.trans (hsame c' hcell')

/-- As long as the host holds the benchmark, a job is done as by the instance that was created. -/
theorem Created.perform (hc : Created b d params id s) (hb : (b, .benchmark id) ∈ s.ledger.held)
    {engine : Handle} {e : Engine} (he : s.Has engine e) (own : e.session = id) (job : Job) :
    ∃ a inst, Benchmark.instantiate d params = .ok inst ∧
      EngineCall.perform ⟨engine, .give b job⟩ s.world =
        Benchmark.fulfil a ⟨id, inst⟩ job s.world := by
  obtain ⟨a, inst, hp, hi, -, hsame⟩ := hc.remains
  obtain ⟨⟨a', c⟩, hf, hsession⟩ := hc.reachable.agrees.backed.benchmark_found hb
  obtain rfl := Pointer.cell.inj (hp.symm.trans hf.pointer)
  obtain ⟨_, hengine⟩ := hc.reachable.found he
  refine ⟨a, inst, hi, ?_⟩
  have hbare := hsame c (World.benchmarkAt_of_cell hf.cell)
  rw [← Benchmark.fulfil_congr a hbare, EngineCall.perform,
    Act.bind_of_ok (Engine.resolve_eq_ok hengine), Engine.answer, Engine.fulfil_eq,
    Act.bind_of_ok (Engine.own_eq hf (hsession.trans own.symm))]

theorem Created.afterAll {ms : List Move} (hc : Created b d params id s) (hp : s.PermitsAll ms) :
    Created b d params id (s.afterAll ms) := by
  induction ms generalizing s with
  | nil => exact hc
  | cons m ms ih => exact ih (hc.moved hp.1) hp.2

/-- What holds of the instances of one host, and of those of two. -/
structure InstanceLaw (s t : Host) : Prop where
  /-- Concrete descriptors that are put into a script anywhere, accepted or not, change no reply to
  the rest of it, and no payload, no handle and no session that it leads to. -/
  transparent : ∀ lines : List Line,
    s.world.repliesTo lines = s.world.replies (lines.filterMap Line.call?) ∧
      (s.world.afterCalls (lines.filterMap Line.call?)).Alike (s.world.afterLines lines)
  /-- Instances of matrix products that were created with the same parameters for the same category
  fail in a job for the same reason or give the host the same, if they are given twins, whatever the
  two hosts have done since. -/
  independent : ∀ {b c : Handle} {d d' : Description} {params : Option (List Param)}
    {id id' : SessionId} {engine engine' : Handle} {e e' : Engine} {job job' : Job},
    Created b d params id s → Created c d' params id' t →
    d.backend = .matrixProduct → d'.backend = .matrixProduct →
    d.descriptor.category = d'.descriptor.category →
    (b, .benchmark id) ∈ s.ledger.held → (c, .benchmark id') ∈ t.ledger.held →
    s.Has engine e → e.session = id → t.Has engine' e' → e'.session = id' →
    job.Twins (Twins s.world id t.world id') job' →
    Act.Agree (EngineCall.perform ⟨engine, .give b job⟩) s.world
      (EngineCall.perform ⟨engine', .give c job'⟩) t.world
        fun w w' => Gift.Twins (Twins w id w' id')

/-- **Giving concrete descriptors is transparent, and instances are independent.** -/
theorem instanceLaw (s t : Host) : InstanceLaw s t := by
  constructor
  case transparent =>
    intro lines
    exact (World.Alike.refl s.world).repliesTo lines
  case independent =>
    intro b c d d' params id id' engine engine' e e' job job' hb hc hd hd' hcategory hheld hheld'
      he own he' own' hjob
    obtain ⟨a, i, hi, hperform⟩ := hb.perform hheld he own job
    obtain ⟨a', j, hj, hperform'⟩ := hc.perform hheld' he' own' job'
    obtain ⟨p, q, rfl, rfl, hpq⟩ := Benchmark.akin_of_instantiate hd hd' hi hj hcategory
    rw [Act.Agree, hperform, hperform']
    exact Product.fulfil_agrees hpq hjob a a'

theorem created_multiplier : Created multiplierBenchmark Description.offlineProduct
    (some (ProductShape.mk 1 1 1).toParams) multiplierEngine.session multiplier :=
  .created ((Reachable.initial.after (by decide)).after (by decide)) (by decide)
    ⟨by decide, rfl⟩ rfl rfl rfl

/-- A concrete descriptor for the workload and the category of the benchmark. -/
def matching : Line := .aside sampleEngine multiplierBenchmark
  { Description.offlineProduct.descriptor with categoryParams := .offline [7, 7] }

/-- One for another category. -/
def mismatching : Line :=
  .aside sampleEngine multiplierBenchmark Description.latencyProduct.descriptor

/-- Encoding and encrypting numbers, with both concrete descriptors in between. -/
def interrupted : List Line :=
  let give job := Line.call ⟨sampleEngine, .give multiplierBenchmark job⟩
  [matching, give (.encode multiplierPacks), mismatching, matching,
    give (.encrypt (dataHandle 2 (Product.encodedBit ||| Product.plainBit)))]

/-- One concrete descriptor is accepted, the other one is not, and the replies are those to a host
that gives none. Numbers are multiplied to the same, whether another benchmark was created before
they were loaded or not. -/
theorem instanceLaw_multiplier :
    (matching.perform multiplier.world).1 = .ok .nothing ∧
    (mismatching.perform multiplier.world).1 = .error (.refused .descriptorMismatch) ∧
    (multiplier.world.repliesTo interrupted =
      multiplier.world.replies (interrupted.filterMap Line.call?)) ∧
    Act.Agree
      (EngineCall.perform ⟨sampleEngine, .give multiplierBenchmark
        (.operate (dataHandle 4 Product.loadedBit) [⟨0, 1⟩, ⟨1, 1⟩])⟩)
      (multiplier.afterAll (reloading.take 3)).world
      (EngineCall.perform ⟨sampleEngine, .give multiplierBenchmark
        (.operate loadedNumbers [⟨0, 1⟩, ⟨1, 1⟩])⟩)
      (multiplier.afterAll loadingNumbers).world
        fun w w' => Gift.Twins (Twins w multiplierEngine.session w' multiplierEngine.session) := by
  have law := instanceLaw (multiplier.afterAll (reloading.take 3))
    (multiplier.afterAll loadingNumbers)
  refine ⟨rfl, rfl, ((instanceLaw multiplier multiplier).transparent interrupted).1, ?_⟩
  exact law.independent (created_multiplier.afterAll (by decide))
    (created_multiplier.afterAll (by decide)) rfl rfl rfl (by decide) (by decide)
    ⟨by decide, rfl⟩ rfl ⟨by decide, rfl⟩ rfl (.operate ⟨rfl, rfl, rfl⟩ _)

end Host

end HandleBench
