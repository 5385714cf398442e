import HandleBench.Proofs.Notes
import HandleBench.Proofs.ProductPipeline

/-!
# The order of the pipeline

Each step of the pipeline of a matrix product asks for one bit in the tag of the handle that it is
given, and two of the bits are put there by more than one step. Still no step can be left out and
none can be taken twice: which steps accept a handle is settled by the step that has returned it,
`Origin.Governs`. Results that were stored can be loaded like encrypted samples, but they are one
component where operating looks for two.
-/

namespace HandleBench

/-! ### What a step accepts -/

/-- The act succeeds exactly if the condition holds. Otherwise it is refused as critical, and the
world is as it was. -/
structure Act.Gated {α : Type} (act : Act World α) (w : World) (condition : Prop) : Prop where
  /-- When it succeeds. -/
  succeeds : (∃ a w', act w = (.ok a, w')) ↔ condition
  /-- What it does otherwise. -/
  refused : ¬ condition → ∃ failure, act w = (.error (.refused failure), w) ∧
    failure.code = .critical

namespace Origin

/-- Operating accepts it: encoded samples were encrypted and loaded, the first two selections are
within their counts, and a latency benchmark works on the first samples. -/
def Operable (p : Product) (selections : List Selection) : Origin → Prop
  | loaded (encrypted (encoded q packs)) => ∃ left right more,
    selections = left :: right :: more ∧ left.Within (q.lefts packs).length ∧
      right.Within (q.rights packs).length ∧
        (p.isLatency = true → left = ⟨0, 1⟩ ∧ right = ⟨0, 1⟩)
  | _ => False

/-- What a benchmark does with a handle is settled by the origin of the handle. -/
structure Governs (o : Origin) (w : World) (e : Engine) (b : Handle) (p : Product) (h : Handle) :
    Prop where
  /-- Only what encode has returned can be encrypted. -/
  encrypt : (e.encrypt b h).Gated w (o.isEncoded = true)
  /-- Only what encrypt or store has returned can be decrypted. -/
  decrypt : (e.decrypt b h).Gated w (o.isCipher = true)
  /-- Only what encrypt or store has returned can be loaded. -/
  load : (e.load b [h]).Gated w (o.isCipher = true)
  /-- Only what operate has returned can be stored into slots. -/
  store : ∀ slot slots, (e.store b h (slot :: slots)).Gated w (o.isOperated = true)
  /-- Only what encode or decrypt has returned can be decoded. -/
  decode : ∀ dest, (e.decode b h dest).Gated w (o.isPlain = true)
  /-- The samples that were uploaded can be operated on, as far as they go. -/
  operate : ∀ selections, (∃ made w', e.operate b h selections w = (.ok made, w')) ↔
    o.Operable p selections
  /-- The selections are looked at first. -/
  unselected : ∀ selections failure, p.selections selections = .error failure →
    e.operate b h selections w = (.error (.refused failure), w) ∧ failure.code = .invalidArgs
  /-- Then a handle that was not loaded is refused as critical, and so is one of stored results. -/
  misplaced : ∀ selections chosen, p.selections selections = .ok chosen → o.isUploaded = false →
    ∃ failure, e.operate b h selections w = (.error (.refused failure), w) ∧
      failure.code = .critical ∧
      failure = if o.isLoaded then .componentCount 1 2 else .missingBits h.tag Product.loadedBit
  /-- Of samples that were uploaded there may be too few. -/
  outside : ∀ selections, o.isUploaded = true → ¬ o.Operable p selections →
    ∃ failure, e.operate b h selections w = (.error (.refused failure), w) ∧
      failure.code = .invalidArgs

end Origin

namespace Host

variable {s : Host} {ms : List Move} {h b : Handle} {e : Engine} {notes : Notes}
  {id : SessionId} {root : Nat} {o : Origin} {value : Payload}

/-- An object carries the data of its origin. -/
theorem Reachable.carries (hs : s.Reachable) (hm : (h, .object id root) ∈ s.ledger.held)
    (hv : s.world.value? h = some value) (hst : o.Stands h value) :
    Object.Carries s.world id h o.bits value := by
  obtain ⟨found, value', hf, hv', hp⟩ := payload_of_held hs.agrees hm
  rw [hs.value?_eq hm, hv'] at hv
  obtain rfl := Option.some.inj hv
  exact ⟨hst.tag, found, _, hf, hp, rfl⟩

end Host

/-- A handle that fails the check is refused before anything else. -/
theorem Object.resolve_refused {id : SessionId} {h : Handle} {required : Tag} {failure : Failure}
    (hc : h.checkObject required = .error failure) (w : World) :
    resolve id h required w = (.error (.refused failure), w) := by
  rw [resolve, hc]
  rfl

namespace Act

variable {α β : Type} {act act' : Act World α} {w : World} {condition : Prop}

theorem Gated.congr (h : act.Gated w condition) (he : act' w = act w) :
    act'.Gated w condition :=
  ⟨by rw [he]; exact h.succeeds, by rw [he]; exact h.refused⟩

theorem Gated.of_iff {condition' : Prop} (h : act.Gated w condition)
    (hi : condition ↔ condition') : act.Gated w condition' :=
  ⟨h.succeeds.trans hi, fun hn => h.refused fun hc => hn (hi.1 hc)⟩

/-- An act that succeeds if a computation does, and is refused if that is, depends on it. -/
theorem gated_of_except {e : Except Failure β} (hok : ∀ b, e = .ok b → ∃ a w', act w = (.ok a, w'))
    (herror : ∀ failure, e = .error failure → act w = (.error (.refused failure), w))
    (hcritical : FailsCritically e) : act.Gated w (∃ b, e = .ok b) := by
  cases e with
  | ok b =>
    have hyes : ∃ b', (.ok b : Except Failure β) = .ok b' := ⟨b, rfl⟩
    exact ⟨⟨fun _ => hyes, fun _ => hok b rfl⟩, fun hn => absurd hyes hn⟩
  | error failure =>
    have hact := herror failure rfl
    refine ⟨⟨fun ⟨a, w', ha⟩ => ?_, fun ⟨b, hb⟩ => (by cases hb)⟩,
      fun _ => ⟨failure, hact, congrArg FailureKind.code (hcritical failure rfl)⟩⟩
    rw [hact] at ha
    cases ha

/-- What is computed from the value of an act is there when the value is. -/
theorem Gated.map (h : act.Gated w condition) (f : α → β) :
    (do return f (← act) : Act World β).Gated w condition := by
  by_cases hc : condition
  · obtain ⟨a, w', ha⟩ := h.succeeds.2 hc
    exact ⟨⟨fun _ => hc, fun _ => ⟨f a, w', bind_of_ok ha⟩⟩, fun hn => absurd hc hn⟩
  · obtain ⟨failure, ha, hcode⟩ := h.refused hc
    have hstop : (do return f (← act) : Act World β) w = (.error (.refused failure), w) :=
      bind_of_stop ha
    refine ⟨⟨fun ⟨b, w', hb⟩ => ?_, fun hyes => absurd hyes hc⟩, fun _ => ⟨failure, hstop, hcode⟩⟩
    rw [hstop] at hb
    cases hb

end Act

namespace Product

variable {w : World} {session : SessionId} {h : Handle} {p : Product}
  {selections : List Selection} {left right : Selection}

/-- Operating looks at the selections before it looks at anything else. -/
theorem operate_unselected {failure : Failure} (hs : p.selections selections = .error failure) :
    p.operate session h selections w = (.error (.refused failure), w) := by
  rw [operate, hs]
  rfl

theorem operate_unloaded {failure : Failure} (hs : p.selections selections = .ok (left, right))
    (hc : h.checkObject loadedBit = .error failure) :
    p.operate session h selections w = (.error (.refused failure), w) := by
  have hretrieve : Object.retrieve session h loadedBit .matrices w =
      (.error (.refused failure), w) := Act.bind_of_stop (Object.resolve_refused hc w)
  rw [operate, hs]
  exact (Act.bind_of_stop hretrieve).trans rfl

end Product

namespace Origin

variable {w : World} {e : Engine} {id : SessionId} {b h : Handle} {a : Nat} {p : Product}
  {o : Origin} {value : Payload} {selections : List Selection}

/-- A step that checks its handle first accepts what has the bits it asks for. -/
theorem Stands.gated {α : Type} {act : Act World α} {required : Tag} {kind : Bool}
    (hst : o.Stands h value) (hr : required.touchesReserved = false)
    (hb : (Tag.object ||| o.bits).hasClass required = kind)
    (accepts : (Tag.object ||| o.bits).hasClass required = true → ∃ a w', act w = (.ok a, w'))
    (refuses : ∀ failure, h.checkObject required = .error failure →
      act w = (.error (.refused failure), w)) : act.Gated w (kind = true) := by
  have hc := hst.check hr hb
  cases kind with
  | true => exact ⟨⟨fun _ => rfl, fun _ => accepts hb⟩, fun hn => absurd rfl hn⟩
  | false =>
    have hact := refuses _ hc
    refine ⟨⟨fun ⟨a, w', ha⟩ => ?_, fun hyes => (by cases hyes)⟩, fun _ => ⟨_, hact, rfl⟩⟩
    rw [hact] at ha
    cases ha

/-- So do the steps that share a payload. -/
theorem Stands.gated_duplicate {new required : Tag} {kind : Bool} (hst : o.Stands h value)
    (hcarries : Object.Carries w id h o.bits value) (hn : new.touchesReserved = false)
    (hr : required.touchesReserved = false)
    (hb : (Tag.object ||| o.bits).hasClass required = kind) :
    (Object.duplicate id h (some new) required).Gated w (kind = true) := by
  refine hst.gated hr hb (fun hbits => ?_) fun failure hc => ?_
  · obtain ⟨made, w', hmade, -⟩ := hcarries.duplicate hr hbits hn
    exact ⟨made, w', hmade⟩
  · exact Act.bind_of_stop (Object.resolve_refused hc w)

/-- And the step that reads one. -/
theorem Stands.gated_retrieve {required : Tag} {kind : Bool} (hst : o.Stands h value)
    (hcarries : Object.Carries w id h o.bits value) (hr : required.touchesReserved = false)
    (hb : (Tag.object ||| o.bits).hasClass required = kind) :
    (Object.retrieve id h required .matrices).Gated w (kind = true) := by
  refine hst.gated hr hb (fun hbits => ?_) fun failure hc => ?_
  · obtain ⟨components, -, rfl⟩ := hst.value
    exact ⟨components, w, hcarries.retrieve hr hbits⟩
  · exact Act.bind_of_stop (Object.resolve_refused hc w)

theorem isUploaded_of_operable (ho : o.Operable p selections) : o.isUploaded = true := by
  cases o with
  | loaded source =>
    cases source with
    | encrypted source => rfl
    | _ => cases ho
  | _ => cases ho

/-- What was not loaded, or was stored before, is none of the samples to work on. -/
theorem Stands.operate_misplaced {chosen : Selection × Selection} (hst : o.Stands h value)
    (hcarries : Object.Carries w id h o.bits value) (hs : p.selections selections = .ok chosen)
    (hu : o.isUploaded = false) :
    p.operate id h selections w = (.error (.refused
      (if o.isLoaded then .componentCount 1 2 else .missingBits h.tag Product.loadedBit)), w) := by
  obtain ⟨left, right⟩ := chosen
  have hbit := o.told.loaded
  cases hl : o.isLoaded with
  | false =>
    rw [hl] at hbit
    exact Product.operate_unloaded hs (hst.check (by decide) hbit)
  | true =>
    rw [hl] at hbit
    rcases hst.ordered.of_loaded hl with hup | ⟨source, -, hone⟩
    · rw [hu] at hup
      cases hup
    · obtain ⟨components, hc, rfl⟩ := hst.value
      obtain ⟨results, rfl⟩ := hone components hc
      exact Product.operate_of_carries hs hbit hcarries

/-- Samples that were uploaded can be too few. -/
theorem Stands.operate_outside (hst : o.Stands h value)
    (hcarries : Object.Carries w id h o.bits value) (hu : o.isUploaded = true)
    (hn : ¬ o.Operable p selections) :
    ∃ failure, p.operate id h selections w = (.error (.refused failure), w) ∧
      failure.code = .invalidArgs := by
  cases hs : p.selections selections with
  | error failure => exact ⟨failure, Product.operate_unselected hs, Product.code_of_selections hs⟩
  | ok chosen =>
    obtain ⟨left, right⟩ := chosen
    obtain ⟨more, rfl, hlatency⟩ := Product.selections_eq_ok.1 hs
    obtain ⟨q, packs, rfl⟩ := hst.ordered.of_uploaded hu
    have hbit := (loaded (encrypted (encoded q packs))).told.loaded
    obtain ⟨components, hc, rfl⟩ := hst.value
    obtain rfl := components_encoded hc
    have hout : ¬ (left.Within (q.lefts packs).length ∧ right.Within (q.rights packs).length) :=
      fun ⟨hleft, hright⟩ => hn ⟨left, right, more, rfl, hleft, hright, hlatency⟩
    obtain ⟨failure, hr, hcode⟩ := Product.results_outside hout
    refine ⟨failure, ?_, hcode⟩
    rw [Product.operate_of_carries hs hbit hcarries, hr]
    rfl

/-- Without enough samples to work on nothing is done. -/
theorem Stands.operate_refused (hst : o.Stands h value)
    (hcarries : Object.Carries w id h o.bits value) (hn : ¬ o.Operable p selections) :
    ∃ failure, p.operate id h selections w = (.error (.refused failure), w) := by
  cases hu : o.isUploaded with
  | true =>
    obtain ⟨failure, hr, -⟩ := hst.operate_outside hcarries hu hn
    exact ⟨failure, hr⟩
  | false =>
    cases hs : p.selections selections with
    | error failure => exact ⟨failure, Product.operate_unselected hs⟩
    | ok chosen => exact ⟨_, hst.operate_misplaced hcarries hs hu⟩

/-- Whatever is selected within them is worked on. -/
theorem Stands.operate_operable (hst : o.Stands h value)
    (hcarries : Object.Carries w id h o.bits value) (ho : o.Operable p selections) :
    ∃ made w', p.operate id h selections w = (.ok made, w') := by
  obtain ⟨q, packs, rfl⟩ := hst.ordered.of_uploaded (isUploaded_of_operable ho)
  obtain ⟨left, right, more, rfl, hleft, hright, hlatency⟩ := ho
  obtain ⟨components, hc, rfl⟩ := hst.value
  obtain rfl := components_encoded hc
  have hbit := (loaded (encrypted (encoded q packs))).told.loaded
  obtain ⟨ms, hms, -⟩ := Product.results_eq hleft hright
  obtain ⟨made, w', hmade, -⟩ := Object.create_carries _ _ Product.dataSize
    (show Product.operatedBit.touchesReserved = false by decide) ⟨.matrices, [ms]⟩
  refine ⟨made, w', ?_⟩
  have hs := Product.selections_eq_ok.2 ⟨more, rfl, hlatency⟩
  rw [Product.operate_of_carries hs hbit hcarries, hms]
  exact hmade

theorem Stands.governs (hst : o.Stands h value)
    (hcarries : Object.Carries w e.session h o.bits value)
    (hf : Benchmark.Found w b (a, ⟨e.session, .product p⟩)) : o.Governs w e b p h := by
  constructor
  case encrypt =>
    exact (hst.gated_duplicate hcarries (by decide) (by decide) o.told.encoded).congr
      (Engine.encrypt_eq hf h)
  case decrypt =>
    exact (hst.gated_duplicate hcarries (by decide) (by decide) o.told.cipher).congr
      (Engine.decrypt_eq hf h)
  case load =>
    exact (hst.gated_duplicate hcarries (by decide) (by decide) o.told.cipher).congr
      (Engine.load_eq hf [h])
  case store =>
    intro slot slots
    have hn : Tag.touchesReserved (Product.storedBit ||| Product.encryptedBit) = false := by decide
    have shares := hst.gated_duplicate hcarries hn (by decide) o.told.operated
    exact (shares.map fun stored => stored :: slots.map fun _ => .null).congr
      (Engine.store_eq hf h (slot :: slots))
  case decode =>
    intro dest
    have reads := hst.gated_retrieve hcarries (by decide) o.told.plain
    exact (reads.map fun components => Product.writeFrom 0 components dest).congr
      (Engine.decode_eq hf h dest)
  case operate =>
    intro selections
    refine ⟨fun ⟨made, w', hmade⟩ => ?_, fun ho => ?_⟩
    · by_contra hn
      obtain ⟨failure, hr⟩ := hst.operate_refused hcarries hn
      rw [Engine.operate_eq hf, hr] at hmade
      cases hmade
    · obtain ⟨made, w', hmade⟩ := hst.operate_operable hcarries ho
      exact ⟨made, w', (Engine.operate_eq hf h _).trans hmade⟩
  case unselected =>
    intro selections failure hs
    exact ⟨(Engine.operate_eq hf h _).trans (Product.operate_unselected hs),
      Product.code_of_selections hs⟩
  case misplaced =>
    intro selections chosen hs hu
    refine ⟨_, (Engine.operate_eq hf h _).trans (hst.operate_misplaced hcarries hs hu), ?_, rfl⟩
    cases o.isLoaded <;> rfl
  case outside =>
    intro selections hu hn
    obtain ⟨failure, hr, hcode⟩ := hst.operate_outside hcarries hu hn
    exact ⟨failure, (Engine.operate_eq hf h _).trans hr, hcode⟩

end Origin

namespace Host

variable {s : Host} {ms : List Move} {h : Handle} {e : Engine}

/-- How the order of the pipeline is enforced in the session of an engine. -/
structure PipelineLaw (s : Host) (e : Engine) (notes : Notes) : Prop where
  /-- All benchmarks of the session are matrix products. -/
  products : ∀ b a inst, Benchmark.Found s.world b (a, ⟨e.session, inst⟩) → ∃ p, inst = .product p
  /-- Whatever the host holds of the session has come through the pipeline in order, and which steps
  accept it, with whichever benchmark of the session, is settled by the step that has returned
  it. -/
  governed : ∀ h root, (h, .object e.session root) ∈ s.ledger.held →
    ∃ o, notes h = some o ∧ o.Ordered ∧ ∀ b a p,
      Benchmark.Found s.world b (a, ⟨e.session, .product p⟩) → o.Governs s.world e b p h

/-- **The pipeline is gone through in order.** A host that has an engine of matrix products and no
object of its session makes moves, any at all but those that only a backend makes. Whatever object
of the session it then holds is accepted by exactly the steps that may follow the one that has
returned it. -/
theorem Reachable.pipelineLaw (hs : s.Reachable) (he : s.Has h e)
    (hproducts : ∀ d ∈ e.catalog, d.backend = .matrixProduct)
    (hnone : ∀ x root, (x, .object e.session root) ∉ s.ledger.held) (hp : s.PermitsAll ms)
    (hpiped : ∀ m ∈ ms, Piped e.session m) :
    (s.afterAll ms).PipelineLaw e (s.notedAll (fun _ => none) ms) := by
  have hend := hs.afterAll hp
  have hbegin : s.Traced e.session fun _ => none := fun x root hx => absurd hx (hnone x root)
  obtain ⟨hw, ht⟩ := hs.traced_afterAll hp hpiped (hs.productsOnly he hproducts) hbegin
  constructor
  case products =>
    intro b a inst hf
    obtain ⟨p, hb⟩ := hw.instance_eq (World.benchmarkAt_of_cell hf.cell) rfl
    cases hb
    exact ⟨p, rfl⟩
  case governed =>
    intro x root hx
    obtain ⟨o, value, ho, hv, hst⟩ := ht x root hx
    exact ⟨o, ho, hst.ordered, fun b a p hf => hst.governs (hend.carries hx hv hst) hf⟩

/-- The handles of a product's data. -/
def dataHandle (address : Nat) (bits : Tag) : Handle :=
  ⟨.cell address, Product.dataSize, .object ||| bits⟩

/-- Multiplying, storing the results and loading them again. -/
def reloading : List Move :=
  let give job := Move.method sampleEngine (.give multiplierBenchmark job)
  [give (.encode multiplierPacks),
    give (.encrypt (dataHandle 2 (Product.encodedBit ||| Product.plainBit))),
    give (.load [dataHandle 3 Product.encryptedBit]),
    give (.operate (dataHandle 4 Product.loadedBit) [⟨0, 1⟩, ⟨1, 1⟩]),
    give (.store (dataHandle 5 Product.operatedBit) [.null]),
    give (.load [dataHandle 6 (Product.storedBit ||| Product.encryptedBit)])]

/-- The results that were loaded. -/
def reloaded : Handle := dataHandle 7 Product.loadedBit

theorem reachable_multiplier : multiplier.Reachable :=
  ((Reachable.initial.after (by decide)).after (by decide)).after (by decide)

theorem held_multiplier : multiplier.ledger.held =
    [(multiplierBenchmark, .benchmark 0), (sampleEngine, .engine 0)] := rfl

theorem noted_reloaded : ∃ source,
    multiplier.notedAll (fun _ => none) reloading reloaded = some (.loaded (.stored source)) :=
  ⟨_, rfl⟩

/-- The engine does not multiply results. -/
theorem pipelineLaw_reloading : multiplier.Has sampleEngine multiplierEngine ∧
    multiplier.PermitsAll reloading ∧
      (multiplierEngine.operate multiplierBenchmark reloaded [⟨0, 1⟩, ⟨0, 1⟩]
        (multiplier.afterAll reloading).world).1 =
          .error (.refused (.componentCount 1 2)) := by
  have he : multiplier.Has sampleEngine multiplierEngine :=
    ⟨List.mem_cons_of_mem _ List.mem_cons_self, rfl⟩
  have hp : multiplier.PermitsAll reloading := by decide
  have hnone : ∀ x root, (x, .object multiplierEngine.session root) ∉ multiplier.ledger.held := by
    simp [held_multiplier]
  have law := reachable_multiplier.pipelineLaw he (by decide) hnone hp (by decide)
  refine ⟨he, hp, ?_⟩
  obtain ⟨o, ho, -, governs⟩ := law.governed reloaded 1 (by decide)
  obtain ⟨source, hsource⟩ := noted_reloaded
  obtain rfl := Option.some.inj (hsource.symm.trans ho)
  have hf : Benchmark.Found (multiplier.afterAll reloading).world multiplierBenchmark
      (1, ⟨multiplierEngine.session, .product multiplierProduct⟩) := ⟨rfl, rfl, by decide⟩
  have hs : multiplierProduct.selections [⟨0, 1⟩, ⟨0, 1⟩] = .ok (⟨0, 1⟩, ⟨0, 1⟩) := rfl
  obtain ⟨failure, hr, -, rfl⟩ := (governs _ 1 _ hf).misplaced _ _ hs rfl
  exact congrArg Prod.fst hr

/-- Without selections the same results are not refused as critical. -/
theorem reloading_unselected : multiplier.Reachable ∧
    multiplier.Has sampleEngine multiplierEngine ∧
    (∀ d ∈ multiplierEngine.catalog, d.backend = .matrixProduct) ∧
    multiplier.PermitsAll reloading ∧ (∀ m ∈ reloading, Piped multiplierEngine.session m) ∧
    (reloaded, .object multiplierEngine.session 1) ∈ (multiplier.afterAll reloading).ledger.held ∧
    (∃ source, multiplier.notedAll (fun _ => none) reloading reloaded =
      some (.loaded (.stored source))) ∧
    ¬ ∃ failure, (multiplierEngine.operate multiplierBenchmark reloaded []
      (multiplier.afterAll reloading).world).1 = .error (.refused failure) ∧
        failure.code = .critical := by
  refine ⟨reachable_multiplier, ⟨List.mem_cons_of_mem _ List.mem_cons_self, rfl⟩, by decide,
    by decide, by decide, by decide, noted_reloaded, ?_⟩
  rintro ⟨failure, hr, hcode⟩
  have hf : Benchmark.Found (multiplier.afterAll reloading).world multiplierBenchmark
      (1, ⟨multiplierEngine.session, .product multiplierProduct⟩) := ⟨rfl, rfl, by decide⟩
  have hs : multiplierProduct.selections [] = .error (.selectionCount 2 0) := rfl
  rw [Engine.operate_eq hf, Product.operate_unselected hs] at hr
  cases hr
  cases hcode

end Host

end HandleBench
