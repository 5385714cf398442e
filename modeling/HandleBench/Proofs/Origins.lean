import HandleBench.Proofs.Jobs
import HandleBench.Proofs.Samples

/-!
# Where handles come from

Beside its books a host can note of every object which step of the pipeline has returned it and
what that step was given: its `Origin`. In the pipeline of a matrix product an origin *stands* for a
handle if the steps came in the order encode, encrypt, load, operate, store, decrypt, if the bits of
the handle are those that its step gives, and if the payload behind it holds the data that the steps
make. Every step yields a handle that its origin stands for, provided that those it was given have
such origins: `Product.carryOut_yields`.
-/

namespace HandleBench

/-! ### Origins -/

/-- Which call has returned the handle of an object, and what the object was made of. -/
inductive Origin where
  /-- Samples were encoded. -/
  | encoded (p : Product) (packs : List Pack)
  /-- Something was encrypted. -/
  | encrypted (source : Origin)
  /-- Something was decrypted. -/
  | decrypted (source : Origin)
  /-- Something was loaded. -/
  | loaded (source : Origin)
  /-- Something was stored. -/
  | stored (source : Origin)
  /-- The selected samples of something were worked on. -/
  | operated (source : Origin) (left right : Selection)

namespace Origin

open Product (encodedBit plainBit encryptedBit decryptedBit loadedBit storedBit operatedBit)

/-- The backend bits of what was returned. -/
def bits : Origin → Tag
  | encoded .. => encodedBit ||| plainBit
  | encrypted _ => encryptedBit
  | decrypted _ => decryptedBit ||| plainBit
  | loaded _ => loadedBit
  | stored _ => storedBit ||| encryptedBit
  | operated .. => operatedBit

/-- The data in the payload. Everything but operating shares the data that it was given. -/
def components : Origin → Except Failure (List (List (Matrix Binary64)))
  | encoded p packs => p.operands packs
  | encrypted source | decrypted source | loaded source | stored source => source.components
  | operated source left right => do
    return [← Product.results (← source.components) left right]

/-- It was returned by encode. -/
def isEncoded : Origin → Bool
  | encoded .. => true
  | _ => false

/-- It was returned by encrypt or store. -/
def isCipher : Origin → Bool
  | encrypted _ | stored _ => true
  | _ => false

/-- It was returned by load. -/
def isLoaded : Origin → Bool
  | loaded _ => true
  | _ => false

/-- It was returned by load, which was given what encrypt had returned. -/
def isUploaded : Origin → Bool
  | loaded (encrypted _) => true
  | _ => false

/-- It was returned by operate. -/
def isOperated : Origin → Bool
  | operated .. => true
  | _ => false

/-- It was returned by encode or decrypt. -/
def isPlain : Origin → Bool
  | encoded .. | decrypted _ => true
  | _ => false

/-- Each step was given what the step before it has returned. -/
def Ordered : Origin → Prop
  | encoded .. => True
  | encrypted source => source.isEncoded = true ∧ source.Ordered
  | decrypted source | loaded source => source.isCipher = true ∧ source.Ordered
  | stored source => source.isOperated = true ∧ source.Ordered
  | operated source .. => source.isUploaded = true ∧ source.Ordered

/-! ### Bits -/

/-- The bits that the steps ask for tell the origins apart. -/
structure Told (o : Origin) : Prop where
  /-- Encrypting asks for what encode has returned. -/
  encoded : (Tag.object ||| o.bits).hasClass encodedBit = o.isEncoded
  /-- Decrypting and loading ask for what encrypt or store has returned. -/
  cipher : (Tag.object ||| o.bits).hasClass encryptedBit = o.isCipher
  /-- Operating asks for what load has returned. -/
  loaded : (Tag.object ||| o.bits).hasClass loadedBit = o.isLoaded
  /-- Storing asks for what operate has returned. -/
  operated : (Tag.object ||| o.bits).hasClass operatedBit = o.isOperated
  /-- Decoding asks for what encode or decrypt has returned. -/
  plain : (Tag.object ||| o.bits).hasClass plainBit = o.isPlain

theorem told (o : Origin) : o.Told := by
  constructor <;> cases o <;>
    simp only [bits, isEncoded, isCipher, isLoaded, isOperated, isPlain] <;> decide

theorem hasClass_object (o : Origin) : (Tag.object ||| o.bits).hasClass .object = true := by
  cases o <;> simp only [bits] <;> decide

/-! ### Data -/

theorem components_encoded {p : Product} {packs : List Pack}
    {components : List (List (Matrix Binary64))}
    (h : (encoded p packs).components = .ok components) :
    components = [p.lefts packs, p.rights packs] :=
  Product.samples_of_operands h

/-- What was uploaded are the samples of some operands. -/
theorem Ordered.of_uploaded {o : Origin} (ho : o.Ordered) (hu : o.isUploaded = true) :
    ∃ p packs, o = loaded (encrypted (encoded p packs)) := by
  cases o with
  | loaded source =>
    cases source with
    | encrypted source =>
      have he : source.isEncoded = true := ho.2.1
      cases source with
      | encoded p packs => exact ⟨p, packs, rfl⟩
      | _ => cases he
    | _ => cases hu
  | _ => cases hu

/-- Whatever else was loaded is a list of results. -/
theorem Ordered.of_loaded {o : Origin} (ho : o.Ordered) (hl : o.isLoaded = true) :
    o.isUploaded = true ∨ ∃ source, o = loaded (stored source) ∧
      ∀ components, o.components = .ok components → ∃ results, components = [results] := by
  cases o with
  | loaded source =>
    have hc : source.isCipher = true := ho.1
    cases source with
    | encrypted source => exact .inl rfl
    | stored source =>
      refine .inr ⟨source, rfl, fun components h => ?_⟩
      have hs : source.isOperated = true := ho.2.1
      cases source with
      | operated source left right =>
        obtain ⟨loaded, -, h⟩ := Except.bind_eq_ok.1 h
        obtain ⟨results, -, h⟩ := Except.bind_eq_ok.1 h
        cases h
        exact ⟨results, rfl⟩
      | _ => cases hs
    | _ => cases hc
  | _ => cases hl

/-- The handle and the value of the payload behind it are those of the origin. -/
structure Stands (o : Origin) (h : Handle) (value : Payload) : Prop where
  /-- The steps came in order. -/
  ordered : o.Ordered
  /-- The tag has the bits of the origin. -/
  tag : h.tag = .object ||| o.bits
  /-- The value is the data of the origin. -/
  value : ∃ components, o.components = .ok components ∧ value = ⟨.matrices, components⟩

variable {o : Origin} {h : Handle} {value : Payload} {required : Tag}

/-- A step that asks for some bits accepts the handle exactly if its origin has them. -/
theorem Stands.check {accepted : Bool} (hst : o.Stands h value)
    (hr : required.touchesReserved = false)
    (hb : (Tag.object ||| o.bits).hasClass required = accepted) :
    h.checkObject required = if accepted then .ok () else .error (.missingBits h.tag required) := by
  rw [Handle.checkObject, requireUnreserved_eq_ok.2 hr, hst.tag, o.hasClass_object, hb]
  cases accepted <;> rfl

/-- Who is accepted has the bits. -/
theorem Stands.accepted {accepted : Bool} (hst : o.Stands h value)
    (hc : h.checkObject required = .ok ())
    (hb : (Tag.object ||| o.bits).hasClass required = accepted) : accepted = true := by
  rw [← hb, ← hst.tag]
  exact (Handle.checkObject_eq_ok.1 hc).2.2

/-- A step that shares the payload of a handle yields another one for its own origin. -/
theorem Stands.share {made : Handle} {o' : Origin} (hst : o.Stands h value) (ho : o'.Ordered)
    (ht : made.tag = .object ||| o'.bits) (hc : o'.components = o.components) :
    o'.Stands made value := by
  refine ⟨ho, ht, ?_⟩
  rw [hc]
  exact hst.value

end Origin

/-! ### What the steps look at -/

namespace Object

variable {w : World} {session : SessionId} {h : Handle} {bits required : Tag}

theorem resolve_checked (w : World) (session : SessionId) (h : Handle) (required : Tag) :
    (resolve session h required).Ends w (fun _ _ => h.checkObject required = .ok ())
      fun _ _ => True := by
  refine Act.ends_bind.2 (Act.ends_ofExcept (fun _ hc => ?_) fun _ _ => trivial)
  exact Act.ends_of_forall (fun _ _ _ => hc) fun _ _ _ => trivial

/-- The tag of a new object has the bits that were asked for. -/
theorem create_tag (w : World) (session : SessionId) (size : UInt64) (bits : Tag)
    (value : Payload) :
    (create session size bits value).Ends w (fun made _ => made.tag = .object ||| bits)
      fun _ _ => True :=
  Act.ends_bind.2 (Act.ends_ofExcept (fun _ _ => rfl) fun _ _ => trivial)

/-- So does that of an object that shares the payload of another, which has passed the check. -/
theorem duplicate_tag (w : World) (session : SessionId) (h : Handle) (bits required : Tag) :
    (duplicate session h (some bits) required).Ends w
      (fun made _ => h.checkObject required = .ok () ∧ made.tag = .object ||| bits)
      fun _ _ => True := by
  refine Act.ends_bind.2 ((resolve_checked w session h required).mono ?_ fun _ _ _ => trivial)
  intro found w' hc
  exact Act.ends_bind.2 (Act.ends_ofExcept (fun _ _ => ⟨hc, rfl⟩) fun _ _ => trivial)

/-- A payload is retrieved behind a handle that has passed the check. -/
theorem retrieve_checked (w : World) (session : SessionId) (h : Handle) (required : Tag)
    (expected : PayloadKind) :
    (retrieve session h required expected).Ends w
      (fun value _ => h.checkObject required = .ok () ∧
        (w.value? h).bind (·.as? expected) = some value) fun _ _ => True := by
  have checked : (retrieve session h required expected).Ends w
      (fun _ _ => h.checkObject required = .ok ()) fun _ _ => True := by
    refine Act.ends_bind.2 ((resolve_checked w session h required).mono ?_ fun _ _ _ => trivial)
    exact fun _ _ hc => Act.ends_of_forall (fun _ _ _ => hc) fun _ _ _ => trivial
  refine Act.ends_of_forall (fun value w' hr => ⟨checked.of_ok hr, ?_⟩) fun _ _ _ => trivial
  exact ((retrieve_atomic w session h required expected).of_ok hr).2.2

end Object

/-! ### What the steps yield -/

/-- What a host notes of its handles. -/
abbrev Notes : Type := Handle → Option Origin

/-- The handle has an origin, and that stands for it and for the value behind it. -/
def Notes.Cover (notes : Notes) (w : World) (h : Handle) : Prop :=
  ∃ o value, notes h = some o ∧ w.value? h = some value ∧ o.Stands h value

namespace Job

/-- The origin of the handle that a job yields. -/
def origin (inst : Instance) (notes : Notes) : Job → Option Origin
  | .encode packs =>
    match inst with
    | .product p => some (.encoded p packs)
    | .carrier _ => none
  | .encrypt source => (notes source).map .encrypted
  | .decrypt source => (notes source).map .decrypted
  | .load (source :: _) => (notes source).map .loaded
  | .store source _ => (notes source).map .stored
  | .operate source (left :: right :: _) => (notes source).map (.operated · left right)
  | _ => none

/-- The first handle that a job yields, if it yields any, has the origin of the job, which stands
for it and for the value behind it. -/
def Yields (w : World) (b : Benchmark) (notes : Notes) (job : Job) (made : List Handle) : Prop :=
  ∀ h rest, made = h :: rest → ∃ o value, job.origin b.inst notes = some o ∧ o.Stands h value ∧
    (job.event w b made = .created h b.session value ∨
      ∃ source, job.event w b made = .shared h source ∧ w.value? source = some value)

end Job

namespace Product

open Origin

variable {w : World} {p : Product} {session : SessionId} {notes : Notes} {source : Handle}

theorem encode_yields (w : World) (p : Product) (session : SessionId) (notes : Notes)
    (packs : List Pack) :
    (p.encode session packs).Ends w
      (fun made _ => (Job.encode packs).Yields w ⟨session, .product p⟩ notes [made])
      fun _ _ => True := by
  refine Act.ends_bind.2 (Act.ends_ofExcept (fun components hc => ?_) fun _ _ => trivial)
  refine (Object.create_tag w session _ _ _).mono ?_ fun _ _ _ => trivial
  intro made _ ht h rest heq
  cases heq
  refine ⟨_, _, rfl, ⟨trivial, ht, components, hc, rfl⟩, .inl ?_⟩
  rw [Job.event, Instance.encoded, hc]
  rfl

/-- Encrypting, decrypting, loading and storing yield another handle of the payload, provided that
what they accept makes their origin an ordered one. -/
theorem duplicate_yields (step : Origin → Origin) {job : Job} {bits required : Tag}
    {rest : List Handle} (hn : notes.Cover w source)
    (horigin : job.origin (.product p) notes = (notes source).map step)
    (hevent : ∀ made, job.event w ⟨session, .product p⟩ (made :: rest) = .shared made source)
    (hbits : ∀ o, (step o).bits = bits) (hcomponents : ∀ o, (step o).components = o.components)
    (hordered : ∀ o, o.Ordered → (Tag.object ||| o.bits).hasClass required = true →
      (step o).Ordered) :
    (Object.duplicate session source (some bits) required).Ends w
      (fun made _ => job.Yields w ⟨session, .product p⟩ notes (made :: rest))
      fun _ _ => True := by
  obtain ⟨o, value, ho, hv, hst⟩ := hn
  refine (Object.duplicate_tag w session source bits required).mono ?_ fun _ _ _ => trivial
  rintro made _ ⟨hc, ht⟩ h rest' heq
  cases heq
  refine ⟨step o, value, by rw [horigin, ho]; rfl, hst.share ?_ ?_ (hcomponents o),
    .inr ⟨source, hevent made, hv⟩⟩
  · exact hordered o hst.ordered (hst.accepted hc rfl)
  · rw [ht, hbits]

/-- Only what was uploaded holds two components. -/
theorem isUploaded_of_results {o : Origin} (ho : o.Ordered) (hl : o.isLoaded = true)
    {components : List (List (Matrix Binary64))} (hc : o.components = .ok components)
    {left right : Selection} {ms : List (Matrix Binary64)}
    (hms : results components left right = .ok ms) : o.isUploaded = true := by
  rcases ho.of_loaded hl with hu | ⟨source, -, hone⟩
  · exact hu
  · obtain ⟨rs, rfl⟩ := hone components hc
    cases hms

theorem operate_yields (p : Product) (session : SessionId) (hn : notes.Cover w source)
    (selections : List Selection) :
    (p.operate session source selections).Ends w
      (fun made _ => (Job.operate source selections).Yields w ⟨session, .product p⟩ notes [made])
      fun _ _ => True := by
  obtain ⟨o, value, ho, hv, hst⟩ := hn
  refine Act.ends_bind.2 (Act.ends_ofExcept (fun ⟨left, right⟩ hs => ?_) fun _ _ => trivial)
  refine Act.ends_bind.2 ((Object.retrieve_checked w session source loadedBit .matrices).mono ?_
    fun _ _ _ => trivial)
  rintro components _ ⟨hc, hb⟩
  refine Act.ends_bind.2 (Act.ends_ofExcept (fun ms hms => ?_) fun _ _ => trivial)
  refine (Object.create_tag _ session _ _ _).mono ?_ fun _ _ _ => trivial
  intro made _ ht h rest heq
  cases heq
  obtain ⟨more, rfl, -⟩ := selections_eq_ok.1 hs
  have hevent : (Instance.product p).operated (w.value? source) (left :: right :: more) =
      some ⟨.matrices, [ms]⟩ := by
    simp only [Instance.operated, hb, hs, hms, Except.toOption, Option.bind_eq_bind,
      Option.bind_some]
    rfl
  obtain ⟨components', hcs, rfl⟩ := hst.value
  rw [hv] at hb
  obtain rfl : components' = components := Option.some.inj hb
  have hu := isUploaded_of_results hst.ordered (hst.accepted hc o.told.loaded) hcs hms
  refine ⟨.operated o left right, ⟨.matrices, [ms]⟩, ?_, ⟨⟨hu, hst.ordered⟩, ht, [ms], ?_, rfl⟩,
    .inl ?_⟩
  · rw [Job.origin, ho]
    rfl
  · rw [Origin.components, hcs]
    show (do return [← results components' left right]) = _
    rw [hms]
    rfl
  · rw [Job.event, hevent]
    rfl

/-- What comes of a job of a matrix product, if the handles that it works on are covered. -/
theorem carryOut_yields (w : World) (address : Nat) (p : Product) (session : SessionId) (job : Job)
    (hn : ∀ x ∈ job.asks (.product p), notes.Cover w x) :
    (Benchmark.carryOut address ⟨session, .product p⟩ job).Ends w
      (fun made _ => job.Yields w ⟨session, .product p⟩ notes made) fun _ _ => True := by
  have none_made : job.Yields w ⟨session, .product p⟩ notes [] := fun _ _ h => nomatch h
  cases job with
  | concretize concrete => exact Act.ends_bind_of_last fun _ _ => none_made
  | decode encoded packs => exact Act.ends_bind_of_last fun _ _ => none_made
  | encode packs => exact Act.Ends.map (encode_yields w p session notes packs)
  | encrypt source =>
    refine Act.Ends.map (duplicate_yields .encrypted (hn source List.mem_cons_self) rfl
      (fun _ => rfl) (fun _ => rfl) (fun _ => rfl) ?_)
    exact fun o ho hb => ⟨o.told.encoded ▸ hb, ho⟩
  | decrypt source =>
    refine Act.Ends.map (duplicate_yields .decrypted (hn source List.mem_cons_self) rfl
      (fun _ => rfl) (fun _ => rfl) (fun _ => rfl) ?_)
    exact fun o ho hb => ⟨o.told.cipher ▸ hb, ho⟩
  | load sources =>
    match sources with
    | [] => trivial
    | [source] =>
      refine Act.Ends.map (duplicate_yields .loaded (hn source List.mem_cons_self) rfl
        (fun _ => rfl) (fun _ => rfl) (fun _ => rfl) ?_)
      exact fun o ho hb => ⟨o.told.cipher ▸ hb, ho⟩
    | _ :: _ :: _ => trivial
  | store result slots =>
    cases slots with
    | nil => exact none_made
    | cons slot slots =>
      refine Act.Ends.map (duplicate_yields .stored (hn result List.mem_cons_self) rfl
        (fun _ => rfl) (fun _ => rfl) (fun _ => rfl) ?_)
      exact fun o ho hb => ⟨o.told.operated ▸ hb, ho⟩
  | operate loaded selections =>
    exact Act.Ends.map (operate_yields p session (hn loaded List.mem_cons_self) selections)

end Product

end HandleBench
