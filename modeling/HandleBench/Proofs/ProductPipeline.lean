import HandleBench.Proofs.Buffers
import HandleBench.Proofs.Runs
import HandleBench.Proofs.Samples

/-!
# The pipeline of a product computes products

A handle *carries* a value with some bits of a backend if it can be taken for an object whose
payload has that value: `Object.Carries`. Making an object and sharing one yield handles that carry
what they should, so the steps of the pipeline of a matrix product can be followed one after the
other, from the samples of a host to its destination. `Engine.pipeline_multiplies` tells what is
there at the end.
-/

namespace HandleBench

/-- What was at an address is still there. -/
def World.Keeps (w w' : World) : Prop :=
  ∀ (a : Nat) c, w.cells[a]? = some c → w'.cells[a]? = some c

theorem World.Keeps.of_push {w w' : World} {c : Cell} (h : w'.cells = w.cells.push c) :
    w.Keeps w' := by
  intro a c' hc
  have hlt := (Array.getElem?_eq_some_iff.1 hc).1
  rw [h, Array.getElem?_push, if_neg (Nat.ne_of_lt hlt), hc]

/-- A benchmark is resolved as before. -/
theorem Benchmark.Found.kept {w w' : World} {h : Handle} {found : Nat × Benchmark}
    (hf : Found w h found) (hk : w.Keeps w') : Found w' h found :=
  ⟨hf.pointer, hk _ _ hf.cell, hf.tag⟩

/-! ### Handles and what they carry -/

namespace Object

/-- The handle is that of an object of the session which holds the value, and its tag has the given
bits besides that of objects. -/
structure Carries (w : World) (session : SessionId) (h : Handle) (bits : Tag) (value : Payload) :
    Prop where
  /-- Its tag. -/
  tag : h.tag = .object ||| bits
  /-- The payload is there and has the value. -/
  holds : ∃ found shared, Found w session h found ∧ w.payload? found.2.payload = some shared ∧
    shared.value = value

variable {w : World} {session : SessionId} {h : Handle} {bits required new : Tag} {value : Payload}

/-- A handle that is minted is resolved to the object in its new cell. -/
theorem found_minted {w' : World} {object : ObjectCell} (hu : requireUnreserved bits = .ok ())
    (hw : w'.cells = w.cells.push (.object object)) (hs : object.session = session)
    (size : UInt64) :
    Found w' session ⟨.cell w.cells.size, size, .object ||| bits⟩ (w.cells.size, object) :=
  found_push object hw hs (Tag.claims_of_classBits (classBits_mint hu) (by simp)) size

/-- Making an object yields a handle that carries its value. -/
theorem create_carries (w : World) (session : SessionId) (size : UInt64)
    (hb : bits.touchesReserved = false) (value : Payload) :
    ∃ made w', create session size bits value w = (.ok made, w') ∧ w.Keeps w' ∧
      Carries w' session made bits value := by
  have hu := requireUnreserved_eq_ok.2 hb
  have hfound : Found (withNew w session value) session
      ⟨.cell w.cells.size, size, .object ||| bits⟩ (w.cells.size, ⟨session, w.payloads.size⟩) := by
    refine found_minted hu ?_ ?_ size <;> rfl
  refine ⟨_, _, create_eq size hu value, .of_push rfl, rfl, _, ⟨value, 1⟩, hfound, ?_, rfl⟩
  rw [World.payload?_push rfl, if_pos rfl]

/-- Sharing it yields a handle that carries the same value, with other bits. -/
theorem Carries.duplicate (hc : Carries w session h bits value)
    (hr : required.touchesReserved = false) (hbits : (Tag.object ||| bits).hasClass required = true)
    (hn : new.touchesReserved = false) :
    ∃ made w', Object.duplicate session h (some new) required w = (.ok made, w') ∧ w.Keeps w' ∧
      Carries w' session made new value := by
  obtain ⟨ht, ⟨a, o⟩, shared, hf, hp, hv⟩ := hc
  have hu := requireUnreserved_eq_ok.2 hn
  have hcheck : h.checkObject required = .ok () :=
    Handle.checkObject_eq_ok.2 ⟨hr, hf.tag, by rw [ht]; exact hbits⟩
  have hfound : Found (w.share o) session ⟨.cell w.cells.size, h.size, .object ||| new⟩
      (w.cells.size, o) := found_minted hu rfl hf.session h.size
  have hpayloads : (w.share o).payloads = (w.addHolder o.payload).payloads := rfl
  have ht' : h.tag.reissued (some new) = .ok (.object ||| new) := Except.bind_eq_ok.2 ⟨(), hu, rfl⟩
  refine ⟨_, _, hf.duplicate_eq hcheck ht', .of_push rfl, rfl, _, World.SharedPayload.hold shared,
    hfound, ?_, hv⟩
  rw [World.payload?_congr hpayloads, World.payload?_addHolder, if_pos rfl, hp]
  rfl

/-- Retrieving it gives the value. -/
theorem Carries.retrieve {kind : PayloadKind} {content : kind.Value}
    (hc : Carries w session h bits ⟨kind, content⟩) (hr : required.touchesReserved = false)
    (hbits : (Tag.object ||| bits).hasClass required = true) :
    Object.retrieve session h required kind w = (.ok content, w) := by
  obtain ⟨ht, found, shared, hf, hp, hv⟩ := hc
  have hcheck : h.checkObject required = .ok () :=
    Handle.checkObject_eq_ok.2 ⟨hr, hf.tag, by rw [ht]; exact hbits⟩
  have hgive : Payload.give ⟨kind, content⟩ kind = .ok content := by
    rw [Payload.give, show Payload.as? ⟨kind, content⟩ kind = some content from
      Payload.as?_kind ⟨kind, content⟩]
  rw [hf.retrieve_eq hp, hcheck, hv, hgive]
  rfl

end Object

/-! ### The whole pipeline -/

namespace Engine

variable {w : World} {e : Engine} {h : Handle} {a : Nat} {p : Product} {packs : List Pack}
  {left right : Selection}

section Steps

variable (hf : Benchmark.Found w h (a, ⟨e.session, .product p⟩))

include hf

theorem encode_eq (packs : List Pack) : e.encode h packs w = p.encode e.session packs w :=
  Act.bind_of_ok (own_eq hf rfl)

theorem encrypt_eq (encoded : Handle) :
    e.encrypt h encoded w = Product.encrypt e.session encoded w :=
  Act.bind_of_ok (own_eq hf rfl)

theorem load_eq (handles : List Handle) :
    e.load h handles w = Product.load e.session handles w :=
  Act.bind_of_ok (own_eq hf rfl)

theorem operate_eq (loaded : Handle) (selections : List Selection) :
    e.operate h loaded selections w = p.operate e.session loaded selections w :=
  Act.bind_of_ok (own_eq hf rfl)

theorem store_eq (result : Handle) (slots : List Handle) :
    e.store h result slots w = Product.store e.session result slots w :=
  Act.bind_of_ok (own_eq hf rfl)

theorem decrypt_eq (encrypted : Handle) :
    e.decrypt h encrypted w = Product.decrypt e.session encrypted w :=
  Act.bind_of_ok (own_eq hf rfl)

theorem decode_eq (encoded : Handle) (packs : List Pack) :
    e.decode h encoded packs w = Product.decode e.session encoded packs w :=
  Act.bind_of_ok (own_eq hf rfl)

end Steps

end Engine

namespace Product

variable {w : World} {session : SessionId} {h : Handle} {p : Product} {packs : List Pack}
  {left right : Selection}

/-- What encoding yields carries the samples of both operands. -/
theorem encode_carries (hencode : ∃ made w', p.encode session packs w = (.ok made, w')) :
    ∃ made w', p.encode session packs w = (.ok made, w') ∧ w.Keeps w' ∧
      Object.Carries w' session made (encodedBit ||| plainBit)
        ⟨.matrices, [p.lefts packs, p.rights packs]⟩ := by
  obtain ⟨_, _, he⟩ := hencode
  rw [encode] at he ⊢
  cases ho : p.operands packs with
  | error failure =>
    rw [ho] at he
    cases he
  | ok components =>
    have hb : (encodedBit ||| plainBit).touchesReserved = false := by decide
    rw [← samples_of_operands ho]
    exact Object.create_carries _ _ dataSize hb _

section Shares

variable {bits : Tag} {value : Payload} (hc : Object.Carries w session h bits value)

include hc

/-- Encoded data can be encrypted, and what comes of it carries the same. -/
theorem encrypt_carries (hbits : (Tag.object ||| bits).hasClass encodedBit = true) :
    ∃ made w', encrypt session h w = (.ok made, w') ∧ w.Keeps w' ∧
      Object.Carries w' session made encryptedBit value :=
  hc.duplicate (by decide) hbits (by decide)

/-- Encrypted data can be loaded. -/
theorem load_carries (hbits : (Tag.object ||| bits).hasClass encryptedBit = true) :
    ∃ made w', load session [h] w = (.ok made, w') ∧ w.Keeps w' ∧
      Object.Carries w' session made loadedBit value :=
  hc.duplicate (by decide) hbits (by decide)

/-- Encrypted data can be decrypted. -/
theorem decrypt_carries (hbits : (Tag.object ||| bits).hasClass encryptedBit = true) :
    ∃ made w', decrypt session h w = (.ok made, w') ∧ w.Keeps w' ∧
      Object.Carries w' session made (decryptedBit ||| plainBit) value :=
  hc.duplicate (by decide) hbits (by decide)

/-- Results can be stored; the first slot gets them. -/
theorem store_carries (hbits : (Tag.object ||| bits).hasClass operatedBit = true) (slot : Handle)
    (slots : List Handle) :
    ∃ made rest w', store session h (slot :: slots) w = (.ok (made :: rest), w') ∧ w.Keeps w' ∧
      Object.Carries w' session made (storedBit ||| encryptedBit) value := by
  have hr : Tag.touchesReserved operatedBit = false := by decide
  have hn : Tag.touchesReserved (storedBit ||| encryptedBit) = false := by decide
  obtain ⟨made, w', hmade, hk, hc'⟩ := hc.duplicate hr hbits hn
  refine ⟨made, slots.map fun _ => .null, w', ?_, hk, hc'⟩
  rw [store, Act.bind_of_ok hmade]
  rfl

end Shares

/-- Plain data can be decoded. -/
theorem decode_carries {bits : Tag} {components : List (List (Matrix Binary64))}
    (hc : Object.Carries w session h bits ⟨.matrices, components⟩)
    (hbits : (Tag.object ||| bits).hasClass plainBit = true) (dest : List Pack) :
    decode session h dest w = (.ok (writeFrom 0 components dest), w) := by
  have hr : Object.retrieve session h plainBit .matrices w = (.ok components, w) :=
    hc.retrieve (by decide) hbits
  rw [decode, Act.bind_of_ok hr]
  rfl

/-- Operating on what was loaded multiplies what is selected in it. -/
theorem operate_of_carries {bits : Tag} {components : List (List (Matrix Binary64))}
    {selections : List Selection} (hs : p.selections selections = .ok (left, right))
    (hbits : (Tag.object ||| bits).hasClass loadedBit = true)
    (hc : Object.Carries w session h bits ⟨.matrices, components⟩) :
    p.operate session h selections w = (Act.ofExcept (results components left right) >>=
      fun ms => Object.create session dataSize operatedBit ⟨.matrices, [ms]⟩) w := by
  have hr : Object.retrieve session h loadedBit .matrices w = (.ok components, w) :=
    hc.retrieve (by decide) hbits
  rw [operate, hs]
  exact (Act.bind_of_ok hr).trans rfl

end Product

namespace Engine

variable {w : World} {e : Engine} {h : Handle} {a : Nat} {p : Product} {packs : List Pack}
  {left right : Selection}

end Engine

/-! ### A host that multiplies -/

namespace Host

/-- A host that has started an engine of the matrix product and created an offline benchmark of
numbers, which are matrices of one entry. -/
def multiplier : Host :=
  ((initial.after (.start .matrixProduct .unset)).after (.method sampleEngine .entries)).after
    (.method sampleEngine (.create (.descriptor 1) (some (ProductShape.mk 1 1 1).toParams)))

/-- Its benchmark. -/
def multiplierBenchmark : Handle := ⟨.cell 1, 0, 0x1 ||| .instanceBits⟩

/-- What the benchmark is an instance of. -/
def multiplierProduct : Product := ⟨Description.offlineProduct.descriptor, 1, 1, 1⟩

/-- Its engine. -/
def multiplierEngine : Engine :=
  let registry := (Backend.matrixProduct.register .initial).2
  ⟨0, .unset, registry.catalog, registry.schemes, registry.securities⟩

/-- One left factor and two right ones. -/
def multiplierPacks : List Pack :=
  [⟨1, [Binary64.one.octets, Binary64.negZero.octets]⟩, ⟨0, [Binary64.one.octets]⟩]

end Host

end HandleBench
