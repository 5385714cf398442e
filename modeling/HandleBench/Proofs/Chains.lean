import HandleBench.Proofs.Minting
import HandleBench.Proofs.PipelineOrder
import HandleBench.Proofs.Sharing
import Mathlib.Data.List.ReduceOption

/-!
# Chains of duplicates

A handle that was duplicated from another one, which was duplicated before, and so on, descends from
the first handle of its payload by a chain of requests, each of which has kept the bits or asked for
new ones. Whatever else a host does in between, the chain settles the handle that has come of it:
the bits are those that were last asked for, the size is the first one, and what the session does
with the handle depends on nothing else: `Host.ChainLaw`.
-/

namespace HandleBench

/-! ### Checks are critical -/

theorem Tag.reissued_critical (t : Tag) (new : Option Tag) :
    FailsCritically (t.reissued new) := by
  cases new with
  | none => exact failsOnly_ok t
  | some bits =>
    exact failsOnly_bind (requireUnreserved_critical bits) fun _ _ => failsOnly_ok _

theorem Payload.give_critical (p : Payload) (expected : PayloadKind) :
    FailsCritically (p.give expected) := by
  unfold Payload.give
  split
  · exact failsOnly_ok _
  · exact failsOnly_error rfl

/-- A payload gives its value at its own kind only. -/
theorem Payload.exists_give_iff {p : Payload} {expected : PayloadKind} :
    (∃ value, p.give expected = .ok value) ↔ expected = p.kind := by
  unfold Payload.give
  by_cases hk : p.kind = expected
  · subst hk
    simp
  · rw [Payload.as?_eq_none hk]
    exact ⟨fun ⟨_, hv⟩ => (by cases hv), fun he => absurd he.symm hk⟩

/-- The first handle of a payload is refused for reserved bits, and for nothing else. -/
theorem Object.create_gated (w : World) (session : SessionId) (size : UInt64) (bits : Tag)
    (value : Payload) :
    (create session size bits value).Gated w (bits.touchesReserved = false) := by
  have hgated : (create session size bits value).Gated w (∃ u, requireUnreserved bits = .ok u) :=
    Act.gated_of_except (fun _ hu => ⟨_, _, create_eq size hu value⟩)
      (fun _ hu => create_refused size hu value) (requireUnreserved_critical bits)
  refine hgated.of_iff ⟨fun ⟨_, hu⟩ => requireUnreserved_eq_ok.1 hu, fun hb => ⟨(), ?_⟩⟩
  exact requireUnreserved_eq_ok.2 hb

/-- The tag of one more handle has the bits that are asked for, or else those of the first. -/
theorem Tag.reissued_or {bits tag : Tag} {new : Option Tag} (hb : bits.touchesReserved = false)
    (ht : (Tag.object ||| bits).reissued new = .ok tag) :
    tag = .object ||| new.getD bits ∧ (new.getD bits).touchesReserved = false := by
  cases new with
  | none =>
    cases ht
    exact ⟨rfl, hb⟩
  | some bits' =>
    obtain ⟨⟨⟩, hu, ht⟩ := Except.bind_eq_ok.1 ht
    cases ht
    exact ⟨rfl, requireUnreserved_eq_ok.1 hu⟩

/-! ### Chains -/

/-- How the handle of an object has come about. -/
structure Chain where
  /-- The session that has minted the first handle of the payload and every further one. -/
  session : SessionId
  /-- The size that the first handle was given. -/
  size : UInt64
  /-- The value of the payload. -/
  value : Payload
  /-- The bits that the first handle was asked to have. -/
  first : Tag
  /-- What the further handles were asked for, one duplicated from the other. -/
  asked : List (Option Tag)

namespace Chain

/-- The bits that were last asked for. -/
def bits (c : Chain) : Tag := c.asked.reduceOption.getLastD c.first

/-- The chain with one more link. -/
def link (c : Chain) (new : Option Tag) : Chain := { c with asked := c.asked ++ [new] }

/-- Who requires these bits is served. -/
def Opens (c : Chain) (required : Tag) : Prop :=
  required.touchesReserved = false ∧ c.bits.hasClass required = true

/-- One more handle is minted for who requires and asks for these bits. -/
def Grants (c : Chain) (new : Option Tag) (required : Tag) : Prop :=
  (∀ bits, new = some bits → bits.touchesReserved = false) ∧ c.Opens required

theorem bits_link (c : Chain) (new : Option Tag) : (c.link new).bits = new.getD c.bits := by
  unfold bits link
  rw [List.reduceOption_append]
  cases new with
  | none => simp
  | some bits => simp

end Chain

namespace Host

/-- The handle of an object has come about as the chain says, in a run of the host in which anything
else may have happened, too, as long as the host has kept the handle. -/
inductive Made : Host → Handle → Chain → Prop where
  /-- A session makes a payload. -/
  | created {s : Host} {session : SessionId} {size : UInt64} {bits : Tag} {value : Payload}
    {h : Handle} {w : World} (hs : s.Reachable)
    (hc : Object.create session size bits value s.world = (.ok h, w)) :
    Made (s.after (.create session size bits value)) h ⟨session, size, value, bits, []⟩
  /-- The session duplicates a handle that it has minted. -/
  | shared {s : Host} {source h : Handle} {c : Chain} {new : Option Tag} {required : Tag}
    {w : World} (hm : Made s source c)
    (hd : Object.duplicate c.session source new required s.world = (.ok h, w)) :
    Made (s.after (.duplicate c.session source new required)) h (c.link new)
  /-- The host makes another move. -/
  | kept {s : Host} {h : Handle} {c : Chain} {m : Move} (hm : Made s h c) (hp : s.Permits m)
    (hk : ∃ g, (h, g) ∈ (s.after m).ledger.held) : Made (s.after m) h c

/-- What a chain settles in the books of the host and in the handle itself. -/
structure Descends (s : Host) (h : Handle) (c : Chain) : Prop where
  /-- The host has arrived where it is. -/
  reachable : s.Reachable
  /-- The payload is booked in the session, with the value that it was made of. -/
  booked : ∃ root, (h, .object c.session root) ∈ s.ledger.held ∧
    s.ledger.values[root]? = some c.value
  /-- The tag has the bits that were last asked for, besides that of objects. -/
  tag : h.tag = .object ||| c.bits
  /-- These are bits of a backend. -/
  unreserved : c.bits.touchesReserved = false
  /-- The size is the first one. -/
  size : h.size = c.size

variable {s : Host} {h made : Handle} {c : Chain} {new : Option Tag} {required : Tag} {m : Move}

/-! ### Chains are followed -/

theorem descends_created {session : SessionId} {size : UInt64} {bits : Tag} {value : Payload}
    {w : World} (hs : s.Reachable)
    (hc : Object.create session size bits value s.world = (.ok h, w)) :
    (s.after (.create session size bits value)).Descends h ⟨session, size, value, bits, []⟩ := by
  cases hu : requireUnreserved bits with
  | error failure =>
    rw [Object.create_refused size hu] at hc
    cases hc
  | ok =>
    have hp : (Move.create session size bits value).perform s.world =
        (.ok (.created h session value), w) := Act.bind_of_ok hc
    rw [Object.create_eq size hu] at hc
    cases hc
    have hr := hs.after (m := .create session size bits value) (by simp [Permits, Move.handles])
    rw [after_of_ok hp] at hr ⊢
    refine ⟨hr, ⟨s.ledger.values.length, List.mem_cons_self, ?_⟩, rfl,
      requireUnreserved_eq_ok.1 hu, rfl⟩
    exact List.getElem?_concat_length

theorem Descends.shared {source : Handle} {w : World} (hf : s.Descends source c)
    (hd : Object.duplicate c.session source new required s.world = (.ok h, w)) :
    (s.after (.duplicate c.session source new required)).Descends h (c.link new) := by
  obtain ⟨root, hheld, hvalue⟩ := hf.booked
  have hp : (Move.duplicate c.session source new required).perform s.world =
      (.ok (.shared h source), w) := Act.bind_of_ok hd
  obtain ⟨found, tag, -, -, ht, rfl, rfl⟩ := Object.duplicate_eq_ok hd
  have hr := hf.reachable.after (m := .duplicate c.session source new required)
    (List.forall_mem_singleton.2 (.inr (.inr ⟨_, hheld⟩)))
  obtain ⟨htag, hunreserved⟩ := Tag.reissued_or hf.unreserved (hf.tag ▸ ht)
  have hledger : s.ledger.enter (.shared ⟨.cell s.world.cells.size, source.size, tag⟩ source) =
      s.ledger.gain ⟨.cell s.world.cells.size, source.size, tag⟩ (.object c.session root) := by
    rw [Ledger.enter, hf.reachable.agrees.backed.grant?_eq hheld]
  rw [after_of_ok hp, hledger] at hr ⊢
  rw [← Chain.bits_link] at htag hunreserved
  exact ⟨hr, ⟨root, List.mem_cons_self, hvalue⟩, htag, hunreserved, hf.size⟩

/-- A handle that stays with the host follows its chain, whatever moves the host makes. -/
theorem Descends.kept (hf : s.Descends h c) (hp : s.Permits m)
    (hk : ∃ g, (h, g) ∈ (s.after m).ledger.held) : (s.after m).Descends h c := by
  obtain ⟨root, hheld, hvalue⟩ := hf.booked
  refine ⟨hf.reachable.after hp, ?_, hf.tag, hf.unreserved, hf.size⟩
  refine ⟨root, ?_⟩
  cases hperform : m.perform s.world with
  | mk result w =>
    cases result with
    | error reason =>
      rw [after_of_error hperform]
      exact ⟨hheld, hvalue⟩
    | ok event =>
      rw [after_of_ok hperform] at hk ⊢
      have hstays : event ≠ .released h := by
        rintro rfl
        obtain ⟨g, hg⟩ := hk
        simpa using (List.mem_filter.1 hg).2
      refine ⟨Ledger.held_enter hheld hstays, ?_⟩
      have hlt := (List.getElem?_eq_some_iff.1 hvalue).1
      rw [List.prefix_iff_getElem?.1 (s.ledger.values_enter event) root hlt, ← hvalue,
        List.getElem?_eq_getElem hlt]

/-- Every handle follows the chain that it has come about by. -/
theorem Made.descends (hm : Made s h c) : s.Descends h c := by
  induction hm with
  | created hs hc => exact descends_created hs hc
  | shared _ hd ih => exact ih.shared hd
  | kept _ hp hk ih => exact ih.kept hp hk

/-! ### What a chain settles -/

theorem Descends.checkObject_iff (hf : s.Descends h c) :
    h.checkObject required = .ok () ↔ c.Opens required := by
  have hclass : h.tag.hasClass .object = true := by
    have hclaims : h.tag.Claims .object := by
      rw [hf.tag]
      exact Tag.claims_of_classBits (Tag.classBits_or hf.unreserved .object) (by simp)
    exact hclaims
  rw [Handle.checkObject_eq_ok, Chain.Opens]
  refine and_congr_right fun hr => ?_
  rw [show h.tag.hasClass required = c.bits.hasClass required by
    rw [hf.tag]
    exact Tag.hasClass_or hr .object c.bits]
  exact and_iff_right hclass

theorem Descends.duplicate_gated (hf : s.Descends h c) (new : Option Tag) (required : Tag) :
    (Object.duplicate c.session h new required).Gated s.world (c.Grants new required) := by
  obtain ⟨root, hheld, -⟩ := hf.booked
  obtain ⟨found, hfound, -⟩ := hf.reachable.agrees.backed.object_found hheld
  have hgated : (Object.duplicate c.session h new required).Gated s.world
      (∃ tag, (do h.checkObject required; h.tag.reissued new) = .ok tag) := by
    refine Act.gated_of_except (fun tag he => ?_) (fun _ he => hfound.duplicate_refused he) ?_
    · obtain ⟨⟨⟩, hc, ht⟩ := Except.bind_eq_ok.1 he
      exact ⟨_, _, hfound.duplicate_eq hc ht⟩
    · exact failsOnly_bind (h.checkObject_critical required) fun _ _ =>
        h.tag.reissued_critical new
  refine hgated.of_iff ?_
  rw [Chain.Grants, ← Tag.exists_reissued_iff (t := h.tag), ← hf.checkObject_iff]
  constructor
  · rintro ⟨tag, he⟩
    obtain ⟨⟨⟩, hc, ht⟩ := Except.bind_eq_ok.1 he
    exact ⟨⟨tag, ht⟩, hc⟩
  · rintro ⟨⟨tag, ht⟩, hc⟩
    exact ⟨tag, Except.bind_eq_ok.2 ⟨(), hc, ht⟩⟩

theorem Descends.retrieve_eq (hf : s.Descends h c) (required : Tag) (expected : PayloadKind) :
    Object.retrieve c.session h required expected s.world =
      Act.ofExcept (do h.checkObject required; c.value.give expected) s.world := by
  obtain ⟨root, hheld, hvalue⟩ := hf.booked
  obtain ⟨value, hv, hretrieve⟩ := retrieve_of_held hf.reachable.agrees hheld
  obtain rfl : c.value = value := Option.some.inj (hvalue.symm.trans hv)
  exact hretrieve required expected

theorem Descends.retrieve_gated (hf : s.Descends h c) (required : Tag) (expected : PayloadKind) :
    (Object.retrieve c.session h required expected).Gated s.world
      (c.Opens required ∧ expected = c.value.kind) := by
  have hgated : (Object.retrieve c.session h required expected).Gated s.world
      (∃ value, (do h.checkObject required; c.value.give expected) = .ok value) := by
    refine Act.gated_of_except (fun value he => ?_) (fun failure he => ?_) ?_
    · exact ⟨value, s.world, by rw [hf.retrieve_eq, he]; rfl⟩
    · rw [hf.retrieve_eq, he]
      rfl
    · exact failsOnly_bind (h.checkObject_critical required) fun _ _ =>
        c.value.give_critical expected
  refine hgated.of_iff ?_
  rw [← Payload.exists_give_iff, ← hf.checkObject_iff]
  constructor
  · rintro ⟨value, he⟩
    obtain ⟨⟨⟩, hc, hv⟩ := Except.bind_eq_ok.1 he
    exact ⟨hc, value, hv⟩
  · rintro ⟨hc, value, hv⟩
    exact ⟨value, Except.bind_eq_ok.2 ⟨(), hc, hv⟩⟩

/-- What a chain settles of the handle that has come of it. -/
structure ChainLaw (s : Host) (h : Handle) (c : Chain) : Prop where
  /-- The bits of the backend are those that were last asked for. -/
  backendBits : h.tag.backendBits = c.bits
  /-- The class bits are those of objects. -/
  classBits : h.tag.classBits = Kind.object.bits
  /-- The size is the first one. -/
  size : h.size = c.size
  /-- One more handle is minted unless reserved bits are asked for or required, or bits are required
  that the handle does not have. -/
  duplicated : ∀ new required,
    (Object.duplicate c.session h new required).Gated s.world (c.Grants new required)
  /-- It has the bits that are asked for and no old ones, or all the old ones. -/
  linked : ∀ new required made w,
    Object.duplicate c.session h new required s.world = (.ok made, w) →
      made.tag.backendBits = new.getD c.bits ∧ made.size = c.size
  /-- The payload is retrieved unless reserved bits are required, or bits that the handle does not
  have, or another kind is expected than that of the value. -/
  retrieved : ∀ required expected,
    (Object.retrieve c.session h required expected).Gated s.world
      (c.Opens required ∧ expected = c.value.kind)
  /-- It is the value that was put in. -/
  value : ∀ required, c.Opens required →
    Object.retrieve c.session h required c.value.kind s.world = (.ok c.value.value, s.world)

theorem Descends.backendBits (hf : s.Descends h c) : h.tag.backendBits = c.bits := by
  rw [hf.tag]
  exact Tag.backendBits_or hf.unreserved .object

theorem Descends.chainLaw (hf : s.Descends h c) : s.ChainLaw h c := by
  refine {
    backendBits := hf.backendBits
    classBits := ?classBits
    size := hf.size
    duplicated := hf.duplicate_gated
    linked := fun new required made w hd => ?linked
    retrieved := hf.retrieve_gated
    value := fun required ho => ?value }
  case classBits =>
    rw [hf.tag]
    exact Tag.classBits_or hf.unreserved .object
  case linked =>
    have hmade := hf.shared hd
    rw [← Chain.bits_link]
    exact ⟨hmade.backendBits, hmade.size⟩
  case value =>
    rw [hf.retrieve_eq, hf.checkObject_iff.2 ho]
    show Act.ofExcept (c.value.give c.value.kind) s.world = _
    rw [Payload.give, Payload.as?_kind]
    rfl

/-- **Chains settle handles.** The first handle of a payload is refused for reserved bits only, and
whatever a host has done meanwhile, what a session makes of a handle that it has minted is settled
by what was asked for along the chain. -/
theorem chainsSettle :
    (∀ w session size bits value,
      (Object.create session size bits value).Gated w (bits.touchesReserved = false)) ∧
    ∀ s h c, Made s h c → s.ChainLaw h c :=
  ⟨Object.create_gated, fun _ _ _ hm => hm.descends.chainLaw⟩

/-- A handle that was made with the bits 1 and 2. -/
def sampleFirst : Handle := ⟨.cell 0, 4, .object ||| 3⟩

/-- The one duplicated from it, with the same bits. -/
def sampleSecond : Handle := ⟨.cell 1, 4, .object ||| 3⟩

/-- The one duplicated from this, with the bit 4. -/
def sampleThird : Handle := ⟨.cell 2, 4, .object ||| 4⟩

/-- The chain by which the second has come about. -/
def sampleChain : Chain := ⟨0, 4, ⟨.octet, (7 : UInt8)⟩, 3, [none]⟩

/-- A host that has made the first two handles. -/
def duplicated : Host :=
  ((initial.after (.openSession .empty)).after (.create 0 4 3 ⟨.octet, (7 : UInt8)⟩)).after
    (.duplicate 0 sampleFirst none 1)

/-- The host that has released the first one and made the third. -/
def linked : Host :=
  (duplicated.after (.release 0 sampleFirst)).after (.duplicate 0 sampleSecond (some 4) 2)

theorem made_duplicated : Made duplicated sampleSecond sampleChain :=
  have hs : (initial.after (.openSession .empty)).Reachable := .after .initial (by decide)
  have hfirst : Made _ sampleFirst ⟨0, 4, ⟨.octet, (7 : UInt8)⟩, 3, []⟩ := .created hs rfl
  hfirst.shared rfl

theorem made_linked : Made linked sampleThird (sampleChain.link (some 4)) :=
  have hkept := made_duplicated.kept (m := .release 0 sampleFirst) (by decide)
    ⟨.object 0 0, by decide⟩
  hkept.shared rfl

/-- The last handle has the bit that was asked for last, and the value is retrieved by this bit. -/
theorem chainsSettle_linked : Made linked sampleThird (sampleChain.link (some 4)) ∧
    sampleThird.tag.backendBits = 4 ∧
    Object.retrieve 0 sampleThird 4 .octet linked.world = (.ok (7 : UInt8), linked.world) :=
  have hlaw := chainsSettle.2 linked sampleThird _ made_linked
  ⟨made_linked, hlaw.backendBits, hlaw.value 4 ⟨by decide, by decide⟩⟩

end Host

end HandleBench
