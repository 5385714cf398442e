import HandleBench.Proofs.Origins
import HandleBench.Proofs.Resolution

/-!
# Minting of handles

A session checks the handles that it is given by subset tests, so a copy whose host has set further
bits passes. Of the two sources that the tag of a new handle can have, the bits that are asked for
are checked and come with the bit of objects, while the tag of a given copy is taken over as it is.
So a new handle has the reserved bit of objects and no other, `Object.Genuine`, unless it was
duplicated with the tag of a copy that has others: `Object.MintingLaw`. Most of these do no harm.
Only who asks for a benchmark can be led astray, and only by both bits of one,
`Object.Found.unmistakable_iff`.
-/

namespace HandleBench

/-- The bits that are asked for must be the backend's. -/
theorem Tag.exists_reissued_iff {t : Tag} {new : Option Tag} :
    (∃ tag, t.reissued new = .ok tag) ↔
      ∀ bits, new = some bits → bits.touchesReserved = false := by
  cases new with
  | none => exact ⟨fun _ _ hb => (by cases hb), fun _ => ⟨t, rfl⟩⟩
  | some bits =>
    constructor
    · rintro ⟨tag, ht⟩ _ ⟨⟩
      obtain ⟨⟨⟩, hu, -⟩ := Except.bind_eq_ok.1 ht
      exact requireUnreserved_eq_ok.1 hu
    · intro hb
      refine ⟨.object ||| bits, ?_⟩
      rw [reissued, requireUnreserved_eq_ok.2 (hb bits rfl)]
      rfl

namespace Object

variable {w w' : World} {session : SessionId} {h made : Handle} {found : Nat × ObjectCell}
  {bits required tag : Tag} {new : Option Tag}

/-! ### What comes of minting -/

/-- A handle that has been duplicated has passed the checks, and it has led to an object. -/
theorem duplicate_eq_ok (hd : duplicate session h new required w = (.ok made, w')) :
    ∃ found tag, Found w session h found ∧ h.checkObject required = .ok () ∧
      h.tag.reissued new = .ok tag ∧ made = ⟨.cell w.cells.size, h.size, tag⟩ ∧
      w' = w.share found.2 := by
  cases hr : resolve session h required w with
  | mk result w₁ =>
    cases result with
    | error reason =>
      rw [duplicate, Act.bind_of_stop hr] at hd
      cases hd
    | ok found =>
      obtain ⟨-, hf⟩ := (resolve_atomic w session h required).of_ok hr
      have hc := (resolve_checked w session h required).of_ok hr
      cases ht : h.tag.reissued new with
      | error failure =>
        have hr : (do h.checkObject required; h.tag.reissued new) = .error failure := by
          rw [hc, ← ht]
          rfl
        rw [hf.duplicate_refused hr] at hd
        cases hd
      | ok tag =>
        rw [hf.duplicate_eq hc ht] at hd
        cases hd
        exact ⟨found, tag, hf, hc, rfl, rfl, rfl⟩

/-! ### What new handles can be taken for -/

/-- The handle is that of an object of the session, and nobody takes it for anything else. -/
structure Unmistakable (w : World) (session : SessionId) (h : Handle) : Prop where
  /-- Who asks for an engine does not follow it. -/
  engine : (Engine.resolve h).Blind
  /-- Nor does who asks for a benchmark. -/
  benchmark : (Benchmark.resolve h).Blind ∧ ∀ e : Engine, (e.own h).Blind
  /-- Nor is it taken for that of a catalog entry. -/
  entry : ∀ e : Engine, ∃ failure, e.find h = .error failure
  /-- It leads to an object, and this is what goes when it is released, by the exported call or
  through an engine. -/
  destroyed : ∃ found, Found w session h found ∧
    (Call.destroy h).attempt w =
      (.ok ⟨.ok (.code .success), .destroy h⟩, release w found.1 found.2) ∧
    ∀ e : Engine, e.session = session → e.destroy h w = (.ok (), release w found.1 found.2)

/-- Besides, its tag tells that it is an object and nothing else. -/
structure Genuine (w : World) (session : SessionId) (h : Handle) : Prop
    extends Unmistakable w session h where
  /-- Of the reserved bits its tag has the one of objects and no other. -/
  classBits : h.tag.classBits = Kind.object.bits
  /-- It passes the test for objects and no other. -/
  claims : ∀ k, h.tag.Claims k ↔ k = .object

/-- The test for engines compares the whole tag, so no object passes it. -/
theorem Found.engine_blind (hf : Found w session h found) : (Engine.resolve h).Blind := by
  apply Engine.resolve_blind
  right
  intro hc
  have ht : h.tag = Tag.engine := hc
  have ho : h.tag.hasClass .object = true := hf.tag
  rw [ht] at ho
  exact absurd ho (by decide)

/-- The address of an object is no index of a catalog. -/
theorem Found.no_entry (hf : Found w session h found) (e : Engine) :
    ∃ failure, e.find h = .error failure := by
  unfold Engine.find
  rw [hf.pointer]
  split
  · exact ⟨_, rfl⟩
  · exact ⟨_, rfl⟩

/-- With both bits of benchmarks in its tag the handle is followed as that of a benchmark, although
there is none. -/
theorem Found.benchmark_misread (hf : Found w session h found) (hb : h.tag.Claims .benchmark) :
    Benchmark.resolve h w = (.error .misread, w) := by
  have ht : h.tag.hasClass .instanceBits = true := hb
  rw [Benchmark.resolve, if_neg (by simp [ht]), if_neg (by simp [hf.not_null]), hf.pointer,
    Act.bind_of_ok (World.follow_eq_ok hf.cell (by simp [Cell.grant?]))]
  rfl

/-- The bits of benchmarks decide. -/
theorem Found.unmistakable_iff (hf : Found w session h found) :
    Unmistakable w session h ↔ ¬ h.tag.Claims .benchmark := by
  constructor
  · intro hu hb
    obtain ⟨failure, hblind⟩ := hu.benchmark.1
    have hmisread := hf.benchmark_misread hb
    rw [hblind w] at hmisread
    cases hmisread
  · intro hb
    have hblind := Benchmark.resolve_blind (.inr hb)
    refine {
      engine := hf.engine_blind
      benchmark := ⟨hblind, fun e => Engine.own_blind hblind⟩
      entry := hf.no_entry
      destroyed := ⟨found, hf, Call.destroy_object hf hb, ?_⟩ }
    rintro e rfl
    exact Engine.destroy_object hf hb

/-- An object without other reserved bits can be taken for nothing else. -/
theorem Found.genuine (hf : Found w session h found) (hb : h.tag.classBits = Kind.object.bits) :
    Genuine w session h where
  toUnmistakable := hf.unmistakable_iff.2 fun hc => nomatch Tag.Claims.unique hb hc
  classBits := hb
  claims _ := ⟨Tag.Claims.unique hb, fun hk => hk ▸ hf.tag⟩

/-- What holds of the handles that a session mints in a world. -/
structure MintingLaw (w : World) (session : SessionId) : Prop where
  /-- The first handle of a payload is that of an object and nothing else. -/
  created : ∀ size bits value made w', create session size bits value w = (.ok made, w') →
    Genuine w' session made
  /-- So is one that is asked to have bits of its own, whatever copy it was duplicated from. -/
  replaced : ∀ copy bits required made w',
    duplicate session copy (some bits) required w = (.ok made, w') → Genuine w' session made
  /-- One that is not has the tag of the copy, which is that of an object and may have other
  reserved bits. It can be taken for nothing but an object, or for a benchmark, the latter exactly
  if the copy has both bits of benchmarks. -/
  kept : ∀ copy required made w', duplicate session copy none required w = (.ok made, w') →
    made.tag = copy.tag ∧ made.tag.hasClass .object = true ∧
      (copy.tag.classBits = Kind.object.bits → Genuine w' session made) ∧
      (Unmistakable w' session made ↔ copy.tag.hasClass .instanceBits = false) ∧
      (copy.tag.hasClass .instanceBits = true →
        Benchmark.resolve made w' = (.error .misread, w')) ∧
      (Engine.resolve made).Blind ∧ ∀ e : Engine, ∃ failure, e.find made = .error failure
  /-- Any copy that passes the checks can be duplicated, whatever further bits the host has put into
  its tag. -/
  accepted : ∀ h found tag new required, Found w session h found →
    { h with tag }.checkObject required = .ok () →
    (∀ bits, new = some bits → bits.touchesReserved = false) →
    ∃ made w', duplicate session { h with tag } new required w = (.ok made, w')

/-- **What a session mints is an object.** In every world the handles of objects that a session
hands out have the reserved bit of objects and no other, unless they keep the tag of a copy that
has others. -/
theorem mintingLaw (w : World) (session : SessionId) : MintingLaw w session := by
  refine {
    created := fun size bits value made w' hc => ?created
    replaced := fun copy bits required made w' hd => ?replaced
    kept := fun copy required made w' hd => ?kept
    accepted := fun h found tag new required hf hc hn => ?accepted }
  case created =>
    cases hu : requireUnreserved bits with
    | error failure =>
      rw [create_refused size hu] at hc
      cases hc
    | ok =>
      rw [create_eq size hu] at hc
      cases hc
      have hclass := classBits_mint hu
      have hclaims := Tag.claims_of_classBits hclass (by simp)
      have hfound : Found (withNew w session value) session _ _ :=
        found_push ⟨session, w.payloads.size⟩ rfl rfl hclaims size
      exact hfound.genuine hclass
  case replaced =>
    obtain ⟨found, tag, hf, -, ht, rfl, rfl⟩ := duplicate_eq_ok hd
    obtain ⟨⟨⟩, hu, ht⟩ := Except.bind_eq_ok.1 ht
    cases ht
    have hclass := classBits_mint hu
    have hfound : Found (w.share found.2) session _ _ :=
      found_push found.2 rfl hf.session (Tag.claims_of_classBits hclass (by simp)) copy.size
    exact hfound.genuine hclass
  case kept =>
    obtain ⟨found, tag, hf, -, ht, rfl, rfl⟩ := duplicate_eq_ok hd
    cases ht
    have hfound : Found (w.share found.2) session _ _ :=
      found_push found.2 rfl hf.session hf.tag copy.size
    have hbits : ¬ Tag.Claims copy.tag .benchmark ↔ copy.tag.hasClass .instanceBits = false :=
      iff_of_eq (Bool.not_eq_true _)
    exact ⟨rfl, hf.tag, hfound.genuine, hfound.unmistakable_iff.trans hbits,
      hfound.benchmark_misread, hfound.engine_blind, hfound.no_entry⟩
  case accepted =>
    have hcopy : Found w session { h with tag } found :=
      ⟨hf.pointer, hf.cell, hf.session, (Handle.checkObject_eq_ok.1 hc).2.1⟩
    obtain ⟨tag', ht⟩ := Tag.exists_reissued_iff.2 hn
    exact ⟨_, _, hcopy.duplicate_eq hc ht⟩

/-- A host sets the bit of engines in its copy of an object's handle. The copy passes, and its
duplicate has the bit as well. -/
theorem duplicate_keeps_bits : ∃ w h w' made w'',
    World.openSession .empty .empty = (.ok 0, w) ∧
    create 0 4 1 ⟨.octet, (7 : UInt8)⟩ w = (.ok h, w') ∧
    duplicate 0 { h with tag := h.tag ||| Tag.engine } none 0 w' = (.ok made, w'') ∧
    made.tag = 0xA000000000000001 ∧ made.tag.classBits ≠ Kind.object.bits :=
  ⟨_, _, _, _, _, rfl, rfl, rfl, by decide, by decide⟩

end Object

end HandleBench
