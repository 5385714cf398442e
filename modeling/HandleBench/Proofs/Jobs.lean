import HandleBench.Proofs.Steps
import HandleBench.Engine

/-!
# Jobs of a benchmark

The steps of the pipeline differ between the kinds of instance, but to the handles of the host each
does one of three things: it makes a payload, it shares the payload of one of the handles it was
given, or it does nothing. Which of them, and of which handle, can be said before the step is taken.
-/

namespace HandleBench

/-- A step of the pipeline with the arguments of the host. -/
inductive Job where
  /-- Gives the benchmark a concrete descriptor. -/
  | concretize (concrete : Descriptor)
  /-- Encodes samples. -/
  | encode (packs : List Pack)
  /-- Decodes into the host's packs. -/
  | decode (encoded : Handle) (packs : List Pack)
  /-- Encrypts encoded data. -/
  | encrypt (encoded : Handle)
  /-- Decrypts encrypted data. -/
  | decrypt (encrypted : Handle)
  /-- Loads encrypted data. -/
  | load (handles : List Handle)
  /-- Stores results. -/
  | store (result : Handle) (slots : List Handle)
  /-- Runs the workload. -/
  | operate (loaded : Handle) (selections : List Selection)

/-- The value that an instance makes of samples. -/
def Instance.encoded : Instance → List Pack → Option Payload
  | product p, packs => (p.operands packs).toOption.map fun components => ⟨.matrices, components⟩
  | carrier _, packs => some ⟨.samples, packs⟩

/-- The value that an instance makes of a loaded one, if it makes any. -/
def Instance.operated : Instance → Option Payload → List Selection → Option Payload
  | product p, loaded, selections => do
    let components ← loaded.bind (·.as? .matrices)
    let (left, right) ← (p.selections selections).toOption
    let results ← (Product.results components left right).toOption
    return ⟨.matrices, [results]⟩
  | carrier _, _, _ => none

namespace Job

/-- The handles that the host passes. -/
def handles : Job → List Handle
  | concretize _ | encode _ => []
  | decode h _ | encrypt h | decrypt h | store h _ | operate h _ => [h]
  | load handles => handles

/-- The handles that are resolved as objects. -/
def asks : Instance → Job → List Handle
  | _, concretize _ | _, encode _ => []
  | _, decode h _ | _, encrypt h | _, decrypt h | _, operate h _ => [h]
  | _, load handles => handles.take 1
  | .product _, store _ [] => []
  | _, store h _ => [h]

/-- What the job does to the handles of the host if it makes the given ones, of which only the first
is not null. -/
def event (w : World) (b : Benchmark) (made : List Handle) : Job → Event
  | concretize _ | decode .. | load [] => .nothing
  | encode packs =>
    match b.inst.encoded packs with
    | some value => .ofFirst made (.created · b.session value)
    | none => .nothing
  | encrypt source | decrypt source | load (source :: _) | store source _ =>
    .ofFirst made (.shared · source)
  | operate source selections =>
    match b.inst.operated (w.value? source) selections with
    | some value => .ofFirst made (.created · b.session value)
    | none => .ofFirst made (.shared · source)

/-- A job asks only about what it was given. -/
theorem handles_of_asks (inst : Instance) (job : Job) : ∀ x ∈ job.asks inst, x ∈ job.handles := by
  intro x hx
  cases job with
  | load sources => exact List.mem_of_mem_take hx
  | store h slots =>
    cases inst <;> cases slots <;> first | exact hx | exact absurd hx List.not_mem_nil
  | _ => exact hx

/-- A job shares only what it was given. -/
theorem given_event (w : World) (b : Benchmark) (made : List Handle) (job : Job) :
    ∀ x ∈ (job.event w b made).given, x ∈ job.handles := by
  intro x hx
  cases job with
  | concretize | decode => exact absurd hx List.not_mem_nil
  | encode packs =>
    change x ∈ Event.given (match b.inst.encoded packs with | some value => _ | none => _) at hx
    split at hx
    · rw [Event.given_ofFirst fun _ => rfl] at hx
      exact absurd hx List.not_mem_nil
    · exact absurd hx List.not_mem_nil
  | encrypt | decrypt | store => exact Event.given_ofFirst_shared made _ x hx
  | load sources =>
    cases sources with
    | nil => exact absurd hx List.not_mem_nil
    | cons source rest =>
      rw [List.mem_singleton.1 (Event.given_ofFirst_shared made source x hx)]
      exact List.mem_cons_self
  | operate loaded selections =>
    change x ∈ Event.given
      (match b.inst.operated (w.value? loaded) selections with | some value => _ | none => _) at hx
    split at hx
    · rw [Event.given_ofFirst fun _ => rfl] at hx
      exact absurd hx List.not_mem_nil
    · exact Event.given_ofFirst_shared made loaded x hx

end Job

/-- Does a job and yields the handles it makes. -/
def Benchmark.carryOut (address : Nat) (b : Benchmark) : Job → Act World (List Handle)
  | .concretize concrete => do
    b.concretize address concrete
    return []
  | .encode packs => return [← b.encode packs]
  | .decode encoded packs => do
    let _ ← b.decode encoded packs
    return []
  | .encrypt encoded => return [← b.encrypt encoded]
  | .decrypt encrypted => return [← b.decrypt encrypted]
  | .load handles => return [← b.load handles]
  | .store result slots => b.store result slots
  | .operate loaded selections => return [← b.operate loaded selections]

/-! ### The steps of a byte carrier -/

namespace Carrier

variable {w : World} {session : SessionId} {h : Handle}

/-- A payload that is shared and released again has as many holders as before. -/
theorem change_passed {found : Nat × ObjectCell} (hf : Object.Found w session h found) :
    w.Change (Object.release (w.share found.2) w.cells.size found.2) .nothing := by
  refine .passed hf.grant ?_ rfl
  funext p
  have hs : (w.share found.2).cells = w.cells.push (.object found.2) := rfl
  rw [World.grantAt_set rfl (by rw [hs, Array.size_push]; omega), World.grantAt_push hs]
  split
  · next hp => rw [hp, World.grantAt_fresh]; rfl
  · rfl

/-- A handle that has just been shared can be released. -/
theorem destroy_shared {found : Nat × ObjectCell} {made : Handle}
    (hf : Object.Found w session h found) (hp : made.pointer = .cell w.cells.size)
    (ht : made.tag = h.tag) :
    Object.destroy session made (w.share found.2) =
      (.ok (), Object.release (w.share found.2) w.cells.size found.2) := by
  have ho : (w.share found.2).cells[w.cells.size]? = some (.object found.2) := by
    simp [World.share]
  have hmade : Object.Found (w.share found.2) session made (w.cells.size, found.2) :=
    ⟨hp, ho, hf.session, ht ▸ hf.tag⟩
  exact hmade.destroy_eq

theorem store_atomic (w : World) (session : SessionId) (result : Handle) (slots : List Handle) :
    (store session result slots).Atomic w (w.Honest result) fun made w' =>
      w.Change w' (.ofFirst made (.shared · result)) ∧ w.ReadAs result .object ∧
        made.length = slots.length := by
  unfold store share
  refine Act.Atomic.andThen (Object.duplicate_shares w session result none dataBit) ?_
  rintro made w' ⟨found, hf, rfl, hp, ht⟩
  cases slots with
  | nil =>
    refine Act.ends_of_eq_ok (Act.bind_of_ok (destroy_shared hf hp ht)) ?_
    exact ⟨change_passed hf, hf.readAs, rfl⟩
  | cons slot slots =>
    exact ⟨.shared hf.grant (.inr ht) (Object.gains_share hf hp) rfl, hf.readAs,
      congrArg (· + 1) (List.length_map _)⟩

end Carrier

/-! ### The steps of a product -/

namespace Product

theorem operate_atomic (w : World) (p : Product) (session : SessionId) (loaded : Handle)
    (selections : List Selection) :
    (p.operate session loaded selections).Atomic w (w.Honest loaded) fun h w' =>
      (∃ value, (Instance.product p).operated (w.value? loaded) selections = some value ∧
        w.Change w' (.created h session value)) ∧ w.ReadAs loaded .object := by
  unfold operate
  refine Act.Atomic.bind_ofExcept fun ⟨left, right⟩ hs => ?_
  refine Act.Atomic.bind (Object.retrieve_atomic w session loaded loadedBit .matrices)
    fun components ⟨hr, hv⟩ => ?_
  refine Act.Atomic.bind_ofExcept fun results hres => ?_
  refine (Object.create_atomic w session dataSize operatedBit _ _).mono id fun h w' hc => ?_
  refine ⟨⟨_, ?_, hc⟩, hr⟩
  simp only [Instance.operated, hv, hs, hres, Except.toOption, Option.bind_eq_bind,
    Option.bind_some]
  rfl

theorem store_atomic (w : World) (session : SessionId) (result : Handle) (slots : List Handle) :
    (store session result slots).Atomic w (w.Honest result) fun made w' =>
      w.Change w' (.ofFirst made (.shared · result)) ∧
        (slots ≠ [] → w.ReadAs result .object) ∧ made.length = slots.length := by
  cases slots with
  | nil => exact ⟨.refl w, fun hne => absurd rfl hne, rfl⟩
  | cons slot slots =>
    refine Act.Atomic.andThen (Object.duplicate_atomic w session result _ operatedBit) ?_
    rintro made w' ⟨hc, hr⟩
    exact ⟨hc, fun _ => hr, congrArg (· + 1) (List.length_map _)⟩

end Product

/-! ### The steps of any benchmark -/

namespace Benchmark

variable {w : World} {b : Benchmark}

theorem encode_atomic (w : World) (b : Benchmark) (packs : List Pack) (honest : Prop) :
    (b.encode packs).Atomic w honest fun made w' =>
      w.Change w' ((Job.encode packs).event w b [made]) := by
  obtain ⟨session, inst⟩ := b
  cases inst with
  | product p =>
    refine Act.Atomic.bind_ofExcept fun components hc => ?_
    have he : (Instance.product p).encoded packs = some ⟨.matrices, components⟩ := by
      rw [Instance.encoded, hc]
      rfl
    refine (Object.create_atomic w session _ _ _ _).mono id fun made w' hc => ?_
    rw [Job.event, he]
    exact hc
  | carrier config => exact Object.create_atomic w session _ _ _ _

theorem decode_atomic (w : World) (b : Benchmark) (encoded : Handle) (packs : List Pack) :
    (b.decode encoded packs).Atomic w (w.Honest encoded) fun _ w' =>
      w' = w ∧ w.ReadAs encoded .object := by
  obtain ⟨session, inst⟩ := b
  cases inst with
  | product p =>
    exact Act.Atomic.bind (Object.retrieve_atomic w session encoded _ _) fun _ hv =>
      Act.atomic_pure ⟨rfl, hv.1⟩
  | carrier config =>
    exact Act.Atomic.bind (Object.retrieve_atomic w session encoded _ _) fun _ hv =>
      Act.atomic_pure ⟨rfl, hv.1⟩

theorem encrypt_atomic (w : World) (b : Benchmark) (encoded : Handle) :
    (b.encrypt encoded).Atomic w (w.Honest encoded) fun made w' =>
      w.Change w' (.shared made encoded) ∧ w.ReadAs encoded .object := by
  obtain ⟨session, inst⟩ := b
  cases inst with
  | product p =>
    exact Object.duplicate_atomic w session encoded (some Product.encryptedBit) Product.encodedBit
  | carrier config => exact Object.duplicate_atomic w session encoded none Carrier.dataBit

theorem decrypt_atomic (w : World) (b : Benchmark) (encrypted : Handle) :
    (b.decrypt encrypted).Atomic w (w.Honest encrypted) fun made w' =>
      w.Change w' (.shared made encrypted) ∧ w.ReadAs encrypted .object := by
  obtain ⟨session, inst⟩ := b
  cases inst with
  | product p =>
    exact Object.duplicate_atomic w session encrypted
      (some (Product.decryptedBit ||| Product.plainBit)) Product.encryptedBit
  | carrier config => exact Object.duplicate_atomic w session encrypted none Carrier.dataBit

/-- Loading shares the first handle, whether there may be others or not. -/
theorem load_atomic (w : World) (b : Benchmark) (handles : List Handle) :
    (b.load handles).Atomic w (∀ h ∈ handles, w.Honest h) fun made w' =>
      w.Change w' ((Job.load handles).event w b [made]) ∧
        ∀ h ∈ handles.take 1, w.ReadAs h .object := by
  obtain ⟨session, inst⟩ := b
  have first : ∀ (source : Handle) (rest : List Handle) (bits : Option Tag) (required : Tag),
      (Object.duplicate session source bits required).Atomic w (∀ h ∈ source :: rest, w.Honest h)
        fun made w' => w.Change w' (.shared made source) ∧
          ∀ h ∈ [source], w.ReadAs h .object := by
    intro source rest bits required
    refine (Object.duplicate_atomic w session source bits required).mono
      (fun hh => hh source List.mem_cons_self) fun made w' ⟨hc, hr⟩ => ⟨hc, ?_⟩
    simpa using hr
  cases inst with
  | product p =>
    match handles with
    | [] => exact Act.atomic_refuse
    | [source] => exact first source [] (some Product.loadedBit) Product.encryptedBit
    | _ :: _ :: _ => exact Act.atomic_refuse
  | carrier config =>
    match handles with
    | [] => exact Act.atomic_refuse
    | source :: rest => exact first source rest none Carrier.dataBit

theorem store_atomic (w : World) (b : Benchmark) (result : Handle) (slots : List Handle) :
    (b.store result slots).Atomic w (w.Honest result) fun made w' =>
      w.Change w' (.ofFirst made (.shared · result)) ∧
        (∀ h ∈ (Job.store result slots).asks b.inst, w.ReadAs h .object) ∧
          made.length = slots.length := by
  obtain ⟨session, inst⟩ := b
  cases inst with
  | product p =>
    refine (Product.store_atomic w session result slots).mono id
      fun made w' ⟨hc, hr, hl⟩ => ⟨hc, ?_, hl⟩
    cases slots with
    | nil => simp [Job.asks]
    | cons slot slots => simpa [Job.asks] using hr
  | carrier config =>
    refine (Carrier.store_atomic w session result slots).mono id
      fun made w' ⟨hc, hr, hl⟩ => ⟨hc, ?_, hl⟩
    simpa [Job.asks] using hr

theorem operate_atomic (w : World) (b : Benchmark) (loaded : Handle)
    (selections : List Selection) :
    (b.operate loaded selections).Atomic w (w.Honest loaded) fun made w' =>
      w.Change w' ((Job.operate loaded selections).event w b [made]) ∧
        w.ReadAs loaded .object := by
  obtain ⟨session, inst⟩ := b
  cases inst with
  | product p =>
    refine (Product.operate_atomic w p session loaded selections).mono id ?_
    rintro made w' ⟨⟨value, hv, hc⟩, hr⟩
    rw [Job.event, hv]
    exact ⟨hc, hr⟩
  | carrier config =>
    show (Carrier.operate config session loaded).Atomic w _ _
    unfold Carrier.operate
    split
    · exact ⟨rfl, fun _ => trivial⟩
    · split
      · exact Act.atomic_refuse
      · exact Object.duplicate_atomic w session loaded _ _

/-- A job of a benchmark is all or nothing, does what its event says, and succeeds only on handles
of objects. -/
theorem carryOut_atomic {h : Handle} {found : Nat × Benchmark} (hf : Found w h found) (job : Job) :
    (found.2.carryOut found.1 job).Atomic w (∀ x ∈ job.handles, w.Honest x) fun made w' =>
      w.Change w' (job.event w found.2 made) ∧
        ∀ x ∈ job.asks found.2.inst, w.ReadAs x .object := by
  obtain ⟨address, b⟩ := found
  cases job with
  | concretize concrete =>
    refine Act.Atomic.andThen (concretize_atomic hf concrete _) fun _ w' hc => ?_
    exact ⟨hc, by simp [Job.asks]⟩
  | encode packs =>
    refine Act.Atomic.andThen (encode_atomic w b packs _) fun made w' hc => ?_
    exact ⟨hc, by simp [Job.asks]⟩
  | decode encoded packs =>
    simp only [Job.handles, Job.asks, List.forall_mem_singleton]
    refine Act.Atomic.andThen (decode_atomic w b encoded packs) ?_
    rintro _ w' ⟨rfl, hr⟩
    exact ⟨.refl w', hr⟩
  | encrypt encoded =>
    simp only [Job.handles, Job.asks, List.forall_mem_singleton]
    exact Act.Atomic.andThen (encrypt_atomic w b encoded) fun _ _ hc => hc
  | decrypt encrypted =>
    simp only [Job.handles, Job.asks, List.forall_mem_singleton]
    exact Act.Atomic.andThen (decrypt_atomic w b encrypted) fun _ _ hc => hc
  | load handles =>
    exact Act.Atomic.andThen (load_atomic w b handles) fun _ _ hc => hc
  | store result slots =>
    simp only [Job.handles, List.forall_mem_singleton]
    exact (store_atomic w b result slots).mono id fun _ _ ⟨hc, hr, _⟩ => ⟨hc, hr⟩
  | operate loaded selections =>
    simp only [Job.handles, Job.asks, List.forall_mem_singleton]
    exact Act.Atomic.andThen (operate_atomic w b loaded selections) fun _ _ hc => hc

end Benchmark

end HandleBench
