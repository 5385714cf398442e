import HandleBench.Proofs.Act
import HandleBench.Proofs.Samples

/-!
# Host memory as agreed

A host that announces elements has them there. Reading such memory never fails and gives what was
announced, and putting results into it depends on the room only. So the arrays that the default sets
of a catalog entry are copied through, cut to the size of a set, make no difference to the host.
-/

namespace HandleBench

open Call (announced putAll)

/-! ### Arrays and packs -/

/-- As many elements are there as announced. -/
def HostArray.Present {α : Type} (array : HostArray α) : Prop :=
  array.count.toNat ≤ (array.elements.getD []).length

instance {α : Type} (array : HostArray α) : Decidable array.Present :=
  inferInstanceAs (Decidable (_ ≤ _))

/-- The packs that are announced and there. -/
def HostPacks.contents (packs : HostPacks) : List Pack :=
  (announced packs).map fun pack =>
    ⟨pack.position, (announced pack.buffers).map HostBuffer.contents⟩

/-- All packs are there, and all their buffers. -/
structure HostPacks.Complete (memory : HostPacks) : Prop where
  /-- The packs are there. -/
  packs : HostArray.Present memory
  /-- So are the buffers of each. -/
  buffers : ∀ pack ∈ announced memory, pack.buffers.Present

/-- If a list of parameters is passed, they are there and of proper types. -/
structure ParamsProper (params : Option (HostArray Param)) : Prop where
  /-- They are there. -/
  present : ∀ array, params = some array → array.Present
  /-- Their types are proper. -/
  typed : ∀ array, params = some array → ∀ p ∈ announced array, ∃ type, p.type = .ok type

/-- If a list of parameters is passed, it can be read: an array that is needed is not null, and the
types of the parameters are proper. -/
structure ParamsLegible (params : Option (HostArray Param)) : Prop where
  /-- The array is there. -/
  there : ∀ array, params = some array → array.count ≠ 0 → array.elements.isSome
  /-- The types are proper. -/
  typed : ∀ array, params = some array → ∀ p ∈ announced array, ∃ type, p.type = .ok type

namespace HostArray

variable {α : Type} {array : HostArray α}

theorem length_announced (hp : array.Present) : (announced array).length = array.count.toNat := by
  rw [announced, List.length_take]
  exact Nat.min_eq_left hp

/-- Reading an array fails only for a null pointer to elements that are announced. -/
theorem read_of_there (ht : array.count ≠ 0 → array.elements.isSome) (refusal : Failure) :
    array.read refusal = .ok (announced array) := by
  obtain ⟨elements, count⟩ := array
  unfold HostArray.read
  split
  · next h0 =>
    simp only at h0
    simp [announced, h0]
  · next h0 =>
    obtain ⟨els, rfl⟩ := Option.isSome_iff_exists.1 (ht h0)
    rfl

theorem there_of_read {refusal : Failure} {read : List α} (hr : array.read refusal = .ok read)
    (h0 : array.count ≠ 0) : array.elements.isSome := by
  rw [HostArray.read, if_neg h0] at hr
  cases he : array.elements with
  | none =>
    rw [he] at hr
    cases hr
  | some els => rfl

theorem Present.there (hp : array.Present) (h0 : array.count ≠ 0) : array.elements.isSome := by
  obtain ⟨elements, count⟩ := array
  cases elements with
  | none =>
    have hle : count.toNat ≤ 0 := hp
    exact absurd (UInt64.toNat_inj.1 (Nat.le_zero.1 hle)) h0
  | some els => rfl

theorem read_of_present (hp : array.Present) (refusal : Failure) :
    array.read refusal = .ok (announced array) := read_of_there hp.there refusal

/-- Putting back what was announced changes nothing. -/
theorem putAll_announced (array : HostArray α) : putAll array (announced array) = array := by
  obtain ⟨elements, count⟩ := array
  cases elements with
  | none => rfl
  | some els =>
    have hl : els.drop (els.take count.toNat).length = els.drop count.toNat := by
      rw [List.length_take]
      rcases Nat.le_total count.toNat els.length with hle | hle
      · rw [Nat.min_eq_left hle]
      · rw [Nat.min_eq_right hle, List.drop_length, List.drop_of_length_le hle]
    simp only [putAll, HostArray.change, Option.map_some, Engine.putFront, announced,
      Option.getD_some, hl, List.take_append_drop]

/-- It makes no difference to the host whether results are put in front of what was announced, or of
anything else that takes as much room as the results. -/
theorem putAll_putFront {results blank : List α} (hp : array.Present)
    (hr : results.length ≤ array.count.toNat) (hb : blank.length ≤ results.length) :
    putAll array (Engine.putFront results blank) =
      putAll array (Engine.putFront results (announced array)) := by
  obtain ⟨elements, count⟩ := array
  cases elements with
  | none => rfl
  | some els =>
    have hle : count.toNat ≤ els.length := hp
    have hr : results.length ≤ count.toNat := hr
    have hfront : (results ++ (els.take count.toNat).drop results.length).length = count.toNat := by
      simp only [List.length_append, List.length_drop, List.length_take]
      omega
    have hrest : (els.take count.toNat).drop results.length ++ els.drop count.toNat =
        els.drop results.length := by
      rw [← List.drop_append_of_le_length (by rw [List.length_take]; omega), List.take_append_drop]
    simp only [putAll, HostArray.change, Option.map_some, Engine.putFront, announced,
      Option.getD_some, hfront]
    rw [List.drop_of_length_le hb, List.append_nil, List.append_assoc, hrest]

end HostArray

open HostArray (read_of_present length_announced)

/-- Reading a list goes well if reading each element does. -/
theorem Except.mapM_eq_ok {ε α β : Type} {f : α → Except ε β} {g : α → β} {xs : List α}
    (h : ∀ x ∈ xs, f x = .ok (g x)) : xs.mapM f = .ok (xs.map g) := by
  induction xs with
  | nil => rfl
  | cons x xs ih =>
    rw [List.mapM_cons, h x List.mem_cons_self, ih fun x' hx => h x' (List.mem_cons_of_mem x hx)]
    rfl

theorem HostPacks.read_of_complete {memory : HostPacks} (hc : memory.Complete) :
    memory.read = .ok memory.contents := by
  have hp : HostArray.read memory (.nullArray "p_data_packs" memory.count) =
      .ok (announced memory) := read_of_present hc.packs _
  rw [HostPacks.read, hp]
  refine Except.mapM_eq_ok fun pack hm => ?_
  rw [HostPack.read, read_of_present (hc.buffers pack hm)]
  rfl

namespace Call

variable {f : Frame}

theorem readParams_of_legible {params : Option (HostArray Param)} (hp : ParamsLegible params) :
    readParams params f = (.ok (params.map announced), f) := by
  cases params with
  | none => rfl
  | some array =>
    have hr : readArray array "params" f = (.ok (announced array), f) := by
      rw [readArray, HostArray.read_of_there (hp.there array rfl)]
      rfl
    obtain ⟨types, ht, -⟩ := Except.mapM_of_forall (hp.typed array rfl)
    rw [readParams, Act.bind_of_ok hr, ht]
    rfl

/-- Parameters that are read are legible. -/
theorem legible_of_readParams {params : Option (HostArray Param)} {read : Option (List Param)}
    {f' : Frame} (hr : readParams params f = (.ok read, f')) : ParamsLegible params := by
  cases params with
  | none => exact ⟨nofun, nofun⟩
  | some array =>
    rw [readParams, readArray] at hr
    cases ha : array.read (.nullArgument "params") with
    | error failure =>
      rw [ha] at hr
      cases hr
    | ok elements =>
      cases ht : elements.mapM (·.type) with
      | error failure =>
        rw [ha, Act.ofExcept, Act.bind_of_ok (Act.pure_apply _ _), ht] at hr
        cases hr
      | ok types =>
        have hthere : array.count ≠ 0 → array.elements.isSome := HostArray.there_of_read ha
        have hread : array.read (.nullArgument "params") = .ok (announced array) :=
          HostArray.read_of_there hthere _
        obtain rfl : elements = announced array := Except.ok.inj (ha.symm.trans hread)
        constructor
        case there =>
          rintro _ ⟨⟩
          exact hthere
        case typed =>
          rintro _ ⟨⟩
          exact Except.forall_of_mapM ht

/-- A list of proper parameters is read as it is. -/
theorem readParams_eq {params : Option (HostArray Param)} (hp : ParamsProper params) :
    readParams params f = (.ok (params.map announced), f) :=
  readParams_of_legible ⟨fun array ha => (hp.present array ha).there, hp.typed⟩

/-- The array that a default set is copied into before the host gets it. -/
def blank (arity : Nat) (host : HostArray Param) : List Param :=
  List.replicate (min host.count.toNat arity) (Param.ofUInt64 "" 0)

theorem scratch_eq {arity : Nat} {hosts : List (HostArray Param)}
    (hp : ∀ host ∈ hosts, host.Present) :
    scratch arity hosts f = (.ok (hosts.map (blank arity)), f) := by
  induction hosts with
  | nil => rfl
  | cons host hosts ih =>
    have hh : (do
        let size := min host.count.toNat arity
        if 0 < size then discard (require host.elements "params")
        return List.replicate size (Param.ofUInt64 "" 0) : Act Frame (List Param)) f =
        (.ok (blank arity host), f) := by
      dsimp only
      split
      · next hlt =>
        obtain ⟨elements, count⟩ := host
        cases elements with
        | none =>
          have hle : count.toNat ≤ 0 := hp _ List.mem_cons_self
          have hlt : 0 < min count.toNat arity := hlt
          omega
        | some els => rfl
      · rfl
    unfold scratch at ih ⊢
    rw [List.mapM_cons, Act.bind_of_ok hh,
      Act.bind_of_ok (ih fun host' hm => hp host' (List.mem_cons_of_mem host hm))]
    rfl

/-! ### Default sets -/

/-- Filling the host's arrays with what they were announced with leaves them as they are. -/
theorem overwrite_announced {α : Type} (hosts rest : List (HostArray α)) :
    overwrite putAll (hosts ++ rest) (hosts.map announced) = hosts ++ rest := by
  induction hosts with
  | nil => cases rest <;> rfl
  | cons host hosts ih =>
    show putAll host (announced host) :: overwrite putAll (hosts ++ rest) (hosts.map announced) = _
    rw [HostArray.putAll_announced, ih]
    rfl

theorem fillSlots_short {index : Nat} {slot set : List Param} (h : slot.length < set.length)
    (slots sets : List (List Param)) :
    Engine.fillSlots index (slot :: slots) (set :: sets) =
      (.error (.slotTooShort index), slot :: slots) := if_pos h

theorem fillSlots_fits {index : Nat} {slot set : List Param} (h : ¬ slot.length < set.length)
    (slots sets : List (List Param)) :
    Engine.fillSlots index (slot :: slots) (set :: sets) =
      ((Engine.fillSlots (index + 1) slots sets).1,
        Engine.putFront set slot :: (Engine.fillSlots (index + 1) slots sets).2) := if_neg h

/-- Filling arrays that are cut to the size of the default sets and copying them out comes to the
same as filling the host's own. -/
theorem fillSlots_blank {arity : Nat} {hosts : List (HostArray Param)} {sets : List (List Param)}
    (hp : ∀ host ∈ hosts, host.Present) (hu : ∀ set ∈ sets, set.length = arity)
    (rest : List (HostArray Param)) (index : Nat) :
    (Engine.fillSlots index ((hosts.take sets.length).map (blank arity)) sets).1 =
        (Engine.fillSlots index (hosts.map announced) sets).1 ∧
      ((Engine.fillSlots index (hosts.map announced) sets).1 = .ok () →
        overwrite putAll (hosts ++ rest)
            (Engine.fillSlots index ((hosts.take sets.length).map (blank arity)) sets).2 =
          overwrite putAll (hosts ++ rest)
            (Engine.fillSlots index (hosts.map announced) sets).2) := by
  induction hosts generalizing sets index with
  | nil =>
    rw [List.take_nil]
    exact ⟨rfl, fun _ => rfl⟩
  | cons host hosts ih =>
    cases sets with
    | nil =>
      refine ⟨rfl, fun _ => ?_⟩
      exact (overwrite_announced (host :: hosts) rest).symm
    | cons set sets =>
      have hset : set.length = arity := hu set List.mem_cons_self
      have hown : (announced host).length = host.count.toNat :=
        length_announced (hp host List.mem_cons_self)
      have hblank : (blank arity host).length = min host.count.toNat arity := List.length_replicate
      obtain ⟨houtcome, hfilled⟩ := ih (fun host' hm => hp host' (List.mem_cons_of_mem host hm))
        (fun set' hm => hu set' (List.mem_cons_of_mem set hm)) (index + 1)
      rw [List.length_cons, List.take_succ_cons, List.map_cons, List.map_cons]
      -- an array cut to the size of a set is too short for it exactly if the host's own is
      by_cases hlt : host.count.toNat < arity
      · rw [fillSlots_short (by omega), fillSlots_short (by omega)]
        exact ⟨rfl, fun hok => by cases hok⟩
      · rw [fillSlots_fits (by omega), fillSlots_fits (by omega)]
        refine ⟨houtcome, fun hok => ?_⟩
        have hfront : putAll host (Engine.putFront set (blank arity host)) =
            putAll host (Engine.putFront set (announced host)) :=
          HostArray.putAll_putFront (hp host List.mem_cons_self) (by omega) (by omega)
        exact List.cons_eq_cons.2 ⟨hfront, hfilled hok⟩

/-- So it is for the arrays that a host announces. -/
theorem fillSlots_scratch {arity : Nat} {slots : HostArray (HostArray Param)}
    {sets : List (List Param)} (hp : ∀ slot ∈ announced slots, slot.Present)
    (hu : ∀ set ∈ sets, set.length = arity) :
    (Engine.fillSlots 0 (((announced slots).take sets.length).map (blank arity)) sets).1 =
        (Engine.fillSlots 0 ((announced slots).map announced) sets).1 ∧
      ((Engine.fillSlots 0 ((announced slots).map announced) sets).1 = .ok () →
        slots.change (overwrite putAll ·
            (Engine.fillSlots 0 (((announced slots).take sets.length).map (blank arity)) sets).2) =
          slots.change (overwrite putAll ·
            (Engine.fillSlots 0 ((announced slots).map announced) sets).2)) := by
  obtain ⟨elements, count⟩ := slots
  cases elements with
  | none => exact ⟨(fillSlots_blank hp hu [] 0).1, fun _ => rfl⟩
  | some els =>
    obtain ⟨houtcome, hfilled⟩ := fillSlots_blank hp hu (els.drop count.toNat) 0
    have hels : announced ⟨some els, count⟩ ++ els.drop count.toNat = els :=
      List.take_append_drop count.toNat els
    rw [hels] at hfilled
    refine ⟨houtcome, fun hok => ?_⟩
    simp only [HostArray.change, Option.map_some, hfilled hok]

end Call

end HandleBench
