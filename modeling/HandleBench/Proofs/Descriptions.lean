import HandleBench.Proofs.Layers

/-!
# Descriptions are whole

A workload gets its default sets one by one, and a set whose size is not that of the first is not
taken. So the size of the first set is that of every set, and three ways to copy a description are
ways to the same: through memory that the library measures itself, through the slots of a host that
is linked against it, and through those of any other host, by an exported call. A slot is filled
with the whole of its set or, where it is too short for it, refused.
-/

namespace HandleBench

open Call (announced putAll)

/-! ### Default sets that are offered -/

namespace Description

variable {d : Description}

/-- The workload after it was offered a default set, which it may not take. -/
def offer (d : Description) (set : List Param) : Description :=
  (d.addDefaultSet set).toOption.getD d

/-- The workload after it was offered default sets, one after the other. -/
def offerAll (d : Description) (sets : List (List Param)) : Description := sets.foldl offer d

theorem descriptor_offer (set : List Param) : (d.offer set).descriptor = d.descriptor := by
  obtain ⟨descriptor, sets, backend, uniform⟩ := d
  cases sets with
  | nil => rfl
  | cons first sets =>
    by_cases hl : set.length = first.length
    · simp [offer, addDefaultSet, hl, Except.toOption]
    · simp [offer, addDefaultSet, hl, Except.toOption]

theorem descriptor_offerAll (sets : List (List Param)) :
    (d.offerAll sets).descriptor = d.descriptor := by
  induction sets generalizing d with
  | nil => rfl
  | cons set sets ih => exact (ih (d := d.offer set)).trans (descriptor_offer set)

/-- A workload that has a default set takes those of the same size. -/
theorem defaultSets_offer {first : List Param} {sets : List (List Param)}
    (hd : d.defaultSets = first :: sets) (set : List Param) :
    (d.offer set).defaultSets =
      d.defaultSets ++ [set].filter fun set => set.length = first.length := by
  obtain ⟨descriptor, defaultSets, backend, uniform⟩ := d
  obtain rfl : defaultSets = first :: sets := hd
  by_cases hl : set.length = first.length
  · simp [offer, addDefaultSet, hl, Except.toOption]
  · simp [offer, addDefaultSet, hl, Except.toOption]

theorem defaultSets_offerAll {first : List Param} {kept : List (List Param)}
    (hd : d.defaultSets = first :: kept) (sets : List (List Param)) :
    (d.offerAll sets).defaultSets =
      d.defaultSets ++ sets.filter fun set => set.length = first.length := by
  induction sets generalizing d kept with
  | nil => exact (List.append_nil _).symm
  | cons set sets ih =>
    have hset := defaultSets_offer hd set
    have hfirst : ∃ kept', (d.offer set).defaultSets = first :: kept' := by
      rw [hset, hd]
      exact ⟨_, rfl⟩
    obtain ⟨kept', hkept⟩ := hfirst
    show ((d.offer set).offerAll sets).defaultSets = _
    rw [ih hkept, hset, List.append_assoc, ← List.filter_append]
    rfl

end Description

/-- A workload as it is put together: the fixed part of it and the default sets that it is offered,
one after the other. -/
structure Offer where
  /-- What it measures. -/
  descriptor : Descriptor
  /-- The backend that runs it. -/
  backend : Backend
  /-- The default sets. -/
  sets : List (List Param)

namespace Offer

/-- The workload that comes of it. -/
def description (o : Offer) : Description :=
  (Description.bare o.descriptor o.backend).offerAll o.sets

theorem descriptor_description (o : Offer) : o.description.descriptor = o.descriptor :=
  Description.descriptor_offerAll o.sets

/-- Of the sets those of the size of the first are taken. -/
theorem defaultSets_description (o : Offer) :
    o.description.defaultSets = o.sets.filter fun set => set.length = arityOf o.sets := by
  obtain ⟨descriptor, backend, sets⟩ := o
  cases sets with
  | nil => rfl
  | cons first sets =>
    have hfirst : ((Description.bare descriptor backend).offer first).defaultSets = [first] := rfl
    show (((Description.bare descriptor backend).offer first).offerAll sets).defaultSets = _
    rw [Description.defaultSets_offerAll hfirst, hfirst,
      List.filter_cons_of_pos (by simp [arityOf])]
    rfl

/-- The size that is reported is that of the first set that was offered. -/
theorem arity_description (o : Offer) : o.description.arity = arityOf o.sets := by
  rw [Description.arity, defaultSets_description]
  obtain ⟨descriptor, backend, sets⟩ := o
  cases sets with
  | nil => rfl
  | cons first sets => simp [arityOf]

end Offer

/-! ### Filling slots -/

/-- Slot for slot the sets have been put into slots, and a slot without a set is as before. -/
def Filled {α : Type} (put : α → List Param → α) (sets : List (List Param))
    (before after : List α) : Prop :=
  ∀ j : Nat, after[j]? = before[j]?.map fun slot => (sets[j]?.map (put slot)).getD slot

/-- A slot of a host with a set at the front. -/
def Engine.putSet (slot set : List Param) : List Param := Engine.putFront set slot

namespace Engine

variable {e : Engine} {arity : Nat} {sets : List (List Param)}

/-- Sets of one size go into slots up to the first slot that is too short. -/
theorem fillSlots_cases (hu : ∀ set ∈ sets, set.length = arity) (index : Nat)
    (slots : List (List Param)) :
    ((∀ slot ∈ slots.take sets.length, arity ≤ slot.length) ∧
        fillSlots index slots sets = (.ok (), overwrite putSet slots sets)) ∨
      ∃ (j : Nat) (slot : List Param), j < sets.length ∧ slots[j]? = some slot ∧
        slot.length < arity ∧ fillSlots index slots sets =
          (.error (.slotTooShort (index + j)), overwrite putSet slots (sets.take j)) := by
  induction slots generalizing sets index with
  | nil => exact .inl ⟨by simp, by cases sets <;> rfl⟩
  | cons slot slots ih =>
    cases sets with
    | nil => exact .inl ⟨by simp, rfl⟩
    | cons set sets =>
      obtain ⟨hset, hsets⟩ := List.forall_mem_cons.1 hu
      by_cases hlt : slot.length < arity
      · exact .inr ⟨0, slot, by simp, rfl, hlt, Call.fillSlots_short (by omega) slots sets⟩
      · have hfits : fillSlots index (slot :: slots) (set :: sets) =
            ((fillSlots (index + 1) slots sets).1,
              putFront set slot :: (fillSlots (index + 1) slots sets).2) :=
          Call.fillSlots_fits (by omega) slots sets
        -- the first slot that is too short keeps its place when one that fits is put before it
        rcases ih hsets (index + 1) with ⟨hall, hfilled⟩ | ⟨j, short, hj, hs, hshort, hfilled⟩
        · refine .inl ⟨?_, ?_⟩
          · rw [List.length_cons, List.take_succ_cons]
            exact List.forall_mem_cons.2 ⟨Nat.le_of_not_lt hlt, hall⟩
          · rw [hfits, hfilled]
            rfl
        · refine .inr ⟨j + 1, short, Nat.succ_lt_succ hj, hs, hshort, ?_⟩
          rw [hfits, hfilled, Nat.add_assoc, Nat.add_comm 1 j]
          rfl

/-- Slots of the very size of the sets hold the sets afterwards. -/
theorem overwrite_putSet_replicate (hu : ∀ set ∈ sets, set.length = arity) (blank : Param) :
    overwrite putSet (List.replicate sets.length (List.replicate arity blank)) sets = sets := by
  induction sets with
  | nil => rfl
  | cons set sets ih =>
    obtain ⟨hset, hsets⟩ := List.forall_mem_cons.1 hu
    rw [List.length_cons, List.replicate_succ, overwrite, ih hsets, putSet, putFront, hset,
      List.drop_of_length_le (Nat.le_of_eq List.length_replicate), List.append_nil]

end Engine

/-- A slot for one of the workload's sets is too short for it. -/
def Description.Lacks (d : Description) (slots : List (List Param)) : Prop :=
  ∃ slot ∈ slots.take d.defaultSets.length, slot.length < d.arity

/-- Filling goes through if no slot is too short, and is refused at the first that is. -/
theorem Description.filled_or_lacks (d : Description) (slots : List (List Param)) :
    (¬ d.Lacks slots ∧ Engine.fillSlots 0 slots d.defaultSets =
        (.ok (), overwrite Engine.putSet slots d.defaultSets)) ∨
      d.Lacks slots ∧ ∃ j, Engine.fillSlots 0 slots d.defaultSets =
        (.error (.slotTooShort j), overwrite Engine.putSet slots (d.defaultSets.take j)) := by
  rcases Engine.fillSlots_cases d.uniform 0 slots with
    ⟨hall, hfilled⟩ | ⟨j, slot, hj, hslot, hshort, hfilled⟩
  · refine .inl ⟨?_, hfilled⟩
    rintro ⟨slot, hm, hlt⟩
    exact absurd (hall slot hm) (Nat.not_le_of_lt hlt)
  · rw [Nat.zero_add] at hfilled
    refine .inr ⟨⟨slot, ?_, hshort⟩, j, hfilled⟩
    refine List.mem_of_getElem? (i := j) ?_
    rw [List.getElem?_take, if_pos hj, hslot]

/-- To put into the slots of a host what the filled memory holds comes to the same as to put into
them the sets that there are slots for. -/
theorem overwrite_filled {sets : List (List Param)} {slots : HostArray (HostArray Param)}
    (hp : ∀ slot ∈ announced slots, slot.Present)
    (hfit : ∀ (j : Nat) slot set, (announced slots)[j]? = some slot → sets[j]? = some set →
      set.length ≤ slot.count.toNat) :
    overwrite putAll slots.behind (overwrite Engine.putSet ((announced slots).map announced) sets) =
      overwrite putAll slots.behind (sets.take (announced slots).length) := by
  refine List.ext_getElem? fun j => ?_
  rw [getElem?_overwrite, getElem?_overwrite, getElem?_overwrite, List.getElem?_map,
    List.getElem?_take]
  by_cases hj : j < (announced slots).length
  · have hslot : (announced slots)[j]? = some (announced slots)[j] := List.getElem?_eq_getElem hj
    generalize (announced slots)[j] = slot at hslot
    rw [← HostArray.getElem?_announced_of_lt hj, hslot, if_pos hj]
    cases hset : sets[j]? with
    | none => exact congrArg some (HostArray.putAll_announced slot)
    | some set =>
      have hput : putAll slot (Engine.putFront set []) =
          putAll slot (Engine.putFront set (announced slot)) :=
        HostArray.putAll_putFront (hp slot (List.mem_of_getElem? hslot))
          (hfit j slot set hslot hset) (Nat.zero_le set.length)
      have hbare : Engine.putFront set [] = set := by simp [Engine.putFront]
      rw [hbare] at hput
      exact congrArg some hput.symm
  · rw [if_neg hj, List.getElem?_eq_none (Nat.le_of_not_lt hj)]
    rfl

/-- So the slots take the sets, each slot its own. -/
theorem takes_filled {sets : List (List Param)} {slots : HostArray (HostArray Param)}
    (hp : ∀ slot ∈ announced slots, slot.Present)
    (hfit : ∀ (j : Nat) slot set, (announced slots)[j]? = some slot → sets[j]? = some set →
      set.length ≤ slot.count.toNat) :
    slots.Takes (HostArray.Takes HostArray.Replaced) (sets.take (announced slots).length)
      (slots.change (overwrite putAll ·
        (overwrite Engine.putSet ((announced slots).map announced) sets))) := by
  have hsame : slots.change (overwrite putAll ·
        (overwrite Engine.putSet ((announced slots).map announced) sets)) =
      slots.change (overwrite putAll · (sets.take (announced slots).length)) :=
    HostArray.change_congr (overwrite_filled hp hfit)
  rw [hsame]
  refine HostArray.takes_overwrite (List.length_take_le _ _) fun j slot set hslot hset => ?_
  have hj : j < (announced slots).length := (List.getElem?_eq_some_iff.1 hslot).1
  rw [List.getElem?_take, if_pos hj] at hset
  apply HostArray.takes_putAll
  rw [HostArray.length_announced (hp slot (List.mem_of_getElem? hslot))]
  exact hfit j slot set hslot hset

/-! ### Catalog entries -/

namespace Engine

variable {e : Engine} {d : Description} {i : UInt64}

theorem find_descriptor_eq (e : Engine) (i : UInt64) :
    e.find (.descriptor i.toNat) = match e.catalog[i.toNat]? with
      | some description => .ok description
      | none => .error .descriptorNotMatched := by
  have hp : (Handle.descriptor i.toNat).pointer.word? = some i :=
    congrArg some UInt64.ofNat_toNat
  have ht : (!Tag.descriptor.hasClass .descriptor ||
      Tag.descriptor.hasClass .benchmark) = false := by
    decide
  have htag : (Handle.descriptor i.toNat).tag = .descriptor := rfl
  cases hd : e.catalog[i.toNat]? <;>
    simp only [find, htag, ht, hp, Option.bind_some, hd, Bool.false_eq_true, if_false]

theorem find_descriptor (hd : e.catalog[i.toNat]? = some d) :
    e.find (.descriptor i.toNat) = .ok d := by
  rw [find_descriptor_eq, hd]

/-- An index below the size of the catalog is described with all that the workload holds. -/
theorem describeAt_eq (hd : e.catalog[i.toNat]? = some d) :
    e.describeAt i.toNat = .ok (.descriptor i.toNat, d.descriptor, d.defaultSets) := by
  have hlt : i.toNat < e.catalog.length := (List.getElem?_eq_some_iff.1 hd).1
  have hentry : e.entries[i.toNat]? = some (.descriptor i.toNat) := by
    rw [entries, List.getElem?_map, List.getElem?_range hlt]
    rfl
  have hfits : ¬ d.Lacks (List.replicate d.defaultSets.length
      (List.replicate d.arity (Param.ofUInt64 "" 0))) := by
    rintro ⟨slot, hm, hshort⟩
    rw [List.eq_of_mem_replicate (List.mem_of_mem_take hm), List.length_replicate] at hshort
    exact absurd hshort (Nat.lt_irrefl d.arity)
  rcases d.filled_or_lacks (List.replicate d.defaultSets.length
      (List.replicate d.arity (Param.ofUInt64 "" 0))) with ⟨-, hfilled⟩ | ⟨hlacks, -⟩
  · have hu : ∀ set ∈ d.defaultSets, set.length = d.arity := d.uniform
    rw [overwrite_putSet_replicate hu] at hfilled
    have hdescribed : e.describe (.descriptor i.toNat) ⟨.plain, List.replicate d.defaultSets.length
        (List.replicate d.arity (Param.ofUInt64 "" 0))⟩ =
        (.ok (), ⟨d.descriptor, d.defaultSets⟩) := by
      rw [describe_of_find (find_descriptor hd), hfilled]
    simp only [describeAt, hentry, arity_eq, setCount_eq, find_descriptor hd, Except.map, bind,
      Except.bind, hdescribed]
    rfl
  · exact absurd hlacks hfits

/-- No other index is described. -/
theorem describeAt_eq_error (hi : e.catalog.length ≤ i.toNat) :
    e.describeAt i.toNat = .error (.benchmarkIndex i.toNat e.catalog.length) := by
  have hentry : e.entries[i.toNat]? = none := by
    refine List.getElem?_eq_none ?_
    rwa [entries, List.length_map, List.length_range]
  rw [describeAt, hentry]

/-- What describing the workload at an index of the catalog comes to, all three ways. -/
structure DescribesEntry (e : Engine) (i : UInt64) (d : Description) : Prop where
  /-- The size of its default sets is told. -/
  arity : e.arity (.descriptor i.toNat) = .ok d.arity
  /-- So is their count. -/
  count : e.setCount (.descriptor i.toNat) = .ok d.defaultSets.length
  /-- All of it is copied into memory of the right size. -/
  whole : e.describeAt i.toNat = .ok (.descriptor i.toNat, d.descriptor, d.defaultSets)
  /-- If no slot lacks room, the slots get their sets. -/
  fits : ∀ memory, ¬ d.Lacks memory.slots →
    ∃ after, e.describe (.descriptor i.toNat) memory = (.ok (), ⟨d.descriptor, after⟩) ∧
      Filled putSet d.defaultSets memory.slots after
  /-- If one does, describing fails, with the slots before it filled and no set cut off. -/
  lacks : ∀ memory, d.Lacks memory.slots →
    ∃ failure j after, e.describe (.descriptor i.toNat) memory =
        (.error failure, ⟨d.descriptor, after⟩) ∧ failure.code = .critical ∧
      Filled putSet (d.defaultSets.take j) memory.slots after
  /-- A call gives the host the descriptor and the sets that it has announced slots for, each at the
  front of its slot, and touches nothing else. -/
  call_fits : ∀ w x a raw slots, Found w x (a, e) →
    (∀ slot ∈ announced slots, slot.Present) → ¬ d.Lacks ((announced slots).map announced) →
    ∃ filled, (Call.describe x (.descriptor i.toNat) (some raw) slots).perform w =
        (.ok ⟨.code .success,
          .describe x (.descriptor i.toNat) (some d.descriptor.raw) filled⟩, w) ∧
      slots.Takes (HostArray.Takes HostArray.Replaced)
        (d.defaultSets.take (announced slots).length) filled
  /-- If a slot lacks room, the call fails and leaves the memory of the host as it is. -/
  call_lacks : ∀ w x a raw slots, Found w x (a, e) →
    (∀ slot ∈ announced slots, slot.Present) → d.Lacks ((announced slots).map announced) →
    ∃ failure, failure.code = .critical ∧
      (Call.describe x (.descriptor i.toNat) (some raw) slots).perform w =
        (.ok ⟨.code .critical, .describe x (.descriptor i.toNat) (some raw) slots⟩,
          w.record e.session failure)

theorem describe_fits (hd : e.catalog[i.toNat]? = some d) (memory : Outline)
    (hfits : ¬ d.Lacks memory.slots) :
    e.describe (.descriptor i.toNat) memory =
      (.ok (), ⟨d.descriptor, overwrite putSet memory.slots d.defaultSets⟩) := by
  rcases d.filled_or_lacks memory.slots with ⟨-, hfilled⟩ | ⟨hlacks, -⟩
  · rw [describe_of_find (find_descriptor hd), hfilled]
  · exact absurd hlacks hfits

theorem describe_lacks (hd : e.catalog[i.toNat]? = some d) (memory : Outline)
    (hlacks : d.Lacks memory.slots) :
    ∃ j, e.describe (.descriptor i.toNat) memory = (.error (.slotTooShort j),
      ⟨d.descriptor, overwrite putSet memory.slots (d.defaultSets.take j)⟩) := by
  rcases d.filled_or_lacks memory.slots with ⟨hfits, -⟩ | ⟨-, j, hfilled⟩
  · exact absurd hlacks hfits
  · exact ⟨j, by rw [describe_of_find (find_descriptor hd), hfilled]⟩

section Calls

variable {w : World} {x : Handle} {a : Nat} {slots : HostArray (HostArray Param)}

/-- A call that describes an entry delivers what the method of the engine leaves in the slots. -/
theorem describe_delivered (hf : Found w x (a, e)) (hp : ∀ slot ∈ announced slots, slot.Present)
    (entry : Handle) (raw : RawDescriptor) :
    (Call.describe x entry (some raw) slots).body
        ⟨w, none, .describe x entry (some raw) slots⟩ =
      Frame.deliver (.describe x entry (some raw) slots)
        (match e.describe entry ⟨.plain, (announced slots).map announced⟩ with
        | (.error failure, _) => Act.refuse failure
        | (.ok (), outline) => return .outline outline)
        ⟨w, some e.session, .describe x entry (some raw) slots⟩ := by
  obtain ⟨method, hv, hbody⟩ := Call.body_describe hf hp
  obtain rfl := Option.some.inj hv
  exact hbody

/-- Slots that lack no room have room for the sets that they are announced for. -/
theorem room_of_fits (hp : ∀ slot ∈ announced slots, slot.Present)
    (hfits : ¬ d.Lacks ((announced slots).map announced)) {j : Nat} {slot : HostArray Param}
    {set : List Param} (hslot : (announced slots)[j]? = some slot)
    (hset : d.defaultSets[j]? = some set) : set.length ≤ slot.count.toNat := by
  have harity : set.length = d.arity := d.uniform set (List.mem_of_getElem? hset)
  have hj : j < d.defaultSets.length := (List.getElem?_eq_some_iff.1 hset).1
  rw [harity]
  refine Nat.le_of_not_lt fun hlt => hfits ⟨announced slot, ?_, ?_⟩
  · refine List.mem_of_getElem? (i := j) ?_
    rw [List.getElem?_take, if_pos hj, List.getElem?_map, hslot]
    rfl
  · rwa [HostArray.length_announced (hp slot (List.mem_of_getElem? hslot))]

theorem perform_describe_fits (hd : e.catalog[i.toNat]? = some d) (hf : Found w x (a, e))
    (hp : ∀ slot ∈ announced slots, slot.Present)
    (hfits : ¬ d.Lacks ((announced slots).map announced)) (raw : RawDescriptor) :
    (Call.describe x (.descriptor i.toNat) (some raw) slots).perform w =
      (.ok ⟨.code .success, .describe x (.descriptor i.toNat) (some d.descriptor.raw)
        (slots.change (overwrite putAll ·
          (overwrite putSet ((announced slots).map announced) d.defaultSets)))⟩, w) := by
  have hbody := describe_delivered hf hp (.descriptor i.toNat) raw
  rw [describe_fits hd _ hfits] at hbody
  exact Call.perform_of_attempt (Call.attempt_of_body hbody)

theorem perform_describe_lacks (hd : e.catalog[i.toNat]? = some d) (hf : Found w x (a, e))
    (hp : ∀ slot ∈ announced slots, slot.Present)
    (hlacks : d.Lacks ((announced slots).map announced)) (raw : RawDescriptor) :
    ∃ j, (Call.describe x (.descriptor i.toNat) (some raw) slots).perform w =
      (.ok ⟨.code .critical, .describe x (.descriptor i.toNat) (some raw) slots⟩,
        w.record e.session (.slotTooShort j)) := by
  have hbody := describe_delivered hf hp (.descriptor i.toNat) raw
  obtain ⟨j, hdescribed⟩ := describe_lacks hd ⟨.plain, (announced slots).map announced⟩ hlacks
  rw [hdescribed] at hbody
  have hattempt : (Call.describe x (.descriptor i.toNat) (some raw) slots).attempt w =
      (.ok ⟨.error (.slotTooShort j), .describe x (.descriptor i.toNat) (some raw) slots⟩,
        w.record e.session (.slotTooShort j)) := by
    rw [Call.attempt, hbody]
    rfl
  exact ⟨j, Call.perform_of_attempt hattempt⟩

end Calls

theorem describesEntry (hd : e.catalog[i.toNat]? = some d) : e.DescribesEntry i d where
  arity := by
    rw [arity_eq, find_descriptor hd]
    rfl
  count := by
    rw [setCount_eq, find_descriptor hd]
    rfl
  whole := describeAt_eq hd
  fits memory hfits :=
    ⟨_, describe_fits hd memory hfits, getElem?_overwrite putSet memory.slots d.defaultSets⟩
  lacks memory hlacks := by
    obtain ⟨j, hdescribed⟩ := describe_lacks hd memory hlacks
    exact ⟨_, j, _, hdescribed, rfl, getElem?_overwrite putSet memory.slots _⟩
  call_fits w x a raw slots hf hp hfits :=
    ⟨_, perform_describe_fits hd hf hp hfits raw,
      takes_filled hp fun _ _ _ => room_of_fits hp hfits⟩
  call_lacks w x a raw slots hf hp hlacks := by
    obtain ⟨j, hperformed⟩ := perform_describe_lacks hd hf hp hlacks raw
    exact ⟨_, rfl, hperformed⟩

/-- How an engine describes a catalog of workloads that were put together from these offers. -/
structure DescribesCatalog (e : Engine) (offers : List Offer) : Prop where
  /-- A workload has taken the default sets of the size of the first, and that is the size that it
  reports. -/
  taken : ∀ o ∈ offers, o.description.descriptor = o.descriptor ∧
    o.description.defaultSets = o.sets.filter (fun set => set.length = arityOf o.sets) ∧
    o.description.arity = arityOf o.sets ∧
      ∀ set ∈ o.description.defaultSets, set.length = o.description.arity
  /-- Only an index below the size of the catalog is described. -/
  described : ∀ i : UInt64, (∃ found, e.describeAt i.toNat = .ok found) ↔ i.toNat < offers.length
  /-- Every such index is described as a whole, all three ways. -/
  entry : ∀ (i : UInt64) o, offers[i.toNat]? = some o → e.DescribesEntry i o.description

/-- **Descriptions are whole.** However the workloads of a catalog got their default sets, each is
described with its descriptor and all the sets that it has taken, and a slot that a set does not fit
into gets nothing of it. -/
theorem describesCatalog {offers : List Offer} (he : e.catalog = offers.map (·.description)) :
    e.DescribesCatalog offers where
  taken o _ := ⟨o.descriptor_description, o.defaultSets_description, o.arity_description,
    o.description.uniform⟩
  described i := by
    have hl : offers.length = e.catalog.length := by rw [he, List.length_map]
    rw [hl]
    constructor
    · rintro ⟨found, hfound⟩
      refine Nat.lt_of_not_le fun hle => ?_
      rw [describeAt_eq_error hle] at hfound
      cases hfound
    · intro hlt
      exact ⟨_, describeAt_eq (List.getElem?_eq_getElem hlt)⟩
  entry i o ho := by
    refine describesEntry ?_
    rw [he, List.getElem?_map, ho]
    rfl

/-- Two workloads, one without default sets and one that was offered three of them, of which the
second does not have the size of the first. -/
def offered : List Offer :=
  [⟨.plain, .matrixProduct, []⟩,
    ⟨.plain, .matrixProduct, [[.ofUInt64 "n" 2], [], [.ofUInt64 "n" 3]]⟩]

/-- An engine with these workloads. -/
def offering : Engine := ⟨0, .unset, offered.map (·.description), .empty, .empty⟩

/-- The second workload is described with the two sets of the same size, and a slot without room
gets neither of them. -/
theorem describesCatalog_offering : offering.catalog = offered.map (·.description) ∧
    offering.describeAt 1 =
      .ok (.descriptor 1, .plain, [[.ofUInt64 "n" 2], [.ofUInt64 "n" 3]]) ∧
    ∃ failure after, offering.describe (.descriptor 1) ⟨.plain, [[.ofUInt64 "m" 0], []]⟩ =
      (.error failure, ⟨.plain, after⟩) ∧ failure.code = .critical := by
  have hentry := (describesCatalog (e := offering) rfl).entry 1 _ rfl
  obtain ⟨failure, j, after, hdescribed, hcode, -⟩ :=
    hentry.lacks ⟨.plain, [[.ofUInt64 "m" 0], []]⟩ ⟨[], by decide, by decide⟩
  exact ⟨rfl, hentry.whole, failure, after, hdescribed, hcode⟩

end Engine

end HandleBench
