import HandleBench.Proofs.HostResults

/-!
# What a host receives

A call that goes to an engine has a method there, `Call.method`. The method is told what the host
memory announces and gives back results, and it knows nothing of that memory. What the host has in
its memory once the call has gone well is told by `Call.Receives`, place by place: the results where
the arguments have places for them, and what was there everywhere else. So the host reads from its
memory what the method has given back. The reply that is made of the results does that for every
call within the agreement on host memory, `Call.receives_reply`.
-/

namespace HandleBench

open Text (roomFor)

/-- What a method of an engine has for its caller. -/
inductive Results where
  /-- Nothing but that it went well. -/
  | nothing
  /-- A count. -/
  | count (n : Nat)
  /-- The size and the count of the default sets of a catalog entry. -/
  | sizes (arity sets : Nat)
  /-- A handle. -/
  | handle (made : Handle)
  /-- A handle for every slot. -/
  | handles (made : List Handle)
  /-- The memory that a catalog entry was copied into. -/
  | outline (outline : Engine.Outline)
  /-- A text. -/
  | text (content : String)
  /-- The packs that something was decoded into. -/
  | packs (packs : List Pack)

namespace Call

/-! ### Calls with a method of their own -/

/-- There is a method of engines for the call, no pointer to a result is null, and everything else
is as the agreement on host memory has it. -/
def Agreed : Call → Prop
  | destroy _ | schemeName .. | securityName .. => True
  | count _ slot | encrypt _ _ slot | decrypt _ _ slot => slot.isSome
  | subscribe _ slots | store _ _ slots => slots.Present
  | details _ _ arity sets => arity.isSome ∧ sets.isSome
  | describe _ _ descriptor slots =>
    descriptor.isSome ∧ slots.Present ∧ ∀ slot ∈ announced slots, slot.Present
  | create _ _ params slot => slot.isSome ∧ ParamsProper params
  | text _ _ params _ => ParamsProper params
  | concretize _ descriptor =>
    ∃ raw concrete, descriptor = some raw ∧ Descriptor.ofRaw raw = .ok concrete
  | encode _ packs slot => slot.isSome ∧ ∃ memory, packs = some memory ∧ memory.Complete
  | decode _ _ packs => ∃ memory, packs = some memory ∧ memory.Complete
  | load _ handles slot => slot.isSome ∧ handles.Present
  | operate _ _ selections slot => slot.isSome ∧ selections.Present
  | version .. | start .. | errorText .. | lastError .. | lastErrorText .. => False

/-- The method of an engine that there is for the call, with the arguments that the host memory
announces. -/
def method (e : Engine) : Call → Option (Act World Results)
  | destroy h => some do
    e.destroy h
    return .nothing
  | count _ (some _) => some (return .count e.catalog.length)
  | subscribe _ slots => some do
    let entries ← Act.ofExcept (e.subscribe (announced slots))
    return .handles entries
  | details _ entry (some _) (some _) => some do
    let arity ← Act.ofExcept (e.arity entry)
    let count ← Act.ofExcept (e.setCount entry)
    return .sizes arity count
  | describe _ entry (some _) slots => some
    (match e.describe entry ⟨.plain, (announced slots).map announced⟩ with
    | (.error failure, _) => Act.refuse failure
    | (.ok (), outline) => return .outline outline)
  | create _ entry params (some _) => some do
    let made ← e.create entry (params.map announced)
    return .handle made
  | text _ entry params _ => some do
    let content ← Act.ofExcept (e.text entry (params.map announced))
    return .text content
  | concretize h (some raw) =>
    (Descriptor.ofRaw raw).toOption.map fun concrete => do
      e.concretize h concrete
      return .nothing
  | encode h (some packs) (some _) => some do
    let made ← e.encode h packs.contents
    return .handle made
  | decode h encoded (some packs) => some do
    let after ← e.decode h encoded packs.contents
    return .packs after
  | encrypt h encoded (some _) => some do
    let made ← e.encrypt h encoded
    return .handle made
  | decrypt h encrypted (some _) => some do
    let made ← e.decrypt h encrypted
    return .handle made
  | load h handles (some _) => some do
    let made ← e.load h (announced handles)
    return .handle made
  | store h result slots => some do
    let stored ← e.store h result (announced slots)
    return .handles stored
  | operate h loaded selections (some _) => some do
    let made ← e.operate h loaded (announced selections)
    return .handle made
  | schemeName _ id _ => some do
    let name ← Act.ofExcept (e.schemeName id)
    return .text name
  | securityName _ id _ => some do
    let name ← Act.ofExcept (e.securityName id)
    return .text name
  | _ => none

/-- The host receives the results of a method with this answer and in this memory, which is
otherwise as it was when it made the call. -/
inductive Receives : Call → Results → Answer → Call → Prop where
  /-- Nothing, and its memory is as it was. -/
  | nothing (c : Call) : Receives c .nothing (.code .success) c
  /-- The count. -/
  | count {h : Handle} {slot : UInt64} {n : Nat} :
    Receives (count h (some slot)) (.count n) (.code .success) (count h (some (.ofNat n)))
  /-- A handle in every slot. -/
  | subscribe {h : Handle} {slots after : HostArray Handle} {entries : List Handle}
    (takes : slots.TakesAll HostArray.Replaced entries after)
    (reads : announced after = entries) :
    Receives (subscribe h slots) (.handles entries) (.code .success) (subscribe h after)
  /-- The size and the count. -/
  | details {h entry : Handle} {slot slot' : UInt64} {arity sets : Nat} :
    Receives (details h entry (some slot) (some slot')) (.sizes arity sets) (.code .success)
      (details h entry (some (.ofNat arity)) (some (.ofNat sets)))
  /-- The descriptor, which it reads back, and in every slot what the method has left there. -/
  | describe {h entry : Handle} {raw : RawDescriptor} {slots after : HostArray (HostArray Param)}
    {outline : Engine.Outline}
    (takes : slots.TakesAll (HostArray.TakesAll HostArray.Replaced) outline.slots after)
    (reads : (announced after).map announced = outline.slots)
    (names : Descriptor.ofRaw outline.descriptor.raw = .ok outline.descriptor) :
    Receives (describe h entry (some raw) slots) (.outline outline) (.code .success)
      (describe h entry (some outline.descriptor.raw) after)
  /-- The handle of the benchmark. -/
  | create {h entry : Handle} {params : Option (HostArray Param)} {slot made : Handle} :
    Receives (create h entry params (some slot)) (.handle made) (.code .success)
      (create h entry params (some made))
  /-- As much of the text as there is room for, and the room that it takes. -/
  | text {h entry : Handle} {params : Option (HostArray Param)} {buffer after : TextBuffer}
    {content : String} (takes : buffer.Takes (Text.Utf8.encode content) after) :
    Receives (text h entry params buffer) (.text content)
      (.size (.ofNat (roomFor (Text.Utf8.encode content)))) (text h entry params after)
  /-- The handle of what was encoded. -/
  | encode {h slot made : Handle} {packs : HostPacks} :
    Receives (encode h (some packs) (some slot)) (.handle made) (.code .success)
      (encode h (some packs) (some made))
  /-- The octets, which it reads back. -/
  | decode {h source : Handle} {packs after : HostPacks} {contents : List Pack}
    (takes : packs.TakesAll HostPack.Takes contents after) (complete : after.Complete)
    (reads : after.read = .ok contents) :
    Receives (decode h source (some packs)) (.packs contents) (.code .success)
      (decode h source (some after))
  /-- The handle of what was encrypted. -/
  | encrypt {h source slot made : Handle} :
    Receives (encrypt h source (some slot)) (.handle made) (.code .success)
      (encrypt h source (some made))
  /-- The handle of what was decrypted. -/
  | decrypt {h source slot made : Handle} :
    Receives (decrypt h source (some slot)) (.handle made) (.code .success)
      (decrypt h source (some made))
  /-- The handle of what was loaded. -/
  | load {h slot made : Handle} {sources : HostArray Handle} :
    Receives (load h sources (some slot)) (.handle made) (.code .success)
      (load h sources (some made))
  /-- A handle in every slot. -/
  | store {h result : Handle} {slots after : HostArray Handle} {stored : List Handle}
    (takes : slots.TakesAll HostArray.Replaced stored after)
    (reads : announced after = stored) :
    Receives (store h result slots) (.handles stored) (.code .success) (store h result after)
  /-- The handle of the result. -/
  | operate {h loaded slot made : Handle} {selections : HostArray Selection} :
    Receives (operate h loaded selections (some slot)) (.handle made) (.code .success)
      (operate h loaded selections (some made))
  /-- As much of the name as there is room for, and the room that it takes. -/
  | schemeName {h : Handle} {id : Int32} {buffer after : TextBuffer} {content : String}
    (takes : buffer.Takes (Text.Utf8.encode content) after) :
    Receives (schemeName h id buffer) (.text content)
      (.size (.ofNat (roomFor (Text.Utf8.encode content)))) (schemeName h id after)
  /-- So for security levels. -/
  | securityName {h : Handle} {id : Int32} {buffer after : TextBuffer} {content : String}
    (takes : buffer.Takes (Text.Utf8.encode content) after) :
    Receives (securityName h id buffer) (.text content)
      (.size (.ofNat (roomFor (Text.Utf8.encode content)))) (securityName h id after)

end Call

/-! ### Results that fill their places -/

namespace Engine

variable {e : Engine} {h : Handle}

/-- What an engine decodes has the shapes of what it is decoded into. -/
theorem shapes_of_decode {source : Handle} {packs after : List Pack} {w w' : World}
    (hd : e.decode h source packs w = (.ok after, w')) :
    after.map Pack.shape = packs.map Pack.shape := by
  have hshapes : (e.decode h source packs).Ends w
      (fun after _ => after.map Pack.shape = packs.map Pack.shape) fun _ _ => True := by
    refine Act.ends_bind.2 (Act.ends_of_forall (fun found w₁ _ => ?_) fun _ _ _ => trivial)
    exact Act.ends_of_forall (fun _ _ => Benchmark.shapes_of_decode) fun _ _ _ => trivial
  exact hshapes.of_ok hd

/-- What an engine stores fills the slots. -/
theorem length_of_store {result : Handle} {slots stored : List Handle} {w w' : World}
    (hs : e.store h result slots w = (.ok stored, w')) : stored.length = slots.length := by
  have hlength : (e.store h result slots).Ends w
      (fun stored _ => stored.length = slots.length) fun _ _ => True := by
    refine Act.ends_bind.2 (Act.ends_of_forall (fun found w₁ _ => ?_) fun _ _ _ => trivial)
    refine Act.ends_of_forall (fun stored w₂ hstored => ?_) fun _ _ _ => trivial
    exact ((Benchmark.store_atomic w₁ found.2 result slots).of_ok hstored).2.2
  exact hlength.of_ok hs

end Engine

/-! ### Results and replies -/

theorem Act.map_eq_ok {σ α β : Type} {act : Act σ α} {f : α → β} {s s' : σ} {b : β}
    (h : (do return f (← act) : Act σ β) s = (.ok b, s')) :
    ∃ a, act s = (.ok a, s') ∧ f a = b := by
  rw [Act.bind_apply] at h
  cases ha : act s with
  | mk result s₁ =>
    rw [ha] at h
    cases result with
    | error reason => cases h
    | ok a =>
      cases h
      exact ⟨a, rfl, rfl⟩

namespace Call

/-- The reply of a call with these results. -/
def reply : Call → Results → Reply
  | count h _, .count n => ⟨.code .success, count h (some (.ofNat n))⟩
  | subscribe h slots, .handles entries => ⟨.code .success, subscribe h (putAll slots entries)⟩
  | details h entry _ _, .sizes arity sets =>
    ⟨.code .success, details h entry (some (.ofNat arity)) (some (.ofNat sets))⟩
  | describe h entry _ slots, .outline outline =>
    ⟨.code .success, describe h entry (some outline.descriptor.raw)
      (slots.change (overwrite putAll · outline.slots))⟩
  | create h entry params _, .handle made =>
    ⟨.code .success, create h entry params (some made)⟩
  | text h entry params buffer, .text content =>
    ⟨(answerText buffer content).1, text h entry params (answerText buffer content).2⟩
  | encode h packs _, .handle made => ⟨.code .success, encode h packs (some made)⟩
  | decode h source (some packs), .packs after =>
    ⟨.code .success, decode h source (some (packs.store after))⟩
  | encrypt h source _, .handle made => ⟨.code .success, encrypt h source (some made)⟩
  | decrypt h source _, .handle made => ⟨.code .success, decrypt h source (some made)⟩
  | load h sources _, .handle made => ⟨.code .success, load h sources (some made)⟩
  | store h result slots, .handles stored =>
    ⟨.code .success, store h result (putAll slots stored)⟩
  | operate h loaded selections _, .handle made =>
    ⟨.code .success, operate h loaded selections (some made)⟩
  | schemeName h id buffer, .text content =>
    ⟨(answerText buffer content).1, schemeName h id (answerText buffer content).2⟩
  | securityName h id buffer, .text content =>
    ⟨(answerText buffer content).1, securityName h id (answerText buffer content).2⟩
  | c, _ => ⟨.code .success, c⟩

/-- With the reply the host receives the results of the method. -/
theorem receives_reply {c : Call} {e : Engine} {method : Act World Results} {results : Results}
    {w w' : World} (ha : c.Agreed) (hm : c.method e = some method)
    (hr : method w = (.ok results, w')) :
    c.Receives results (c.reply results).answer (c.reply results).memory := by
  cases c with
  | destroy h =>
    cases hm
    obtain ⟨-, -, rfl⟩ := Act.map_eq_ok hr
    exact .nothing _
  | count h slot =>
    obtain ⟨out, rfl⟩ := Option.isSome_iff_exists.1 ha
    cases hm
    cases hr
    exact .count
  | subscribe h slots =>
    cases hm
    cases hs : e.subscribe (announced slots) with
    | error failure =>
      rw [hs] at hr
      cases hr
    | ok entries =>
      rw [hs] at hr
      cases hr
      have ht := HostArray.takesAll_putAll (Engine.length_of_subscribe hs)
      exact .subscribe ht ht.announced
  | details h entry arity sets =>
    obtain ⟨_, rfl⟩ := Option.isSome_iff_exists.1 ha.1
    obtain ⟨_, rfl⟩ := Option.isSome_iff_exists.1 ha.2
    cases hm
    cases hs : e.arity entry with
    | error failure =>
      rw [hs] at hr
      cases hr
    | ok size =>
      rw [hs] at hr
      obtain ⟨count, -, rfl⟩ := Act.map_eq_ok hr
      exact .details
  | describe h entry descriptor slots =>
    obtain ⟨raw, rfl⟩ := Option.isSome_iff_exists.1 ha.1
    cases hm
    cases hd : e.describe entry ⟨.plain, (announced slots).map announced⟩ with
    | mk outcome outline =>
      rw [hd] at hr
      cases outcome with
      | error failure => cases hr
      | ok =>
        cases hr
        have hlengths := Engine.lengths_of_describe hd
        rw [List.map_map] at hlengths
        have ht := HostArray.takesAll_fill hlengths
        exact .describe ht (ht.map_announced fun _ _ _ hslot => hslot.announced)
          (Descriptor.ofRaw_raw outline.descriptor)
  | create h entry params slot =>
    obtain ⟨out, rfl⟩ := Option.isSome_iff_exists.1 ha.1
    cases hm
    obtain ⟨made, -, rfl⟩ := Act.map_eq_ok hr
    exact .create
  | text h entry params buffer =>
    cases hm
    obtain ⟨content, -, rfl⟩ := Act.map_eq_ok hr
    exact .text (answerText_takes buffer content)
  | concretize h descriptor =>
    obtain ⟨raw, concrete, rfl, hraw⟩ := ha
    simp only [Call.method, hraw, Except.toOption, Option.map_some, Option.some.injEq] at hm
    subst hm
    obtain ⟨-, -, rfl⟩ := Act.map_eq_ok hr
    exact .nothing _
  | encode h packs slot =>
    obtain ⟨hslot, memory, rfl, -⟩ := ha
    obtain ⟨out, rfl⟩ := Option.isSome_iff_exists.1 hslot
    cases hm
    obtain ⟨made, -, rfl⟩ := Act.map_eq_ok hr
    exact .encode
  | decode h source packs =>
    obtain ⟨memory, rfl, hcomplete⟩ := ha
    cases hm
    obtain ⟨after, hafter, rfl⟩ := Act.map_eq_ok hr
    have ht := HostPacks.takes_store (Engine.shapes_of_decode hafter)
    obtain ⟨hcomplete', hread⟩ := HostPacks.read_of_takes hcomplete ht
    exact .decode ht hcomplete' hread
  | encrypt h source slot =>
    obtain ⟨out, rfl⟩ := Option.isSome_iff_exists.1 ha
    cases hm
    obtain ⟨made, -, rfl⟩ := Act.map_eq_ok hr
    exact .encrypt
  | decrypt h source slot =>
    obtain ⟨out, rfl⟩ := Option.isSome_iff_exists.1 ha
    cases hm
    obtain ⟨made, -, rfl⟩ := Act.map_eq_ok hr
    exact .decrypt
  | load h sources slot =>
    obtain ⟨out, rfl⟩ := Option.isSome_iff_exists.1 ha.1
    cases hm
    obtain ⟨made, -, rfl⟩ := Act.map_eq_ok hr
    exact .load
  | store h result slots =>
    cases hm
    obtain ⟨stored, hstored, rfl⟩ := Act.map_eq_ok hr
    have ht := HostArray.takesAll_putAll (Engine.length_of_store hstored)
    exact .store ht ht.announced
  | operate h loaded selections slot =>
    obtain ⟨out, rfl⟩ := Option.isSome_iff_exists.1 ha.1
    cases hm
    obtain ⟨made, -, rfl⟩ := Act.map_eq_ok hr
    exact .operate
  | schemeName h id buffer =>
    cases hm
    obtain ⟨content, -, rfl⟩ := Act.map_eq_ok hr
    exact .schemeName (answerText_takes buffer content)
  | securityName h id buffer =>
    cases hm
    obtain ⟨content, -, rfl⟩ := Act.map_eq_ok hr
    exact .securityName (answerText_takes buffer content)
  | version | start | errorText | lastError | lastErrorText => exact ha.elim

end Call

end HandleBench
