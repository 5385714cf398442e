import HandleBench.Pipeline
import HandleBench.Proofs.Buffers
import HandleBench.Proofs.Calls
import HandleBench.Proofs.HostMemory

/-!
# Results in host memory

What a host finds in its memory after results were put there is said here place by place, whatever
has put them there: each place that there is a result for has taken it, and every other place is as
it was, as are all pointers, counts, positions and sizes, `HostArray.Takes`. Where every announced
place takes a result, the host reads back the results and nothing else. The functions that write to
host memory are then shown to do that, for elements of arrays, for packs of buffers and for texts.

Decoding gives the octets for packs that were read, and it gives as many for every buffer as there
were, so they have their places.
-/

namespace HandleBench

open Call (announced answerText putAll)
open Text (copyInto roomFor)

/-! ### Arrays -/

namespace HostArray

variable {α β : Type} {put : α → β → α → Prop} {before after : HostArray α} {values : List β}

/-- What is behind the pointer of an array; nothing behind a null pointer. -/
def behind (array : HostArray α) : List α := array.elements.getD []

/-- What becomes of an array when its first elements take values. How an element takes a value is
told by `put`, from what the element was, the value, and what the element is afterwards. -/
structure Takes (put : α → β → α → Prop) (before : HostArray α) (values : List β)
    (after : HostArray α) : Prop where
  /-- The announced count stays. -/
  count : after.count = before.count
  /-- The pointer stays, null or not. -/
  pointer : after.elements.isSome = before.elements.isSome
  /-- As much is behind it as before. -/
  size : after.behind.length = before.behind.length
  /-- For every value an element is announced. -/
  room : values.length ≤ (announced before).length
  /-- The element in its place takes it. -/
  taken : ∀ (i : Nat) v, values[i]? = some v →
    ∃ x y, before.behind[i]? = some x ∧ after.behind[i]? = some y ∧ put x v y
  /-- Any other element stays, announced or not. -/
  rest : ∀ i, values.length ≤ i → after.behind[i]? = before.behind[i]?

/-- What becomes of it when every announced element takes a value. -/
structure TakesAll (put : α → β → α → Prop) (before : HostArray α) (values : List β)
    (after : HostArray α) : Prop extends Takes put before values after where
  /-- There is a value for every announced element. -/
  all : (announced before).length ≤ values.length

/-- An element that takes a value is the value afterwards. -/
def Replaced (_ value after : α) : Prop := after = value

theorem getElem?_announced_of_lt {array : HostArray α} {i : Nat}
    (hi : i < (announced array).length) : (announced array)[i]? = array.behind[i]? := by
  rw [announced, List.length_take] at hi
  exact List.getElem?_take_of_lt (by omega)

theorem Takes.present (ht : Takes put before values after) (hp : before.Present) :
    after.Present := by
  have hsize : (before.elements.getD []).length = (after.elements.getD []).length := ht.size.symm
  rw [HostArray.Present, ht.count, ← hsize]
  exact hp

theorem Takes.length_announced (ht : Takes put before values after) :
    (announced after).length = (announced before).length := by
  have hsize : (after.elements.getD []).length = (before.elements.getD []).length := ht.size
  rw [announced, announced, List.length_take, List.length_take, ht.count, hsize]

/-- What an announced element has become. -/
theorem Takes.getElem?_announced (ht : Takes put before values after) {i : Nat} {v : β}
    (hv : values[i]? = some v) :
    ∃ x y, (announced before)[i]? = some x ∧ (announced after)[i]? = some y ∧ put x v y := by
  have hi : i < values.length := (List.getElem?_eq_some_iff.1 hv).1
  have hroom := ht.room
  obtain ⟨x, y, hx, hy, hput⟩ := ht.taken i v hv
  refine ⟨x, y, ?_, ?_, hput⟩
  · rw [getElem?_announced_of_lt (by omega), hx]
  · rw [getElem?_announced_of_lt (by rw [ht.length_announced]; omega), hy]

/-- What the announced elements hold afterwards is the values. -/
theorem TakesAll.map_announced (ht : TakesAll put before values after) {g : α → β}
    (hg : ∀ x v y, put x v y → g y = v) : (announced after).map g = values := by
  refine List.ext_getElem? fun i => ?_
  rw [List.getElem?_map]
  cases hv : values[i]? with
  | some v =>
    obtain ⟨x, y, -, hy, hput⟩ := ht.getElem?_announced hv
    rw [hy, Option.map_some, hg x v y hput]
  | none =>
    have hi : values.length ≤ i := List.getElem?_eq_none_iff.1 hv
    have hall := ht.all
    rw [List.getElem?_eq_none (by rw [ht.length_announced]; omega), Option.map_none]

theorem TakesAll.announced {values : List α} (ht : TakesAll Replaced before values after) :
    announced after = values := by
  have h := ht.map_announced (g := id) fun _ _ _ hy => hy
  rwa [List.map_id] at h

/-- What every announced element has, every announced element has afterwards, if taking a value
hands it on. -/
theorem TakesAll.forall_announced {p : α → Prop} (ht : TakesAll put before values after)
    (hput : ∀ x v y, put x v y → p x → p y) (hb : ∀ x ∈ Call.announced before, p x) :
    ∀ y ∈ Call.announced after, p y := by
  intro y hy
  obtain ⟨i, hi⟩ := List.getElem?_of_mem hy
  have hlt : i < values.length := by
    have hlength := (List.getElem?_eq_some_iff.1 hi).1
    rw [ht.length_announced] at hlength
    exact Nat.lt_of_lt_of_le hlength ht.all
  obtain ⟨x, y', hx, hy', htaken⟩ := ht.getElem?_announced (List.getElem?_eq_getElem hlt)
  obtain rfl : y' = y := Option.some.inj (hy'.symm.trans hi)
  exact hput x _ y' htaken (hb x (List.mem_of_getElem? hx))

/-! ### Writing to arrays -/

theorem behind_change (array : HostArray α) {f : List α → List α} (hf : f [] = []) :
    (array.change f).behind = f array.behind := by
  obtain ⟨elements, count⟩ := array
  cases elements with
  | none => exact hf.symm
  | some els => rfl

theorem change_congr {array : HostArray α} {f g : List α → List α}
    (h : f array.behind = g array.behind) : array.change f = array.change g := by
  obtain ⟨elements, count⟩ := array
  cases elements with
  | none => rfl
  | some els => exact congrArg (HostArray.mk · count) (congrArg some h)

/-- Overwriting elements with values makes them take the values. -/
theorem takes_overwrite {f : α → β → α} (hroom : values.length ≤ (announced before).length)
    (hput : ∀ (i : Nat) x v, (announced before)[i]? = some x → values[i]? = some v →
      put x v (f x v)) :
    Takes put before values (before.change (overwrite f · values)) := by
  have hbehind : (before.change (overwrite f · values)).behind =
      overwrite f before.behind values := behind_change before rfl
  have hle : values.length ≤ before.behind.length := by
    rw [announced, List.length_take] at hroom
    exact Nat.le_trans hroom (Nat.min_le_right _ _)
  refine {
    count := rfl
    pointer := Option.isSome_map
    size := by rw [hbehind, length_overwrite]
    room := hroom
    taken := fun i v hv => ?taken
    rest := fun i hi => ?rest }
  case taken =>
    have hi : i < values.length := (List.getElem?_eq_some_iff.1 hv).1
    have hx : before.behind[i]? = some before.behind[i] := List.getElem?_eq_getElem (by omega)
    refine ⟨_, _, hx, ?_, hput i _ v ?_ hv⟩
    · rw [hbehind, getElem?_overwrite, hx, hv]
      rfl
    · rw [getElem?_announced_of_lt (by omega), hx]
  case rest =>
    rw [hbehind, getElem?_overwrite, List.getElem?_eq_none hi]
    exact congrFun Option.map_id _

/-- All elements take values if each value is of the size that its element is of. -/
theorem takesAll_overwrite {γ : Type} {f : α → β → α} {size : β → γ} {room : α → γ}
    (hs : values.map size = (announced before).map room)
    (hput : ∀ x v, size v = room x → put x v (f x v)) :
    TakesAll put before values (before.change (overwrite f · values)) := by
  have hl : values.length = (announced before).length := by simpa using congrArg List.length hs
  refine ⟨takes_overwrite (Nat.le_of_eq hl) fun i x v hx hv => ?_, Nat.le_of_eq hl.symm⟩
  have hi := congrArg (·[i]?) hs
  simp only [List.getElem?_map, hx, hv, Option.map_some, Option.some.injEq] at hi
  exact hput x v hi

theorem putFront_eq_overwrite {elements results : List α} (hl : results.length ≤ elements.length) :
    Engine.putFront results elements = overwrite (fun _ result => result) elements results := by
  induction results generalizing elements with
  | nil => cases elements <;> rfl
  | cons result results ih =>
    cases elements with
    | nil => exact absurd hl (Nat.not_succ_le_zero _)
    | cons element elements => exact congrArg (result :: ·) (ih (Nat.le_of_succ_le_succ hl))

/-- Results that are put to the front of an array replace as many elements. -/
theorem takes_putAll {results : List α} (hroom : results.length ≤ (announced before).length) :
    Takes Replaced before results (putAll before results) := by
  have hwrite : putAll before results =
      before.change (overwrite (fun _ result => result) · results) := by
    obtain ⟨elements, count⟩ := before
    cases elements with
    | none => rfl
    | some els =>
      rw [announced, List.length_take] at hroom
      have hle : results.length ≤ els.length := Nat.le_trans hroom (Nat.min_le_right _ _)
      simp only [putAll, change, Option.map_some, putFront_eq_overwrite hle]
  rw [hwrite]
  exact takes_overwrite hroom fun _ _ _ _ _ => rfl

theorem takesAll_putAll {results : List α} (hl : results.length = (announced before).length) :
    TakesAll Replaced before results (putAll before results) :=
  ⟨takes_putAll (Nat.le_of_eq hl), Nat.le_of_eq hl.symm⟩

/-- So it is for each array of an array of arrays. -/
theorem takesAll_fill {slots : HostArray (HostArray α)} {contents : List (List α)}
    (hs : contents.map List.length = (announced slots).map fun slot => (announced slot).length) :
    slots.TakesAll (TakesAll Replaced) contents (slots.change (overwrite putAll · contents)) :=
  takesAll_overwrite hs fun _ _ => takesAll_putAll

end HostArray

/-! ### Buffers and packs -/

/-- What becomes of a buffer that takes octets. Behind a null pointer there is nothing to take, and
memory takes as many octets as it has. -/
inductive HostBuffer.Takes : HostBuffer → Octets → HostBuffer → Prop where
  /-- A null pointer stays. -/
  | null (size : UInt64) : Takes (.null size) [] (.null size)
  /-- Memory has the octets. -/
  | memory {old new : Octets} (size : new.length = old.length) :
    Takes (.memory old) new (.memory new)

/-- What becomes of a pack when its buffers take those of a pack that was read from it. -/
structure HostPack.Takes (before : HostPack) (contents : Pack) (after : HostPack) : Prop where
  /-- Its position stays. -/
  position : after.position = before.position
  /-- What it takes is for this position. -/
  fits : contents.position = before.position
  /-- Every announced buffer takes its octets. -/
  buffers : before.buffers.TakesAll HostBuffer.Takes contents.buffers after.buffers

theorem HostBuffer.Takes.contents_eq {before after : HostBuffer} {octets : Octets}
    (ht : before.Takes octets after) : after.contents = octets := by
  cases ht <;> rfl

theorem HostBuffer.takes_store {buffer : HostBuffer} {octets : Octets}
    (hl : octets.length = buffer.contents.length) : buffer.Takes octets (buffer.store octets) := by
  cases buffer with
  | null size =>
    obtain rfl : octets = [] := List.length_eq_zero_iff.1 hl
    exact .null size
  | memory old => exact .memory hl

/-- The position of a pack in host memory and the sizes of its announced buffers. -/
def HostPack.shape (pack : HostPack) : UInt64 × List Nat :=
  (pack.position, (announced pack.buffers).map fun buffer => buffer.contents.length)

/-- A pack takes contents of its shape. -/
theorem HostPack.takes_store {pack : HostPack} {contents : Pack}
    (hs : contents.shape = pack.shape) : pack.Takes contents (pack.store contents) where
  position := rfl
  fits := congrArg Prod.fst hs
  buffers := HostArray.takesAll_overwrite (congrArg Prod.snd hs) fun _ _ => HostBuffer.takes_store

namespace HostPacks

variable {packs after : HostPacks} {contents : List Pack}

theorem shapes_contents (packs : HostPacks) :
    packs.contents.map Pack.shape = (announced packs).map HostPack.shape := by
  rw [HostPacks.contents, List.map_map]
  refine List.map_congr_left fun pack _ => ?_
  simp [Pack.shape, HostPack.shape]

/-- Packs take contents whose shapes are theirs. -/
theorem takes_store (hs : contents.map Pack.shape = packs.contents.map Pack.shape) :
    packs.TakesAll HostPack.Takes contents (packs.store contents) :=
  HostArray.takesAll_overwrite (hs.trans packs.shapes_contents) fun _ _ => HostPack.takes_store

/-- The contents of packs that have taken something are what they have taken. -/
theorem contents_of_takes (ht : packs.TakesAll HostPack.Takes contents after) :
    after.contents = contents := by
  refine ht.map_announced fun before pack after hp => ?_
  rw [hp.position, ← hp.fits, hp.buffers.map_announced fun _ _ _ hb => hb.contents_eq]

/-- **Reading back.** Complete memory is complete after it has taken something, and what is read
then is what it has taken. -/
theorem read_of_takes (hc : packs.Complete) (ht : packs.TakesAll HostPack.Takes contents after) :
    after.Complete ∧ after.read = .ok contents := by
  have hafter : after.Complete := {
    packs := ht.present hc.packs
    buffers := ht.forall_announced (fun _ _ _ hp hb => hp.buffers.present hb) hc.buffers }
  rw [read_of_complete hafter, contents_of_takes ht]
  exact ⟨hafter, rfl⟩

/-- What is read from packs is their contents. -/
theorem contents_of_read {read : List Pack} (hr : packs.read = .ok read) :
    read = packs.contents := by
  obtain ⟨elements, he, hm⟩ := Except.bind_eq_ok.1 hr
  rw [Call.read_eq_announced he] at hm
  have heach : ∀ pack ∈ announced packs, pack.read =
      .ok ⟨pack.position, (announced pack.buffers).map HostBuffer.contents⟩ := by
    intro pack hpack
    obtain ⟨read, hread⟩ := Except.forall_of_mapM hm pack hpack
    obtain ⟨buffers, hbuffers, hpure⟩ := Except.bind_eq_ok.1 hread
    rw [Call.read_eq_announced hbuffers] at hpure
    rw [hread]
    exact hpure.symm
  exact Except.ok.inj (hm.symm.trans (Except.mapM_eq_ok heach))

end HostPacks

/-! ### Results that have their places -/

/-- Default sets are copied into slots without changing the sizes of these. -/
theorem Engine.lengths_fillSlots (index : Nat) (slots sets : List (List Param)) :
    (fillSlots index slots sets).2.map List.length = slots.map List.length := by
  induction slots generalizing index sets with
  | nil => cases sets <;> rfl
  | cons slot slots ih =>
    cases sets with
    | nil => rfl
    | cons set sets =>
      by_cases hshort : slot.length < set.length
      · rw [Call.fillSlots_short hshort]
      · have hlength : (putFront set slot).length = slot.length := by
          rw [putFront, List.length_append, List.length_drop]
          omega
        rw [Call.fillSlots_fits hshort, List.map_cons, List.map_cons, hlength, ih]

theorem Engine.lengths_of_describe {e : Engine} {entry : Handle} {memory outline : Outline}
    {outcome : Except Failure Unit} (hd : e.describe entry memory = (outcome, outline)) :
    outline.slots.map List.length = memory.slots.map List.length := by
  unfold describe at hd
  split at hd
  · cases hd
    rfl
  · cases hd
    exact lengths_fillSlots 0 _ _

/-- There is a handle for every slot if the catalog is subscribed to. -/
theorem Engine.length_of_subscribe {e : Engine} {slots entries : List Handle}
    (hs : e.subscribe slots = .ok entries) : entries.length = slots.length := by
  unfold subscribe at hs
  split at hs
  · next hl =>
    cases hs
    rw [hl, Engine.entries, List.length_map, List.length_range]
  · cases hs

theorem Product.shapes_writeFrom (position : UInt64) (components : List (List (Matrix Binary64)))
    (packs : List Pack) :
    (writeFrom position components packs).map Pack.shape = packs.map Pack.shape := by
  induction components generalizing position packs with
  | nil => rfl
  | cons samples components ih =>
    rw [writeFrom, ih]
    exact Pack.shapes_changeAt (fun _ _ => Binary64.length_writeInto _ _) position samples packs

theorem Carrier.length_fill (buffer sample : Octets) :
    (fill buffer sample).length = buffer.length := by
  rw [fill, List.length_append, List.length_take, List.length_drop]
  omega

theorem Carrier.shapes_writeInto (samples packs : List Pack) :
    (writeInto samples packs).map Pack.shape = packs.map Pack.shape := by
  rw [writeInto]
  induction samples generalizing packs with
  | nil => rfl
  | cons sample samples ih =>
    rw [List.foldl_cons, ih]
    exact Pack.shapes_changeAt length_fill sample.position sample.buffers packs

/-- Whatever is decoded, and by whatever instance, the packs keep their shapes. -/
theorem Benchmark.shapes_of_decode {b : Benchmark} {source : Handle} {packs after : List Pack}
    {w w' : World} (hd : b.decode source packs w = (.ok after, w')) :
    after.map Pack.shape = packs.map Pack.shape := by
  have hshapes : (b.decode source packs).Ends w
      (fun after _ => after.map Pack.shape = packs.map Pack.shape) fun _ _ => True := by
    obtain ⟨session, inst⟩ := b
    cases inst with
    | product p =>
      exact Act.Ends.map (Act.ends_of_forall
        (fun components _ _ => Product.shapes_writeFrom 0 components packs) fun _ _ _ => trivial)
    | carrier config =>
      exact Act.Ends.map (Act.ends_of_forall
        (fun samples _ _ => Carrier.shapes_writeInto samples packs) fun _ _ _ => trivial)
  exact hshapes.of_ok hd

/-- So what is decoded has its places in the host memory that the packs were read from. -/
theorem HostPacks.takes_decoded {packs : HostPacks} {b : Benchmark} {source : Handle}
    {read after : List Pack} {w w' : World} (hr : packs.read = .ok read)
    (hd : b.decode source read w = (.ok after, w')) :
    packs.TakesAll HostPack.Takes after (packs.store after) := by
  apply takes_store
  rw [Benchmark.shapes_of_decode hd, contents_of_read hr]

/-! ### Texts -/

/-- What becomes of a buffer that is handed in for a text with the given octets. -/
structure TextBuffer.Takes (before : TextBuffer) (octets : Octets) (after : TextBuffer) : Prop where
  /-- Nothing is written to a null pointer, or if no room is announced. -/
  untouched : before.elements = none ∨ before.count = 0 → after = before
  /-- Otherwise the octets are written, as far as there is room before the last of those announced,
  a zero behind them, and nothing behind that. -/
  written : ∀ memory n, before.elements = some memory → before.count ≠ 0 → before.Present →
    n = min octets.length (before.count.toNat - 1) →
      after = ⟨some (octets.take n ++ 0 :: memory.drop (n + 1)), before.count⟩

/-- What is announced of the memory is copied into, the rest stays. -/
theorem Text.copyInto_take {memory octets : Octets} {room n : Nat} (hroom : 0 < room)
    (hlength : room ≤ memory.length) (hn : n = min octets.length (room - 1)) :
    copyInto (memory.take room) octets ++ memory.drop room =
      octets.take n ++ 0 :: memory.drop (n + 1) := by
  have hlength' : (memory.take room).length = room := by
    rw [List.length_take]
    exact Nat.min_eq_left hlength
  have hrest : (memory.take room).drop (n + 1) ++ memory.drop room = memory.drop (n + 1) := by
    rw [← List.drop_append_of_le_length (by omega), List.take_append_drop]
  have hne : memory.take room ≠ [] := List.ne_nil_of_length_pos (by omega)
  rw [Text.copyInto_eq hne, hlength', ← hn, List.append_assoc, List.cons_append, hrest]

theorem Call.answerText_takes (buffer : TextBuffer) (text : String) :
    buffer.Takes (Text.Utf8.encode text) (Call.answerText buffer text).2 := by
  obtain ⟨elements, count⟩ := buffer
  constructor
  case untouched =>
    rintro (rfl | rfl)
    · rfl
    · cases elements <;> rfl
  case written =>
    rintro memory n rfl hcount hpresent hn
    have hpos : 0 < count.toNat := Nat.pos_of_ne_zero fun h0 => hcount (UInt64.toNat_inj.1 h0)
    exact congrArg (HostArray.mk · count) (congrArg some (Text.copyInto_take hpos hpresent hn))

end HandleBench
