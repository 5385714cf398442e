import HandleBench.Pipeline.Carrier
import HandleBench.Proofs.RoundTrip
import Mathlib.Data.List.Induction

/-!
# What a byte carrier writes

A byte carrier copies its samples into the destination one pack after the other, so samples of the
same position write over each other. What is there at the end can be said octet by octet:
`Carrier.octetsAt_writeInto`. Each octet of the destination is that of the last sample for its
buffer that reaches so far, and is as it was if none does.
-/

namespace HandleBench.Carrier

/-- The octet at a place of the last of the sources that is long enough to have one there. -/
def lastOctet (sources : List Octets) (i : Nat) : Option UInt8 :=
  sources.reverse.findSome? (·[i]?)

/-- A buffer with as much of the sources on it as fits, where a later source covers an earlier
one. -/
def cover (sources : List Octets) (buffer : Octets) : Octets :=
  buffer.mapIdx fun i octet => (lastOctet sources i).getD octet

/-- The samples that belong into a buffer of a destination, in the order of their packs: those with
its number, of the packs for whose position its pack is the first. -/
def sourcesAt (samples dest : List Pack) (k q : Nat) : List Octets :=
  (samples.filter fun sample => Pack.firstAt dest sample.position = some k).filterMap
    (·.buffers[q]?)

/-! ### One sample after the other -/

theorem lastOctet_concat (sources : List Octets) (source : Octets) (i : Nat) :
    lastOctet (sources ++ [source]) i = source[i]?.or (lastOctet sources i) := by
  rw [lastOctet, List.reverse_concat, List.findSome?_cons]
  cases source[i]? <;> rfl

theorem cover_nil (buffer : Octets) : cover [] buffer = buffer := by
  refine List.ext_getElem? fun i => ?_
  rw [cover, List.getElem?_mapIdx]
  exact congrFun Option.map_id _

theorem getElem?_cover (sources : List Octets) (buffer : Octets) (i : Nat) :
    (cover sources buffer)[i]? = buffer[i]?.map fun octet => (lastOctet sources i).getD octet :=
  List.getElem?_mapIdx

/-- Filling a buffer with a sample takes the octets that the sample has for it. -/
theorem getElem?_fill (buffer sample : Octets) (i : Nat) :
    (fill buffer sample)[i]? = buffer[i]?.map fun octet => sample[i]?.getD octet := by
  rw [fill, List.getElem?_append, List.length_take]
  split
  · next hi =>
    have hb : i < buffer.length := by omega
    have hs : i < sample.length := by omega
    rw [List.getElem?_take_of_lt hb, List.getElem?_eq_getElem hb, List.getElem?_eq_getElem hs]
    rfl
  · next hi =>
    -- the sample has ended before, or there is no room for it any more
    rw [List.getElem?_drop]
    by_cases hb : i < buffer.length
    · have hs : sample[i]? = none := List.getElem?_eq_none (by omega)
      rw [hs, show sample.length + (i - min buffer.length sample.length) = i by omega]
      exact (congrFun Option.map_id _).symm
    · have hnone : ∀ j, i ≤ j ∨ buffer.length ≤ j → buffer[j]? = none :=
        fun j hj => List.getElem?_eq_none (by omega)
      rw [hnone _ (by omega), hnone i (by omega)]
      rfl

/-- The sample that is written last covers those before it. -/
theorem fill_cover (sources : List Octets) (source buffer : Octets) :
    fill (cover sources buffer) source = cover (sources ++ [source]) buffer := by
  refine List.ext_getElem? fun i => ?_
  rw [getElem?_fill, getElem?_cover, getElem?_cover, lastOctet_concat, Option.map_map]
  refine congrArg (Option.map · _) (funext fun octet => ?_)
  show source[i]?.getD _ = _
  cases source[i]? <;> rfl

theorem sourcesAt_concat (samples dest : List Pack) (sample : Pack) (k q : Nat) :
    sourcesAt (samples ++ [sample]) dest k q = sourcesAt samples dest k q ++
      if Pack.firstAt dest sample.position = some k then sample.buffers[q]?.toList else [] := by
  rw [sourcesAt, sourcesAt, List.filter_append, List.filterMap_append]
  split
  · next hk =>
    rw [List.filter_cons_of_pos (by simpa using hk), List.filter_nil]
    cases hq : sample.buffers[q]? <;> simp [hq]
  · next hk => rw [List.filter_cons_of_neg (by simpa using hk), List.filter_nil, List.filterMap_nil]

/-! ### All samples -/

/-- Writing samples leaves the packs where they were. -/
theorem positions_writeInto (samples dest : List Pack) :
    (writeInto samples dest).map (·.position) = dest.map (·.position) := by
  rw [writeInto]
  induction samples generalizing dest with
  | nil => rfl
  | cons sample samples ih =>
    rw [List.foldl_cons, ih]
    exact Pack.positions_changeAt sample.position _ dest

/-- Every buffer of the destination is covered by the samples that belong into it. -/
theorem octetsAt_writeInto (samples dest : List Pack) (k q : Nat) :
    Pack.octetsAt (writeInto samples dest) k q =
      (Pack.octetsAt dest k q).map (cover (sourcesAt samples dest k q)) := by
  induction samples using List.reverseRecOn with
  | nil =>
    show Pack.octetsAt dest k q = (Pack.octetsAt dest k q).map (cover [])
    rw [funext cover_nil, Option.map_id']
  | append_singleton samples sample ih =>
    have hlast : writeInto (samples ++ [sample]) dest =
        Pack.changeAt sample.position (overwrite fill · sample.buffers)
          (writeInto samples dest) := by
      rw [writeInto, List.foldl_append]
      rfl
    rw [hlast, Pack.octetsAt_changeAt, Pack.firstAt_congr (positions_writeInto samples dest), ih,
      sourcesAt_concat]
    split
    · rw [Option.map_map]
      refine congrArg (Option.map · _) (funext fun buffer => ?_)
      cases sample.buffers[q]? with
      | none => exact congrArg (cover · buffer) (List.append_nil _).symm
      | some source => exact fill_cover _ source buffer
    · rw [List.append_nil]

/-- What samples leave of a destination they are written into. -/
structure Written (samples dest after : List Pack) : Prop where
  /-- The packs are where they were. -/
  positions : after.map (·.position) = dest.map (·.position)
  /-- In every buffer each octet is that of the last sample which belongs there and reaches so far,
  or what it was. No buffer comes, goes or changes its size. -/
  covered : ∀ k q, Pack.octetsAt after k q =
    (Pack.octetsAt dest k q).map (cover (sourcesAt samples dest k q))

theorem written_writeInto (samples dest : List Pack) :
    Written samples dest (writeInto samples dest) :=
  ⟨positions_writeInto samples dest, octetsAt_writeInto samples dest⟩

end HandleBench.Carrier
