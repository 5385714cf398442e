import HandleBench.Proofs.GeneratedOperands
import HandleBench.Proofs.NumberOrder

/-!
# Verification

A run passes if its host gets as many results as it expects and the greatest difference between an
entry and the expected one counts as none. That bounds the differences, one by one, but for those
that are NaNs: `Binary64.maxNumber` passes them over. So a result that is no number at all is let
through, wherever it stands, `Operands.verify_passes_iff`; only numbers are verified.
-/

namespace HandleBench

/-! ### The greatest of many numbers -/

namespace Binary64

variable {α : Type} {f : α → Binary64} {start bound : Binary64}

/-- The greatest of many numbers is within a bound if all are that are no NaNs. -/
theorem foldl_maxNumber_le_iff (hs : start.isNaN = false) (xs : List α) :
    (xs.foldl (fun worst x => worst.maxNumber (f x)) start).le bound = true ↔
      start.le bound = true ∧ ∀ x ∈ xs, (f x).isNaN = true ∨ (f x).le bound = true := by
  induction xs generalizing start with
  | nil => simp
  | cons x xs ih =>
    rw [List.foldl_cons, ih (isNaN_maxNumber hs _), maxNumber_le_iff hs, List.forall_mem_cons,
      and_assoc]

end Binary64

namespace Operands

open Binary64 (readAll)

variable {o : Operands} {ms : List (Matrix Binary64)} {decoded : List Octets}

/-- The expected entries, each beside the decoded number that it is compared with. -/
def compared (ms : List (Matrix Binary64)) (decoded : List Octets) :
    List (Binary64 × Binary64) :=
  (ms.zip decoded).flatMap fun (m, octets) => m.entries.zip (readAll octets)

theorem maxError_eq (start : Binary64) :
    maxError start ms decoded =
      (compared ms decoded).foldl (fun worst xy => worst.maxNumber (xy.1 - xy.2).abs) start := by
  rw [compared, List.foldl_flatMap]
  rfl

/-- The comparison passes if all differences count as none that are no NaNs. -/
theorem maxError_le_iff : (maxError .zero ms decoded).le tolerance = true ↔
    ∀ xy ∈ compared ms decoded, (xy.1 - xy.2).isNaN = true ∨
      (xy.1 - xy.2).abs.le tolerance = true := by
  have hzero : Binary64.zero.le tolerance = true := by decide
  rw [maxError_eq, Binary64.foldl_maxNumber_le_iff (by decide)]
  simp only [hzero, true_and, Binary64.isNaN_abs]

theorem mem_zip_iff {α β : Type} {xs : List α} {ys : List β} {x : α} {y : β} :
    (x, y) ∈ xs.zip ys ↔ ∃ i : Nat, xs[i]? = some x ∧ ys[i]? = some y := by
  simp only [List.mem_iff_getElem?, List.getElem?_zip_eq_some]

/-- The entry and the number stand at the same place. -/
theorem mem_compared_iff {x y : Binary64} : (x, y) ∈ compared ms decoded ↔
    ∃ (k : Nat) (m : Matrix Binary64) (octets : Octets), ms[k]? = some m ∧
      decoded[k]? = some octets ∧
        ∃ i : Nat, m.entries[i]? = some x ∧ (readAll octets)[i]? = some y := by
  simp only [compared, List.mem_flatMap, Prod.exists, mem_zip_iff]
  constructor
  · rintro ⟨m, octets, ⟨k, hm, hoctets⟩, hi⟩
    exact ⟨k, m, octets, hm, hoctets, hi⟩
  · rintro ⟨k, m, octets, hm, hoctets, hi⟩
    exact ⟨m, octets, ⟨k, hm, hoctets⟩, hi⟩

/-- Every decoded number is compared with an entry, if there are as many buffers as matrices and
they are of their size. -/
theorem entry_of_decoded {rows cols : Nat} (hfull : ∀ m ∈ ms, m.FullOf rows cols)
    (hcount : decoded.length = ms.length)
    (hsize : ∀ octets ∈ decoded, octets.length = rows * cols * 8) {k i : Nat} {octets : Octets}
    {y : Binary64} (hk : decoded[k]? = some octets) (hi : (readAll octets)[i]? = some y) :
    ∃ m x, ms[k]? = some m ∧ m.entries[i]? = some x := by
  obtain ⟨hklt, -⟩ := List.getElem?_eq_some_iff.1 hk
  obtain ⟨hilt, -⟩ := List.getElem?_eq_some_iff.1 hi
  have hm := List.getElem?_eq_getElem (hcount ▸ hklt)
  rw [Binary64.length_readAll, hsize octets (List.mem_of_getElem? hk),
    Nat.mul_div_cancel _ (by decide), ← (hfull _ (List.mem_of_getElem? hm)).entries] at hilt
  exact ⟨_, _, hm, List.getElem?_eq_getElem hilt⟩

/-- **A run passes if and only if there are as many results as expected, and every entry of them is
a NaN or within the tolerance of the one that is expected in its place.** The expected entries are
finite, and the buffers are of the size that a run allocates. -/
theorem verify_passes_iff (hms : o.expected = .ok ms) (hfull : ∀ m ∈ ms, m.FullOf o.rows o.cols)
    (hfinite : ∀ m ∈ ms, ∀ x ∈ m.entries, x.isFinite = true)
    (hsize : ∀ octets ∈ decoded, octets.length = o.rows * o.cols * 8) :
    ∃ v, o.verify decoded = .ok v ∧ v.samples = .ofNat decoded.length ∧
      (v.passed = true ↔ decoded.length = ms.length ∧
        ∀ (k i : Nat) octets y, decoded[k]? = some octets → (readAll octets)[i]? = some y →
          ∃ m x, ms[k]? = some m ∧ m.entries[i]? = some x ∧
            (y.isNaN = true ∨ (x - y).abs.le tolerance = true)) := by
  let worst := maxError .zero ms decoded
  refine ⟨⟨ms.length == decoded.length && worst.le tolerance, .ofNat decoded.length, worst⟩, ?_,
    rfl, ?_⟩
  · rw [verify, hms]
    rfl
  rw [Bool.and_eq_true, beq_iff_eq, maxError_le_iff, eq_comm]
  refine and_congr_right fun hcount => ⟨fun hall k i octets y hk hi => ?_, ?_⟩
  · obtain ⟨m, x, hm, hx⟩ := entry_of_decoded hfull hcount hsize hk hi
    refine ⟨m, x, hm, hx, ?_⟩
    have hxfinite := hfinite m (List.mem_of_getElem? hm) x (List.mem_of_getElem? hx)
    rw [← Binary64.isNaN_sub x y hxfinite]
    exact hall (x, y) (mem_compared_iff.2 ⟨k, m, octets, hm, hk, i, hx, hi⟩)
  · rintro hall ⟨x, y⟩ hxy
    obtain ⟨k, m, octets, hm, hk, i, hx, hi⟩ := mem_compared_iff.1 hxy
    obtain ⟨m', x', hm', hx', hwithin⟩ := hall k i octets y hk hi
    obtain rfl := Option.some.inj (hm.symm.trans hm')
    obtain rfl := Option.some.inj (hx.symm.trans hx')
    have hxfinite := hfinite m (List.mem_of_getElem? hm) x (List.mem_of_getElem? hx)
    rwa [Binary64.isNaN_sub x y hxfinite]

/-- One left factor and one right one, both of them the number one. -/
def ones : Operands := ⟨1, 1, 1, [⟨1, 1, [.one]⟩], [⟨1, 1, [.one]⟩]⟩

/-- One of the NaNs. -/
def nan : Binary64 := ⟨0x7FF8000000000000⟩

/-- A NaN is let through where a one is expected. -/
theorem verify_passes_nan :
    ∃ v, ones.verify [Binary64.writeAll [nan]] = .ok v ∧ v.passed = true := by
  have hms : ones.expected = .ok [⟨1, 1, [.one]⟩] := rfl
  obtain ⟨v, hv, -, hpassed⟩ := verify_passes_iff hms (List.forall_mem_singleton.2 ⟨rfl, rfl, rfl⟩)
    (by decide) (show ∀ octets ∈ [Binary64.writeAll [nan]], octets.length = 1 * 1 * 8 by decide)
  refine ⟨v, hv, hpassed.2 ⟨rfl, fun k i octets y hk hi => ?_⟩⟩
  -- there is one buffer, and one number in it
  obtain ⟨rfl, rfl⟩ : k = 0 ∧ octets = Binary64.writeAll [nan] := by
    cases k with
    | zero => exact ⟨rfl, (Option.some.inj hk).symm⟩
    | succ k => cases hk
  rw [Binary64.readAll_writeAll] at hi
  obtain ⟨rfl, rfl⟩ : i = 0 ∧ y = nan := by
    cases i with
    | zero => exact ⟨rfl, (Option.some.inj hi).symm⟩
    | succ i => cases hi
  exact ⟨_, _, rfl, rfl, .inl (by decide)⟩

/-- The buffer is of the size of a result, all that is in it is no number, and it passes. -/
theorem verify_lets_nan_through :
    (Binary64.writeAll [nan]).length = ones.rows * ones.cols * 8 ∧
      readAll (Binary64.writeAll [nan]) = [nan] ∧ nan.isNaN = true ∧
        (ones.verify [Binary64.writeAll [nan]]).toOption = some ⟨true, 1, .zero⟩ := by
  refine ⟨?_, ?_, ?_, ?_⟩
  · decide
  · exact Binary64.readAll_writeAll [nan]
  · decide
  · decide +kernel

end Operands

end HandleBench
