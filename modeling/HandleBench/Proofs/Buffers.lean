import HandleBench.Binary64.Octets
import HandleBench.Pack

/-!
# Results in the buffers of a host

Results are written over the buffers of one pack, result after result, and each of them as far as
its buffer has room for whole numbers. Every octet of a list of packs has a place: the number of its
pack, the number of its buffer, and where it is in there. What is written is told for one buffer
after the other, and so is what is left alone.
-/

namespace HandleBench

namespace Binary64

theorem fitting_cons (room : Nat) (v : Binary64) (values : List Binary64) :
    fitting (room + 8) (v :: values) = fitting room values + 1 := by
  rw [fitting, fitting, Nat.add_div_right _ (by omega), List.length_cons, Nat.succ_min_succ]

/-- A buffer that eight octets cannot be taken off has fewer than eight. -/
theorem length_lt_of_short {buffer : Octets}
    (hshort : ∀ a b c d e f g h rest, buffer = a :: b :: c :: d :: e :: f :: g :: h :: rest →
      False) : buffer.length < 8 := by
  rcases buffer with _ | ⟨a, _ | ⟨b, _ | ⟨c, _ | ⟨d, _ | ⟨e, _ | ⟨f, _ | ⟨g, _ | ⟨h,
    rest⟩⟩⟩⟩⟩⟩⟩⟩
  case cons.cons.cons.cons.cons.cons.cons.cons =>
    exact (hshort a b c d e f g h rest rfl).elim
  all_goals simp

/-- What fits of some numbers is at the front of the buffer; the rest of the buffer is as it was. -/
theorem writeInto_eq (buffer : Octets) (values : List Binary64) :
    writeInto buffer values = writeAll (values.take (fitting buffer.length values)) ++
      buffer.drop (8 * fitting buffer.length values) := by
  fun_induction writeInto buffer values with
  | case1 a b c d e f g h rest v values ih =>
    have hfit : fitting (a :: b :: c :: d :: e :: f :: g :: h :: rest).length (v :: values) =
        fitting rest.length values + 1 := fitting_cons rest.length v values
    rw [ih, hfit, List.take_succ_cons, Nat.mul_succ, ← List.append_assoc]
    rfl
  | case2 buffer values hshort =>
    have hnone : fitting buffer.length values = 0 := by
      cases values with
      | nil => exact Nat.min_zero _
      | cons v values =>
        have hlt : buffer.length < 8 := length_lt_of_short fun a b c d e f g h rest hb =>
          hshort a b c d e f g h rest v values hb rfl
        rw [fitting, Nat.div_eq_of_lt hlt, Nat.zero_min]
    rw [hnone]
    rfl

/-- A buffer holds a number for each eight octets. -/
theorem length_readAll (buffer : Octets) : (readAll buffer).length = buffer.length / 8 := by
  fun_induction readAll buffer with
  | case1 a b c d e f g h rest ih =>
    have hlength : (a :: b :: c :: d :: e :: f :: g :: h :: rest).length = rest.length + 8 := rfl
    rw [hlength, Nat.add_div_right _ (by omega), List.length_cons, ih]
  | case2 buffer hshort =>
    rw [Nat.div_eq_of_lt (length_lt_of_short hshort)]
    rfl

/-- Numbers that are read off a buffer are written as they were there. -/
theorem writeAll_readAll (buffer : Octets) (n : Nat) (hn : 8 * n ≤ buffer.length) :
    writeAll ((readAll buffer).take n) = buffer.take (8 * n) := by
  fun_induction readAll buffer generalizing n with
  | case1 a b c d e f g h rest ih =>
    cases n with
    | zero => rfl
    | succ n =>
      have hrest : 8 * n ≤ rest.length := by
        simp only [List.length_cons] at hn
        omega
      rw [List.take_succ_cons, writeAll, List.flatMap_cons, octets_ofOctets, Nat.mul_succ]
      exact congrArg ([a, b, c, d, e, f, g, h] ++ ·) (ih n hrest)
  | case2 buffer hshort =>
    -- too short for a number, so none is asked for
    obtain rfl : n = 0 := by
      have hlength := length_readAll buffer
      rw [readAll.eq_2 buffer hshort] at hlength
      simp only [List.length_nil] at hlength
      omega
    rfl

end Binary64

/-- Each target is changed by the value at its place, if there is one. -/
theorem getElem?_overwrite {α β : Type} (f : α → β → α) (targets : List α) (values : List β)
    (i : Nat) :
    (overwrite f targets values)[i]? =
      targets[i]?.map fun target => (values[i]?.map (f target)).getD target := by
  fun_induction overwrite f targets values generalizing i with
  | case1 target targets value values ih =>
    cases i with
    | zero => rfl
    | succ i => exact ih i
  | case2 targets values hshort =>
    cases targets with
    | nil => simp
    | cons target targets =>
      cases values with
      | nil => simp
      | cons value values => exact absurd rfl (hshort target targets value values rfl)

namespace Pack

variable {packs : List Pack} {position : UInt64} {f : List Octets → List Octets} {k q : Nat}

/-- The octets in one of the buffers of one of the packs. -/
def octetsAt (packs : List Pack) (k q : Nat) : Option Octets := packs[k]?.bind (·.buffers[q]?)

/-- The number of the first pack at a position. -/
def firstAt (packs : List Pack) (position : UInt64) : Option Nat :=
  packs.findIdx? (·.position == position)

theorem positions_changeAt (position : UInt64) (f : List Octets → List Octets)
    (packs : List Pack) :
    (changeAt position f packs).map (·.position) = packs.map (·.position) := by
  fun_induction changeAt position f packs with
  | case1 => rfl
  | case2 pack packs hp => rfl
  | case3 pack packs hp ih => rw [List.map_cons, List.map_cons, ih]

/-- Only the first pack at the position is changed. -/
theorem getElem?_changeAt (position : UInt64) (f : List Octets → List Octets) (packs : List Pack)
    (k : Nat) :
    (changeAt position f packs)[k]? = packs[k]?.map fun pack =>
      if firstAt packs position = some k then { pack with buffers := f pack.buffers }
      else pack := by
  fun_induction changeAt position f packs generalizing k with
  | case1 => rfl
  | case2 pack packs hp =>
    have hfirst : firstAt (pack :: packs) position = some 0 := by
      simp [firstAt, List.findIdx?_cons, hp]
    rw [hfirst]
    cases k with
    | zero => rfl
    | succ k => simp
  | case3 pack packs hp ih =>
    have hfirst : firstAt (pack :: packs) position = (firstAt packs position).map (· + 1) := by
      simp [firstAt, List.findIdx?_cons, hp]
    rw [hfirst]
    cases k with
    | zero => simp
    | succ k =>
      rw [List.getElem?_cons_succ, List.getElem?_cons_succ, ih k]
      simp

/-- The position of a pack and the sizes of its buffers. -/
def shape (pack : Pack) : UInt64 × List Nat := (pack.position, pack.buffers.map List.length)

/-- What is written into buffers without changing their sizes leaves all shapes as they are. -/
theorem shapes_changeAt {α : Type} {f : Octets → α → Octets}
    (hf : ∀ buffer value, (f buffer value).length = buffer.length) (position : UInt64)
    (values : List α) (packs : List Pack) :
    (changeAt position (overwrite f · values) packs).map shape = packs.map shape := by
  have sizes : ∀ buffers, (overwrite f buffers values).map List.length =
      buffers.map List.length := by
    intro buffers
    fun_induction overwrite f buffers values with
    | case1 buffer buffers value values ih => rw [List.map_cons, List.map_cons, hf, ih]
    | case2 => rfl
  fun_induction changeAt position (overwrite f · values) packs with
  | case1 => rfl
  | case2 pack packs hp => rw [List.map_cons, List.map_cons, shape, shape, sizes]
  | case3 pack packs hp ih => rw [List.map_cons, List.map_cons, ih]

/-- What is written to the packs changes the buffers of the first one at the position, each by the
value at its place. -/
theorem octetsAt_changeAt {α : Type} (position : UInt64) (f : Octets → α → Octets) (values : List α)
    (packs : List Pack) (k q : Nat) :
    octetsAt (changeAt position (overwrite f · values) packs) k q =
      if firstAt packs position = some k then
        (octetsAt packs k q).map fun buffer => (values[q]?.map (f buffer)).getD buffer
      else octetsAt packs k q := by
  rw [octetsAt, octetsAt, getElem?_changeAt]
  cases packs[k]? with
  | none => simp
  | some pack =>
    split
    · exact getElem?_overwrite f pack.buffers values q
    · rfl

end Pack

end HandleBench
