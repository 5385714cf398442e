import HandleBench.Proofs.NumberOrder

/-!
# The total order of bit patterns

`Binary64.totalLe` puts every bit pattern in its place: first by the sign, then by the magnitude,
which is turned over for negative patterns, `Binary64.totalLe_iff`. It is total and antisymmetric,
so no two patterns share a place. Among numbers it refines the numeric order: of two numbers the one
that comes first is at most the other, `Binary64.le_of_totalLe`.
-/

namespace HandleBench

open Float.Model (UnpackedFloat Format)
open Float.Model.UnpackedFloat (unpackExponent unpackMantissa unpackSign packComponents
  unpackExponent_packComponents unpackMantissa_packComponents)

namespace Binary64

variable {x y z : Binary64}

/-! ### A linear order -/

theorem totalLe_iff_rank : x.totalLe y = true ↔ x.rank ≤ y.rank := decide_eq_true_iff

theorem totalLe_trans (h : x.totalLe y = true) (h' : y.totalLe z = true) :
    x.totalLe z = true :=
  totalLe_iff_rank.2 (Nat.le_trans (totalLe_iff_rank.1 h) (totalLe_iff_rank.1 h'))

theorem totalLe_total (x y : Binary64) : (x.totalLe y || y.totalLe x) = true := by
  rw [Bool.or_eq_true, totalLe_iff_rank, totalLe_iff_rank]
  exact Nat.le_total x.rank y.rank

/-- Patterns that come before each other are the same. -/
theorem totalLe_antisymm (h : x.totalLe y = true) (h' : y.totalLe x = true) : x = y :=
  rank_injective (Nat.le_antisymm (totalLe_iff_rank.1 h) (totalLe_iff_rank.1 h'))

/-! ### Sign and magnitude -/

theorem isNegative_iff : x.isNegative = true ↔ 2 ^ 63 ≤ x.bits.toNat := by
  have hlt := x.bits.toNat_lt
  have hand : (x.bits &&& 0x8000000000000000).toNat =
      (x.bits.toNat.testBit 63).toNat * 2 ^ 63 := by
    rw [UInt64.toNat_and]
    exact Nat.and_two_pow x.bits.toNat 63
  rw [isNegative, bne_iff_ne, Ne, ← UInt64.toNat_inj, hand, Nat.testBit_eq_decide_div_mod_eq]
  simp
  omega

theorem rank_eq (x : Binary64) : x.rank =
    if x.isNegative then 2 ^ 63 - 1 - x.magnitude.toNat else 2 ^ 63 + x.magnitude.toNat := by
  have hlt := x.bits.toNat_lt
  have hbits : x.bits < 0x8000000000000000 ↔ x.bits.toNat < 2 ^ 63 := UInt64.lt_iff_toNat_lt
  rw [rank, toNat_magnitude]
  simp only [hbits, isNegative_iff]
  split <;> split <;> omega

/-- Negative patterns come before the others. Of two negative ones the first has the greater
magnitude, of two others the second has. -/
theorem totalLe_iff : x.totalLe y = true ↔
    if x.isNegative then y.isNegative = true → y.magnitude ≤ x.magnitude
    else y.isNegative = false ∧ x.magnitude ≤ y.magnitude := by
  have hx : x.magnitude.toNat < 2 ^ 63 := by
    rw [toNat_magnitude]
    omega
  have hy : y.magnitude.toNat < 2 ^ 63 := by
    rw [toNat_magnitude]
    omega
  rw [totalLe_iff_rank, rank_eq, rank_eq, UInt64.le_iff_toNat_le, UInt64.le_iff_toNat_le]
  cases x.isNegative <;> cases y.isNegative <;> simp <;> omega

/-! ### Parts of a number -/

theorem toNat_packComponents (s : UnpackedFloat.Sign) (e : BitVec 11) (m : BitVec 52) :
    (packComponents .binary64 s e m).toNat =
      (s.toBitVec.toNat * 2 ^ 11 + e.toNat) * 2 ^ 52 + m.toNat := by
  show (s.toBitVec ++ e ++ m).toNat = _
  rw [BitVec.toNat_append, BitVec.toNat_append, ← Nat.shiftLeft_add_eq_or_of_lt m.isLt,
    ← Nat.shiftLeft_add_eq_or_of_lt e.isLt, Nat.shiftLeft_eq, Nat.shiftLeft_eq]

theorem unpackSign_packComponents (s : UnpackedFloat.Sign) (e : BitVec 11) (m : BitVec 52) :
    unpackSign (packComponents .binary64 s e m) = s.toBitVec := by
  have he := e.isLt
  have hm := m.isLt
  have hs := s.toBitVec.isLt
  apply BitVec.eq_of_toNat_eq
  simp [unpackSign, toNat_packComponents, Nat.shiftRight_eq_div_pow]
  omega

/-- The significand of a normal number has a leading one. -/
theorem toNat_lead (m : BitVec 52) : (1#1 ++ m).toNat = 2 ^ 52 + m.toNat := by
  rw [BitVec.toNat_append, ← Nat.shiftLeft_add_eq_or_of_lt m.isLt]
  rfl

/-- A number that is packed again is made of the same parts. -/
theorem pack_unpack {b : BitVec Format.binary64.numBits}
    (h : UnpackedFloat.unpack .binary64 b ≠ .notANumber) :
    UnpackedFloat.pack .binary64 (UnpackedFloat.unpack .binary64 b) =
      packComponents .binary64 (.ofBitVec (unpackSign b)) (unpackExponent b)
        (unpackMantissa b) := by
  have hm : (unpackMantissa b).toNat < 2 ^ 52 := (unpackMantissa b).isLt
  have he : (unpackExponent b).toNat < 2 ^ 11 := (unpackExponent b).isLt
  have hbias : (Format.binary64.exponentBias : Int) = 1023 := by decide
  have hbits : Format.binary64.mantissaBits = 53 := rfl
  unfold UnpackedFloat.unpack at h ⊢
  dsimp only at h ⊢
  split
  · next hall =>
    split
    · next hzero =>
      rw [hall, hzero]
      rfl
    · next hzero => simp [hall, hzero] at h
  next hall =>
  have hroom : (unpackExponent b).toNat + 1 < 2 ^ 11 := by
    have hne : (unpackExponent b).toNat ≠ 2 ^ 11 - 1 := fun he => hall (BitVec.eq_of_toNat_eq he)
    omega
  split
  · next hnone =>
    split
    · next hzero =>
      rw [hnone, hzero]
      rfl
    · next hzero =>
      -- subnormal: the significand has no leading one
      have hpos : (unpackMantissa b).toNat ≠ 0 := fun h => hzero (BitVec.eq_of_toNat_eq h)
      have hlog := (Nat.log2_lt hpos).2 hm
      simp only [UnpackedFloat.pack]
      rw [if_neg (by rw [hnone]; decide), if_neg (by omega), hnone]
      simp
  · -- normal: the leading one of the significand is left out again
    have hlead := toNat_lead (unpackMantissa b)
    have hlog : (2 ^ 52 + (unpackMantissa b).toNat).log2 = 52 :=
      (Nat.log2_eq_iff (by omega)).2 (by omega)
    simp only [UnpackedFloat.pack, hlead]
    rw [if_neg (by omega), if_pos (by omega)]
    congr 1
    · apply BitVec.eq_of_toNat_eq
      simp
      omega
    · apply BitVec.eq_of_toNat_eq
      simp
      exact hm

/-- What the bits of a number say is not changed by packing it. -/
theorem unpacked_of_number (h : x.isNaN = false) :
    x.unpacked = UnpackedFloat.unpack .binary64 x.bits.toBitVec := by
  have hsign : ∀ b : BitVec 1, (UnpackedFloat.Sign.ofBitVec b).toBitVec = b := by decide
  have hne : UnpackedFloat.unpack .binary64 x.bits.toBitVec ≠ .notANumber := by
    rw [Ne, ← unpack_pack_eq_nan_iff, ← unpacked_eq, ← isNaN_iff, h]
    simp
  rw [unpacked_eq, pack_unpack hne]
  simp only [UnpackedFloat.unpack, unpackExponent_packComponents, unpackMantissa_packComponents,
    unpackSign_packComponents, hsign]

/-! ### Places by magnitude -/

/-- Where a number that is not negative stands, by its magnitude. -/
def placeOf (magnitude : Nat) : Int × Int × Int :=
  if magnitude = 0 then (0, 0, 0)
  else if magnitude < 2 ^ 52 then (1, -1074, magnitude)
  else if magnitude < 2047 * 2 ^ 52 then
    (1, (magnitude / 2 ^ 52 : Nat) - 1075, (2 ^ 52 + magnitude % 2 ^ 52 : Nat))
  else (2, 0, 0)

/-- The place on the side of zero that a sign says. -/
def sided (s : UnpackedFloat.Sign) (place : Int × Int × Int) : Int × Int × Int :=
  match s with
  | .negative => (-place.1, -place.2.1, -place.2.2)
  | .positive => place

theorem place_infinity (s : UnpackedFloat.Sign) : place (.infinity s) = sided s (2, 0, 0) := by
  cases s <;> rfl

theorem place_zero (s : UnpackedFloat.Sign) : place (.zero s) = sided s (0, 0, 0) := by
  cases s <;> rfl

theorem place_finite (s : UnpackedFloat.Sign) {m : Nat} (e : Int) (hm : 0 < m) :
    place (.finite s m e hm) = sided s (1, e, m) := by
  cases s <;> rfl

section Bits

variable (x)

theorem toNat_unpackExponent : (@unpackExponent .binary64 x.bits.toBitVec).toNat =
    x.bits.toNat / 2 ^ 52 % 2 ^ 11 := by
  simp [unpackExponent, Nat.shiftRight_eq_div_pow]

theorem toNat_unpackMantissa :
    (@unpackMantissa .binary64 x.bits.toBitVec).toNat = x.bits.toNat % 2 ^ 52 := by
  simp [unpackMantissa]

theorem unpackExponent_eq_zero : @unpackExponent .binary64 x.bits.toBitVec = 0#11 ↔
    x.bits.toNat / 2 ^ 52 % 2 ^ 11 = 0 := by
  rw [← BitVec.toNat_inj, toNat_unpackExponent]
  simp

theorem unpackMantissa_eq_zero :
    @unpackMantissa .binary64 x.bits.toBitVec = 0#52 ↔ x.bits.toNat % 2 ^ 52 = 0 := by
  rw [← BitVec.toNat_inj, toNat_unpackMantissa]
  simp

/-- The sign that the bits say. -/
theorem ofBitVec_unpackSign :
    UnpackedFloat.Sign.ofBitVec (@unpackSign .binary64 x.bits.toBitVec) =
      if x.isNegative then .negative else .positive := by
  have hlt := x.bits.toNat_lt
  have hbit : (@unpackSign .binary64 x.bits.toBitVec).toNat = x.bits.toNat / 2 ^ 63 := by
    simp [unpackSign, Nat.shiftRight_eq_div_pow]
    omega
  have hzero : @unpackSign .binary64 x.bits.toBitVec = 0#1 ↔ ¬ x.isNegative = true := by
    rw [← BitVec.toNat_inj, hbit, isNegative_iff]
    simp
  simp only [UnpackedFloat.Sign.ofBitVec, hzero, ite_not]

end Bits

/-- The place of a number is that of its magnitude, on its side of zero. -/
theorem place_unpacked (h : x.isNaN = false) : place x.unpacked =
    sided (if x.isNegative then .negative else .positive) (placeOf x.magnitude.toNat) := by
  have hlt := x.bits.toNat_lt
  have hbias : (Format.binary64.exponentBias : Int) = 1023 := by decide
  have hexponent := x.toNat_unpackExponent
  have hne : UnpackedFloat.unpack .binary64 x.bits.toBitVec ≠ .notANumber := by
    rw [← unpacked_of_number h, Ne, ← isNaN_iff, h]
    simp
  rw [Ne, unpack_eq_nan_iff, exponent_eq_iff, Ne, unpackMantissa_eq_zero] at hne
  rw [unpacked_of_number h, ← ofBitVec_unpackSign, toNat_magnitude]
  unfold UnpackedFloat.unpack
  dsimp only
  split
  · next hall =>
    rw [exponent_eq_iff] at hall
    rw [if_pos (by rw [unpackMantissa_eq_zero]; omega), place_infinity, placeOf,
      if_neg (by omega), if_neg (by omega), if_neg (by omega)]
  next hall =>
  rw [exponent_eq_iff] at hall
  split
  · next hnone =>
    rw [unpackExponent_eq_zero] at hnone
    split
    · next hzero =>
      rw [unpackMantissa_eq_zero] at hzero
      rw [place_zero, placeOf, if_pos (by omega)]
    · next hzero =>
      rw [unpackMantissa_eq_zero] at hzero
      have he : ((@unpackExponent .binary64 x.bits.toBitVec).toNat : Int) -
          (Format.binary64.exponentBias + (52 : Nat)) + 1 = -1074 := by omega
      have hm : x.bits.toNat % 2 ^ 52 = x.bits.toNat % 2 ^ 63 := by omega
      rw [place_finite, placeOf, if_neg (by omega), if_pos (by omega), he, toNat_unpackMantissa,
        hm]
  · next hnone =>
    rw [unpackExponent_eq_zero] at hnone
    have he : ((@unpackExponent .binary64 x.bits.toBitVec).toNat : Int) -
        (Format.binary64.exponentBias + (52 : Nat)) =
          (x.bits.toNat % 2 ^ 63 / 2 ^ 52 : Nat) - 1075 := by omega
    have hm : x.bits.toNat % 2 ^ 52 = x.bits.toNat % 2 ^ 63 % 2 ^ 52 := by omega
    rw [place_finite, placeOf, if_neg (by omega), if_neg (by omega), if_pos (by omega), he,
      toNat_lead, toNat_unpackMantissa, hm]

/-! ### The numeric order -/

theorem before_placeOf {m n : Nat} (h : m ≤ n) : Before (placeOf m) (placeOf n) := by
  unfold placeOf Before
  split_ifs <;> simp <;> omega

/-- On the other side of zero places are turned over. -/
theorem before_negative {m n : Nat} (h : n ≤ m) :
    Before (sided .negative (placeOf m)) (sided .negative (placeOf n)) := by
  have hb := before_placeOf h
  unfold Before sided at *
  simp only
  omega

theorem before_sides (m n : Nat) :
    Before (sided .negative (placeOf m)) (sided .positive (placeOf n)) := by
  unfold sided placeOf Before
  split_ifs <;> simp

/-- Of two numbers, the one that comes first is at most the other. -/
theorem le_of_totalLe (hx : x.isNaN = false) (hy : y.isNaN = false) (h : x.totalLe y = true) :
    x.le y = true := by
  rw [le_iff, place_unpacked hx, place_unpacked hy]
  refine ⟨hx, hy, ?_⟩
  rw [totalLe_iff, UInt64.le_iff_toNat_le, UInt64.le_iff_toNat_le] at h
  cases hnx : x.isNegative with
  | false =>
    rw [hnx, if_neg (by simp)] at h
    rw [h.1]
    exact before_placeOf h.2
  | true =>
    rw [hnx, if_pos rfl] at h
    cases hny : y.isNegative with
    | false => exact before_sides _ _
    | true => exact before_negative (h hny)

end Binary64

end HandleBench
