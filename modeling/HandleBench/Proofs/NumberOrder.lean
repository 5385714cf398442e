import HandleBench.Operands
import Mathlib

/-!
# The order of numbers

Subtracting and comparing go through what the bits of a number say: that it is infinite or zero, a
sign with an exponent and a significand, or no number at all. Numbers that are none of the NaNs are
ordered by `Binary64.le`, any two of them, so the greater of two numbers is at most a third one if
both are, `Binary64.maxNumber_le_iff`. A NaN takes no part in this: it is not at most anything, and
`Binary64.maxNumber` passes it over.
-/

namespace HandleBench

open Float.Model (UnpackedFloat Format)
open Float.Model.UnpackedFloat (unpackExponent unpackMantissa packComponents
  unpackExponent_packComponents unpackMantissa_packComponents)

namespace Binary64

/-! ### What the bits say -/

/-- What the bits of a number say. -/
def unpacked (x : Binary64) : UnpackedFloat := x.toFloat.toModel.unpack

theorem unpack_eq_nan_iff (b : BitVec Format.binary64.numBits) :
    UnpackedFloat.unpack .binary64 b = .notANumber ↔
      unpackExponent b = -1#11 ∧ unpackMantissa b ≠ 0#52 := by
  unfold UnpackedFloat.unpack
  dsimp only
  split
  · next he =>
    split
    · next hm => simp [hm]
    · next hm => exact ⟨fun _ => ⟨he, hm⟩, fun _ => rfl⟩
  · next he =>
    refine ⟨fun h => ?_, fun h => absurd h.1 he⟩
    split at h
    · split at h <;> cases h
    · cases h

theorem unpack_packComponents_ne_nan (s : UnpackedFloat.Sign) {e : BitVec 11} {m : BitVec 52}
    (h : e ≠ -1#11 ∨ m = 0#52) :
    UnpackedFloat.unpack .binary64 (packComponents .binary64 s e m) ≠ .notANumber := by
  rw [Ne, unpack_eq_nan_iff, unpackExponent_packComponents, unpackMantissa_packComponents]
  rintro ⟨he, hm⟩
  exact h.elim (· he) hm

/-- An exponent in the range of the format is not the one of infinities and NaNs. -/
theorem ofNat_exponent_ne {n : Nat} (h : n + 1 < 2 ^ 11) : BitVec.ofNat 11 n ≠ -1#11 := by
  intro he
  have hnat := congrArg BitVec.toNat he
  simp at hnat
  omega

/-- Packing makes no NaN of a number and no number of a NaN. -/
theorem unpack_pack_eq_nan_iff (u : UnpackedFloat) :
    UnpackedFloat.unpack .binary64 (UnpackedFloat.pack .binary64 u) = .notANumber ↔
      u = .notANumber := by
  cases u with
  | notANumber => exact ⟨fun _ => rfl, fun _ => (unpack_eq_nan_iff _).2 (by decide)⟩
  | infinity s => exact iff_of_false (unpack_packComponents_ne_nan s (.inr rfl)) (by simp)
  | zero s => exact iff_of_false (unpack_packComponents_ne_nan s (.inr rfl)) (by simp)
  | finite s m e hm =>
    refine iff_of_false ?_ (by simp)
    simp only [UnpackedFloat.pack]
    split
    · exact unpack_packComponents_ne_nan s (.inr rfl)
    · next hroom =>
      split
      · exact unpack_packComponents_ne_nan s (.inl (ofNat_exponent_ne (Nat.lt_of_not_le hroom)))
      · exact unpack_packComponents_ne_nan s (.inl (by decide))

variable (x y : Binary64)

theorem unpacked_eq : x.unpacked = UnpackedFloat.unpack .binary64 (UnpackedFloat.pack .binary64
    (UnpackedFloat.unpack .binary64 x.bits.toBitVec)) := rfl

theorem exponent_eq_iff : @unpackExponent .binary64 x.bits.toBitVec = -1#11 ↔
    x.bits.toNat / 2 ^ 52 % 2 ^ 11 = 2 ^ 11 - 1 := by
  rw [← BitVec.toNat_inj]
  simp [unpackExponent, Nat.shiftRight_eq_div_pow]

theorem toNat_magnitude : x.magnitude.toNat = x.bits.toNat % 2 ^ 63 := by
  rw [magnitude, UInt64.toNat_and]
  exact Nat.and_two_pow_sub_one_eq_mod _ 63

/-- The NaNs are what is no number. -/
theorem isNaN_iff : x.isNaN = true ↔ x.unpacked = .notANumber := by
  have hmantissa : @unpackMantissa .binary64 x.bits.toBitVec = 0#52 ↔
      x.bits.toNat % 2 ^ 52 = 0 := by
    rw [← BitVec.toNat_inj]
    simp [unpackMantissa]
  rw [unpacked_eq, unpack_pack_eq_nan_iff, unpack_eq_nan_iff, Ne, exponent_eq_iff, hmantissa,
    isNaN, decide_eq_true_iff, gt_iff_lt, UInt64.lt_iff_toNat_lt, toNat_magnitude]
  simp
  omega

/-- The sign does not make a NaN. -/
theorem isNaN_abs : x.abs.isNaN = x.isNaN := by
  have hmagnitude : x.abs.magnitude = x.magnitude := by
    rw [← UInt64.toNat_inj, toNat_magnitude, abs, toNat_magnitude, Nat.mod_mod]
  rw [isNaN, isNaN, hmagnitude]

/-! ### Differences -/

/-- What is unpacked is finite and in the range of the format. -/
structure InRange (u : UnpackedFloat) : Prop where
  /-- It is a number. -/
  ne_nan : u ≠ .notANumber
  /-- It is not infinite. -/
  ne_infinity : ∀ s, u ≠ .infinity s
  /-- Its exponent leaves room for infinities. -/
  room : ∀ s m e hm, u = .finite s m e hm → (e + 1075).toNat + 1 < 2 ^ 11

theorem inRange_unpack {b : BitVec Format.binary64.numBits} (h : unpackExponent b ≠ -1#11) :
    InRange (UnpackedFloat.unpack .binary64 b) := by
  have hlt : (unpackExponent b).toNat + 1 < 2 ^ 11 := by
    have hne : (unpackExponent b).toNat ≠ 2 ^ 11 - 1 := fun he => h (BitVec.eq_of_toNat_eq he)
    have hlt : (unpackExponent b).toNat < 2 ^ 11 := (unpackExponent b).isLt
    omega
  unfold UnpackedFloat.unpack
  dsimp only
  rw [if_neg h]
  split
  · split
    · exact ⟨by simp, by simp, by simp⟩
    · next hsubnormal _ =>
      refine ⟨by simp, by simp, fun s m e hm he => ?_⟩
      rw [hsubnormal] at he
      cases he
      decide
  · refine ⟨by simp, by simp, fun s m e hm he => ?_⟩
    cases he
    have hbias : (Format.binary64.exponentBias : Int) = 1023 := by decide
    rw [hbias]
    omega

theorem InRange.pack {u : UnpackedFloat} (hu : InRange u) :
    unpackExponent (UnpackedFloat.pack .binary64 u) ≠ -1#11 := by
  cases u with
  | notANumber => exact absurd rfl hu.ne_nan
  | infinity s => exact absurd rfl (hu.ne_infinity s)
  | zero s =>
    show unpackExponent (packComponents .binary64 s 0 0) ≠ _
    rw [unpackExponent_packComponents]
    decide
  | finite s m e hm =>
    have hroom := hu.room s m e hm rfl
    have hbiased : e + (Format.binary64.exponentBias : Int) + (52 : Nat) = e + 1075 := by
      have hbias : (Format.binary64.exponentBias : Int) = 1023 := by decide
      omega
    simp only [UnpackedFloat.pack, hbiased]
    rw [if_neg (Nat.not_le_of_lt hroom)]
    split
    · rw [unpackExponent_packComponents]
      exact ofNat_exponent_ne hroom
    · rw [unpackExponent_packComponents]
      decide

/-- Finite numbers are in range. -/
theorem inRange_unpacked (h : x.isFinite = true) : InRange x.unpacked := by
  refine inRange_unpack (inRange_unpack fun he => ?_).pack
  rw [exponent_eq_iff] at he
  rw [isFinite, decide_eq_true_iff, UInt64.lt_iff_toNat_lt, toNat_magnitude] at h
  simp at h
  omega

theorem unpacked_sub : (x - y).unpacked = UnpackedFloat.unpack .binary64 (UnpackedFloat.pack
    .binary64 (UnpackedFloat.unpack .binary64 (UnpackedFloat.pack .binary64
      (UnpackedFloat.sub .binary64 x.unpacked y.unpacked)))) := rfl

theorem round_ne_nan (s : UnpackedFloat.Sign) (m : Nat) (e : Int) :
    UnpackedFloat.round .binary64 s m e ≠ .notANumber := by
  simp only [UnpackedFloat.round, UnpackedFloat.roundWithAccuracy]
  split <;> simp

theorem normalize_ne_nan (m e : Int) (s : UnpackedFloat.Sign) :
    UnpackedFloat.normalize .binary64 m e s ≠ .notANumber := by
  unfold UnpackedFloat.normalize
  split
  · exact round_ne_nan _ _ _
  · simp
  · exact round_ne_nan _ _ _

/-- The difference of a finite number and any other one is a NaN only if the other one is. -/
theorem isNaN_sub (h : x.isFinite = true) : (x - y).isNaN = y.isNaN := by
  rw [Bool.eq_iff_iff, isNaN_iff, isNaN_iff, unpacked_sub, unpack_pack_eq_nan_iff,
    unpack_pack_eq_nan_iff]
  have hx := x.inRange_unpacked h
  generalize x.unpacked = u at hx
  generalize y.unpacked = v
  cases u with
  | notANumber => exact absurd rfl hx.ne_nan
  | infinity s => exact absurd rfl (hx.ne_infinity s)
  | zero s =>
    cases v with
    | zero s' =>
      simp only [UnpackedFloat.sub]
      split <;> simp
    | _ => simp [UnpackedFloat.sub]
  | finite s m e hm =>
    cases v with
    | finite s' m' e' hm' => simp [UnpackedFloat.sub, normalize_ne_nan]
    | _ => simp [UnpackedFloat.sub]

/-! ### The order -/

theorem le_eq : x.le y = x.unpacked.le y.unpacked := by
  show decide (Float.le _ _ = true) = _
  rw [Bool.decide_eq_true]
  show decide (Float.Model.le _ _ = true) = _
  rw [Bool.decide_eq_true]
  rfl

/-- Where a number stands: by its sign, zeros and infinities apart, by its exponent and by its
significand, the last two turned over for negative numbers. -/
def place : UnpackedFloat → Int × Int × Int
  | .infinity .negative => (-2, 0, 0)
  | .finite .negative m e _ => (-1, -e, -m)
  | .finite .positive m e _ => (1, e, m)
  | .infinity .positive => (2, 0, 0)
  | _ => (0, 0, 0)

/-- The one place is at most the other. -/
def Before (a b : Int × Int × Int) : Prop :=
  a.1 < b.1 ∨ a.1 = b.1 ∧ (a.2.1 < b.2.1 ∨ a.2.1 = b.2.1 ∧ a.2.2 ≤ b.2.2)

theorem Before.trans {a b c : Int × Int × Int} (h : Before a b) (h' : Before b c) :
    Before a c := by
  unfold Before at h h' ⊢
  omega

theorem Before.total (a b : Int × Int × Int) : Before a b ∨ Before b a := by
  unfold Before
  omega

/-- Finite numbers of one sign are compared by their exponents first. -/
theorem isLE_then_iff (e e' : Int) (m m' : Nat) :
    ((compare e e').then (compare m m')).isLE = true ↔ e < e' ∨ e = e' ∧ m ≤ m' := by
  rcases Int.lt_trichotomy e e' with h | rfl | h
  · simp [Int.compare_eq_lt.2 h, h]
  · simp [Nat.isLE_compare]
  · have hne : ¬ (e < e' ∨ e = e' ∧ m ≤ m') := by omega
    simp [Int.compare_eq_gt.2 h, hne]

theorem isGE_then_iff (e e' : Int) (m m' : Nat) :
    ((compare e e').then (compare m m')).isGE = true ↔ e' < e ∨ e = e' ∧ m' ≤ m := by
  rcases Int.lt_trichotomy e e' with h | rfl | h
  · have hne : ¬ (e' < e ∨ e = e' ∧ m' ≤ m) := by omega
    simp [Int.compare_eq_lt.2 h, hne]
  · simp [Nat.isGE_compare]
  · simp [Int.compare_eq_gt.2 h, h]

/-- Numbers are compared by their places, and a NaN is not compared at all. -/
theorem unpacked_le_iff (u v : UnpackedFloat) :
    u.le v = true ↔ u ≠ .notANumber ∧ v ≠ .notANumber ∧ Before (place u) (place v) := by
  cases u with
  | notANumber => simp [UnpackedFloat.le, UnpackedFloat.compare]
  | infinity s =>
    cases v with
    | infinity s' =>
      cases s <;> cases s' <;>
        simp [UnpackedFloat.le, UnpackedFloat.compare, place, Before] <;> rfl
    | finite s' m e hm =>
      cases s <;> cases s' <;> simp [UnpackedFloat.le, UnpackedFloat.compare, place, Before]
    | _ => cases s <;> simp [UnpackedFloat.le, UnpackedFloat.compare, place, Before]
  | zero s =>
    cases v with
    | notANumber | zero s' => simp [UnpackedFloat.le, UnpackedFloat.compare, place, Before]
    | infinity s' | finite s' m e hm =>
      cases s' <;> simp [UnpackedFloat.le, UnpackedFloat.compare, place, Before]
  | finite s m e hm =>
    cases v with
    | notANumber => simp [UnpackedFloat.le, UnpackedFloat.compare]
    | zero s' => cases s <;> simp [UnpackedFloat.le, UnpackedFloat.compare, place, Before]
    | infinity s' =>
      cases s <;> cases s' <;> simp [UnpackedFloat.le, UnpackedFloat.compare, place, Before]
    | finite s' m' e' hm' =>
      cases s <;> cases s' <;>
        simp [UnpackedFloat.le, UnpackedFloat.compare, place, Before, isLE_then_iff, isGE_then_iff]

variable {x y}

theorem le_iff : x.le y = true ↔
    x.isNaN = false ∧ y.isNaN = false ∧ Before (place x.unpacked) (place y.unpacked) := by
  rw [le_eq, unpacked_le_iff, Ne, ← isNaN_iff, Ne, ← isNaN_iff, Bool.not_eq_true,
    Bool.not_eq_true]

theorem le_trans {z : Binary64} (h : x.le y = true) (h' : y.le z = true) : x.le z = true := by
  rw [le_iff] at h h' ⊢
  exact ⟨h.1, h'.2.1, h.2.2.trans h'.2.2⟩

theorem le_of_not_le (hx : x.isNaN = false) (hy : y.isNaN = false) (h : ¬ x.le y = true) :
    y.le x = true := by
  rw [le_iff] at h ⊢
  refine ⟨hy, hx, (Before.total _ _).resolve_left fun hb => h ⟨hx, hy, hb⟩⟩

/-! ### The greater of two numbers -/

theorem isNaN_maxNumber (hx : x.isNaN = false) (y : Binary64) :
    (x.maxNumber y).isNaN = false := by
  unfold maxNumber
  rw [if_neg (by simp [hx])]
  split
  · exact hx
  · next hy =>
    split
    · simpa using hy
    · exact hx

/-- **The greater of two numbers is within a bound if both are**, and a NaN counts as within every
bound. -/
theorem maxNumber_le_iff (hx : x.isNaN = false) (y bound : Binary64) :
    (x.maxNumber y).le bound = true ↔
      x.le bound = true ∧ (y.isNaN = true ∨ y.le bound = true) := by
  unfold maxNumber
  rw [if_neg (by simp [hx])]
  split
  · next hy => simp [hy]
  · next hy =>
    split
    · next hle =>
      refine ⟨fun h => ⟨le_trans hle h, .inr h⟩, fun h => ?_⟩
      exact h.2.resolve_left hy
    · next hle =>
      have hyx := le_of_not_le hx (by simpa using hy) hle
      exact ⟨fun h => ⟨h, .inr (le_trans hyx h)⟩, And.left⟩

end Binary64

end HandleBench
