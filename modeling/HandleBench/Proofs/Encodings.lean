import HandleBench.Text.Utf8

/-!
# Encoded texts

The octets of a text are read as that text (`Text.Utf8.decode_encode`): the octets of one character
at the front are read as the character, whatever stands behind them (`front_utf8EncodeChar`), with
one lemma for each count of octets that a character can have.
-/

namespace HandleBench.Text.Utf8

/-! ### The front of a sequence, by its lead octet -/

theorem front_one {a : UInt8} (ha : a.toNat < 0x80) (rest : Octets) :
    front (a :: rest) = .char (Char.ofNat a.toNat) rest := by
  have hone : a < 0x80 := UInt8.lt_iff_toNat_lt.mpr ha
  simp only [front, hone, if_true]

theorem front_two {a b : UInt8} (ha : 0xC2 ≤ a.toNat ∧ a.toNat ≤ 0xDF) (hb : isTail b = true)
    (rest : Octets) :
    front (a :: b :: rest) = .char (Char.ofNat ((a.toNat - 0xC0) * 64 + tailBits b)) rest := by
  have hone : ¬ a < 0x80 := by simp [UInt8.lt_iff_toNat_lt]; omega
  have htwo : (0xC2 ≤ a && a ≤ 0xDF) = true := by simp [UInt8.le_iff_toNat_le]; omega
  simp only [front, hone, htwo, hb, if_true, if_false]

theorem front_three {a b c : UInt8} (ha : 0xE0 ≤ a.toNat ∧ a.toNat ≤ 0xEF)
    (hb : ((secondRange a).1 ≤ b && b ≤ (secondRange a).2) = true) (hc : isTail c = true)
    (rest : Octets) :
    front (a :: b :: c :: rest) =
      .char (Char.ofNat (((a.toNat - 0xE0) * 64 + tailBits b) * 64 + tailBits c)) rest := by
  have hone : ¬ a < 0x80 := by simp [UInt8.lt_iff_toNat_lt]; omega
  have htwo : (0xC2 ≤ a && a ≤ 0xDF) = false := by simp [UInt8.le_iff_toNat_le]; omega
  have hthree : (0xE0 ≤ a && a ≤ 0xEF) = true := by simp [UInt8.le_iff_toNat_le]; omega
  simp only [front, hone, htwo, hthree, hb, hc, if_true, if_false, Bool.false_eq_true]

theorem front_four {a b c d : UInt8} (ha : 0xF0 ≤ a.toNat ∧ a.toNat ≤ 0xF4)
    (hb : ((secondRange a).1 ≤ b && b ≤ (secondRange a).2) = true) (hc : isTail c = true)
    (hd : isTail d = true) (rest : Octets) :
    front (a :: b :: c :: d :: rest) =
      .char (Char.ofNat ((((a.toNat - 0xF0) * 64 + tailBits b) * 64 + tailBits c) * 64 +
        tailBits d)) rest := by
  have hone : ¬ a < 0x80 := by simp [UInt8.lt_iff_toNat_lt]; omega
  have htwo : (0xC2 ≤ a && a ≤ 0xDF) = false := by simp [UInt8.le_iff_toNat_le]; omega
  have hthree : (0xE0 ≤ a && a ≤ 0xEF) = false := by simp [UInt8.le_iff_toNat_le]; omega
  have hfour : (0xF0 ≤ a && a ≤ 0xF4) = true := by simp [UInt8.le_iff_toNat_le]; omega
  simp only [front, hone, htwo, hthree, hfour, hb, hc, hd, if_true, if_false, Bool.false_eq_true]

/-! ### The octets of a character -/

theorem isTail_of_toNat {b : UInt8} (hlow : 0x80 ≤ b.toNat) (hhigh : b.toNat ≤ 0xBF) :
    isTail b = true := by
  simp [isTail, UInt8.le_iff_toNat_le, hlow, hhigh]

/-- The second octet is in the range that its lead octet leaves it. -/
theorem mem_secondRange {a b : UInt8} (hlow : 0x80 ≤ b.toNat) (hhigh : b.toNat ≤ 0xBF)
    (hoverlong : a.toNat = 0xE0 → 0xA0 ≤ b.toNat) (hpair : a.toNat = 0xED → b.toNat ≤ 0x9F)
    (hoverlong' : a.toNat = 0xF0 → 0x90 ≤ b.toNat) (hgreat : a.toNat = 0xF4 → b.toNat ≤ 0x8F) :
    ((secondRange a).1 ≤ b && b ≤ (secondRange a).2) = true := by
  simp only [secondRange, ← UInt8.toNat_inj]
  split
  case isTrue h => simp [UInt8.le_iff_toNat_le, hoverlong h, hhigh]
  split
  case isTrue h => simp [UInt8.le_iff_toNat_le, hpair h, hlow]
  split
  case isTrue h => simp [UInt8.le_iff_toNat_le, hoverlong' h, hhigh]
  split
  case isTrue h => simp [UInt8.le_iff_toNat_le, hgreat h, hlow]
  case isFalse => simp [UInt8.le_iff_toNat_le, hlow, hhigh]

theorem toNat_ofNat {n : Nat} (h : n < 256) : (UInt8.ofNat n).toNat = n :=
  UInt8.toNat_ofNat_of_lt h

/-- **A character is read back from its octets.** -/
theorem front_utf8EncodeChar (c : Char) (rest : Octets) :
    front (String.utf8EncodeChar c ++ rest) = .char c rest := by
  have hvalid : c.val.toNat < 0xD800 ∨ 0xDFFF < c.val.toNat ∧ c.val.toNat < 0x110000 := c.valid
  have hnumber : ∀ n, n = c.val.toNat → Front.char (Char.ofNat n) rest = .char c rest := by
    rintro _ rfl
    exact congrArg (Front.char · rest) (Char.ofNat_toNat c)
  unfold String.utf8EncodeChar
  generalize c.val.toNat = v at hvalid hnumber ⊢
  dsimp only
  -- one case for each count of octets
  split
  case isTrue hone =>
    have ha := toNat_ofNat (n := v) (by omega)
    exact (front_one (by omega) rest).trans (hnumber _ ha)
  split
  case isTrue htwo =>
    have ha := toNat_ofNat (n := v / 64 % 0x20 + 0xC0) (by omega)
    have hb := toNat_ofNat (n := v % 0x40 + 0x80) (by omega)
    refine (front_two (by omega) (isTail_of_toNat (by omega) (by omega)) rest).trans
      (hnumber _ ?_)
    unfold tailBits
    omega
  split
  case isTrue hthree =>
    have ha := toNat_ofNat (n := v / 4096 % 0x10 + 0xE0) (by omega)
    have hb := toNat_ofNat (n := v / 64 % 0x40 + 0x80) (by omega)
    have hc := toNat_ofNat (n := v % 0x40 + 0x80) (by omega)
    refine (front_three (by omega) (mem_secondRange (by omega) (by omega) (by omega) (by omega)
      (by omega) (by omega)) (isTail_of_toNat (by omega) (by omega)) rest).trans (hnumber _ ?_)
    unfold tailBits
    omega
  case isFalse hfour =>
    have ha := toNat_ofNat (n := v / 262144 % 0x08 + 0xF0) (by omega)
    have hb := toNat_ofNat (n := v / 4096 % 0x40 + 0x80) (by omega)
    have hc := toNat_ofNat (n := v / 64 % 0x40 + 0x80) (by omega)
    have hd := toNat_ofNat (n := v % 0x40 + 0x80) (by omega)
    refine (front_four (by omega) (mem_secondRange (by omega) (by omega) (by omega) (by omega)
      (by omega) (by omega)) (isTail_of_toNat (by omega) (by omega))
      (isTail_of_toNat (by omega) (by omega)) rest).trans (hnumber _ ?_)
    unfold tailBits
    omega

theorem decodeFrom_encode (index : Nat) (cs : List Char) :
    decodeFrom index (cs.flatMap String.utf8EncodeChar) = .ok cs := by
  induction cs generalizing index with
  | nil => simp [decodeFrom, front]
  | cons c cs ih =>
    have hfront := front_utf8EncodeChar c (cs.flatMap String.utf8EncodeChar)
    rw [List.flatMap_cons, decodeFrom]
    split
    case h_2 c' rest heq =>
      rw [hfront] at heq
      cases heq
      rw [ih]
      rfl
    all_goals
      rename_i heq
      rw [hfront] at heq
      cases heq

/-- **A text is read back from its octets.** -/
theorem decode_encode (text : String) : decode (encode text) = .ok text := by
  rw [decode, encode, decodeFrom_encode]
  exact congrArg Except.ok String.ofList_toList

end HandleBench.Text.Utf8
