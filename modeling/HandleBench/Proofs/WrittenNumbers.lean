import HandleBench.Decimal.Layout
import HandleBench.Json.Number
import HandleBench.Json.Reader
import HandleBench.Json.Writer
import Mathlib.Algebra.Order.Field.Power
import Mathlib.Data.Rat.Cast.Order
import Mathlib.Tactic.Positivity
import Mathlib.Tactic.Ring

/-!
# Written numbers

The interchange format has a grammar for numbers (`Decimal.Parts.Grammatical`): digits wherever
digits can stand, and no zero in front of others. Every layout keeps to it
(`Decimal.Layout.grammatical_parts`). The one number that starts with a zero is zero: any other has
a shortest decimal that is not zero, because the search for it starts with the grid of the leading
digit, on which the number is at least one (`Decimal.pow_leadingPlace_le`). The comparisons of the
search are exact, so they are those of the numbers (`Decimal.tenSide_le_twoSide_iff`).

The reader finds again, part by part, what is written by the grammar (`Json.numberFrom_chars`),
whatever it is worth. What a natural number is worth is found as well, if it fits into a word
(`Json.word64?_ofNat`).
-/

namespace HandleBench.Decimal

/-! ### Digits -/

/-- Decimal digits, at least one. -/
structure Digits (digits : List Nat) : Prop where
  /-- There is one. -/
  some : digits ≠ []
  /-- Each is less than ten. -/
  small : ∀ d ∈ digits, d < 10

theorem digits_digitsOf (n : Nat) : Digits (digitsOf n) := by
  induction n using digitsOf.induct with
  | case1 n hn =>
    rw [digitsOf, if_pos hn]
    exact ⟨List.cons_ne_nil _ _, by simpa using hn⟩
  | case2 n hn ih =>
    rw [digitsOf, if_neg hn]
    refine ⟨by simp, fun d hd => ?_⟩
    rcases List.mem_append.mp hd with hd | hd
    · exact ih.small d hd
    · rw [List.mem_singleton.mp hd]
      exact Nat.mod_lt n (by decide)

/-- Only zero starts with a zero. -/
theorem head?_digitsOf_ne {n : Nat} (h : n ≠ 0) : (digitsOf n).head? ≠ some 0 := by
  induction n using digitsOf.induct with
  | case1 n hn =>
    rw [digitsOf, if_pos hn]
    simpa using h
  | case2 n hn ih =>
    rw [digitsOf, if_neg hn, List.head?_append_of_ne_nil _ (digits_digitsOf _).some]
    exact ih (by omega)

theorem ofDigits_digitsOf (n : Nat) : Text.ofDigits 10 (digitsOf n) = n := by
  induction n using digitsOf.induct with
  | case1 n hn => simp [digitsOf, hn, Text.ofDigits]
  | case2 n hn ih =>
    rw [Text.ofDigits] at ih ⊢
    rw [digitsOf, if_neg hn, List.foldl_append, ih]
    simp only [List.foldl_cons, List.foldl_nil]
    omega

/-! ### Decimals that are not zero -/

/-- The unit in which `tenSide` and `twoSide` count. -/
def unitOf (g s : Int) : ℚ := 10 ^ (-g).toNat * 2 ^ (-s).toNat

theorem unitOf_pos (g s : Int) : 0 < unitOf g s := by
  rw [unitOf]
  positivity

/-- A power is a power up over a power down. -/
theorem zpow_eq (b : ℚ) (hb : b ≠ 0) (g : Int) :
    b ^ g.toNat = b ^ g * b ^ (-g).toNat := by
  rw [← zpow_natCast, ← zpow_natCast, ← zpow_add₀ hb]
  congr 1
  omega

theorem tenSide_eq (a : Nat) (g s : Int) : (tenSide a g s : ℚ) = a * 10 ^ g * unitOf g s := by
  have hten := zpow_eq 10 (by decide) g
  simp only [tenSide, unitOf, Nat.pow_eq, Nat.cast_mul, Nat.cast_pow, Nat.cast_ofNat]
  rw [hten]
  ring

theorem twoSide_eq (b : Nat) (g s : Int) : (twoSide b g s : ℚ) = b * 2 ^ s * unitOf g s := by
  have htwo := zpow_eq 2 (by decide) s
  simp only [twoSide, unitOf, Nat.pow_eq, Nat.cast_mul, Nat.cast_pow, Nat.cast_ofNat]
  rw [htwo]
  ring

/-- The two sides compare as the numbers do. -/
theorem tenSide_le_twoSide_iff {a b : Nat} {g s : Int} :
    tenSide a g s ≤ twoSide b g s ↔ (a : ℚ) * 10 ^ g ≤ b * 2 ^ s := by
  rw [← Nat.cast_le (α := ℚ), tenSide_eq, twoSide_eq]
  exact mul_le_mul_iff_left₀ (unitOf_pos g s)

theorem digitCount_pos (n : Nat) : 0 < digitCount n := Nat.length_toDigits_pos

theorem digitCount_le_iff {n k : Nat} (hk : 0 < k) : digitCount n ≤ k ↔ n < 10 ^ k :=
  Nat.length_toDigits_le_iff (by decide) hk

/-- A number has as many digits as the power of ten above it has zeros. -/
theorem lt_pow_digitCount (n : Nat) : n < 10 ^ digitCount n :=
  (digitCount_le_iff (digitCount_pos n)).mp (Nat.le_refl _)

/-- The power of ten of its leading digit is not above a number. -/
theorem pow_digitCount_le {n : Nat} (hn : n ≠ 0) : 10 ^ (digitCount n - 1) ≤ n := by
  rcases Nat.eq_zero_or_pos (digitCount n - 1) with hone | hmore
  · rw [hone]
    exact Nat.pos_of_ne_zero hn
  · have hcount := digitCount_pos n
    exact Nat.le_of_not_lt fun hlt =>
      absurd ((digitCount_le_iff hmore).mpr hlt) (by omega)

/-- A quotient is no less than a power of ten that is great enough below its bar. -/
theorem zpow_neg_mul_le {num den k : Nat} (h : den ≤ num * 10 ^ k) :
    (10 : ℚ) ^ (-(k : Int)) * den ≤ num := by
  have hle : (den : ℚ) ≤ num * 10 ^ k := by exact_mod_cast h
  rw [zpow_neg, zpow_natCast, inv_mul_le_iff₀ (by positivity), mul_comm]
  exact hle

/-- The leading digit of a quotient that is at least one. -/
theorem zpow_digitCount_mul_le {num den : Nat} (hden : 0 < den) (h : den ≤ num) :
    (10 : ℚ) ^ ((digitCount (num / den) : Int) - 1) * den ≤ num := by
  have hquotient : num / den ≠ 0 := (Nat.div_pos h hden).ne'
  have hcount := digitCount_pos (num / den)
  have hplace : (digitCount (num / den) : Int) - 1 = (digitCount (num / den) - 1 : Nat) := by
    omega
  have hpow := Nat.mul_le_of_le_div _ _ _ (pow_digitCount_le hquotient)
  rw [hplace, zpow_natCast]
  exact_mod_cast hpow

theorem tenSide_one_pos (g s : Int) : 0 < tenSide 1 g s := by
  simp [tenSide, Nat.pow_eq]

theorem zpow_leadingPlace_mul_le {b : Nat} (hb : b ≠ 0) (s : Int) :
    (10 : ℚ) ^ leadingPlace b s * tenSide 1 0 s ≤ twoSide b 0 s := by
  have hden := tenSide_one_pos 0 s
  have hnum : 0 < twoSide b 0 s := by simp [twoSide, Nat.pow_eq, Nat.pos_of_ne_zero hb]
  rw [leadingPlace]
  generalize twoSide b 0 s = num at *
  generalize tenSide 1 0 s = den at *
  dsimp only
  split
  case isTrue hle => exact zpow_digitCount_mul_le hden hle
  case isFalse =>
    have hcount := digitCount_pos (den / num)
    split
    case isTrue heq =>
      have hplace : (1 : Int) - digitCount (den / num) =
          -((digitCount (den / num) - 1 : Nat) : Int) := by omega
      rw [hplace]
      exact zpow_neg_mul_le (Nat.le_of_eq heq)
    case isFalse =>
      have hbelow : den < num * (den / num + 1) := Nat.lt_mul_div_succ den hnum
      have hpow : num * (den / num + 1) ≤ num * 10 ^ digitCount (den / num) :=
        Nat.mul_le_mul_left num (lt_pow_digitCount _)
      exact zpow_neg_mul_le (Nat.le_of_lt (Nat.lt_of_lt_of_le hbelow hpow))

/-- A number is no less than the power of ten of its leading digit. -/
theorem pow_leadingPlace_le {b : Nat} (hb : b ≠ 0) (s : Int) :
    (10 : ℚ) ^ leadingPlace b s ≤ b * 2 ^ s := by
  have hscaled := zpow_leadingPlace_mul_le hb s
  rw [tenSide_eq, twoSide_eq, Nat.cast_one, one_mul, zpow_zero, one_mul] at hscaled
  exact le_of_mul_le_mul_right hscaled (unitOf_pos 0 s)

/-- The point of the grid `10 ^ g` below a number. -/
def below (x : Dyadic) (g : Int) : Nat :=
  twoSide (4 * x.significand) g (x.exponent - 2) / tenSide 1 g (x.exponent - 2)

/-- A point that stands for a number is one of the two around it. -/
theorem eq_or_eq_of_onGrid? {x : Dyadic} {tie : Tie} {g : Int} {digits : Nat}
    (h : onGrid? x tie g = some digits) : digits = below x g ∨ digits = below x g + 1 := by
  simp only [onGrid?] at h
  rw [below]
  generalize twoSide _ _ _ / tenSide 1 g _ = down at *
  cases tie <;> grind

/-- On a grid that is fine enough for the leading digit, no point that stands for the number is
zero. -/
theorem onGrid?_ne_zero {x : Dyadic} {tie : Tie} {g : Int} {digits : Nat}
    (hg : (10 : ℚ) ^ g ≤ x.significand * 2 ^ x.exponent) (h : onGrid? x tie g = some digits) :
    digits ≠ 0 := by
  have hside : tenSide 1 g (x.exponent - 2) ≤ twoSide (4 * x.significand) g (x.exponent - 2) := by
    rw [tenSide_le_twoSide_iff]
    have hquarter : ((4 * x.significand : Nat) : ℚ) * 2 ^ (x.exponent - 2) =
        x.significand * 2 ^ x.exponent := by
      rw [zpow_sub₀ (by decide)]
      push_cast
      ring
    rw [hquarter, Nat.cast_one, one_mul]
    exact hg
  have hdown : 0 < below x g := Nat.div_pos hside (tenSide_one_pos _ _)
  rcases eq_or_eq_of_onGrid? h with rfl | rfl
  · exact hdown.ne'
  · exact Nat.succ_ne_zero _

/-- The search does not end at zero. -/
theorem searchGrids_digits_ne_zero {x : Dyadic} {place : Int}
    (hplace : (10 : ℚ) ^ place ≤ x.significand * 2 ^ x.exponent) (tie : Tie) (fuel : Nat)
    {count : Nat} (hcount : 0 < count) : (searchGrids x tie place fuel count).digits ≠ 0 := by
  induction fuel generalizing count with
  | zero =>
    have hside : tenSide 1 (place - count + 1) x.exponent ≤
        twoSide x.significand (place - count + 1) x.exponent := by
      rw [tenSide_le_twoSide_iff, Nat.cast_one, one_mul]
      exact (zpow_le_zpow_right₀ (by decide) (by omega)).trans hplace
    exact (Nat.div_pos hside (tenSide_one_pos _ _)).ne'
  | succ fuel ih =>
    rw [searchGrids]
    split
    case h_1 digits hgrid =>
      exact onGrid?_ne_zero ((zpow_le_zpow_right₀ (by decide) (by omega)).trans hplace) hgrid
    case h_2 => exact ih (Nat.succ_pos count)

/-- What is left without the zeros at the end is not zero. -/
theorem stripZeros_digits_ne_zero (fuel : Nat) {d : Unsigned} (h : d.digits ≠ 0) :
    (stripZeros fuel d).digits ≠ 0 := by
  induction fuel generalizing d with
  | zero => exact h
  | succ fuel ih =>
    rw [stripZeros]
    split
    case isTrue hzero => exact ih (by dsimp only; omega)
    case isFalse => exact h

/-- The shortest decimal of a number that is not zero is not zero. -/
theorem shortest_digits_ne_zero (tie : Tie) {x : Binary64}
    (h : (Dyadic.ofBinary64 x).significand ≠ 0) : (shortest tie x).digits ≠ 0 := by
  rw [shortest, if_neg h]
  exact stripZeros_digits_ne_zero 18
    (searchGrids_digits_ne_zero (pow_leadingPlace_le h _) tie 17 Nat.one_pos)

/-! ### The grammar of numbers -/

/-- A number as the interchange format allows it to be written: there are digits wherever they can
stand, and no zero stands before other digits of the whole part. -/
structure Parts.Grammatical (n : Parts) : Prop where
  /-- There are digits before the point. -/
  whole : Digits n.whole
  /-- A zero at the front is the only digit before the point. -/
  leading : ∀ digits, n.whole = 0 :: digits → digits = []
  /-- There are digits behind a point. -/
  fraction : ∀ digits, n.fraction = some digits → Digits digits
  /-- There are digits in an exponent. -/
  exponent : ∀ negative digits, n.exponent = some (negative, digits) → Digits digits

theorem Digits.append {left right : List Nat} (hl : Digits left) (hr : ∀ d ∈ right, d < 10) :
    Digits (left ++ right) :=
  ⟨List.append_ne_nil_of_left_ne_nil hl.some right, fun d hd =>
    (List.mem_append.mp hd).elim (hl.small d) (hr d)⟩

theorem Digits.take {digits : List Nat} (h : Digits digits) {n : Nat} (hn : 0 < n) :
    Digits (digits.take n) :=
  ⟨by simp [h.some, Nat.ne_of_gt hn], fun d hd => h.small d (List.mem_of_mem_take hd)⟩

theorem Digits.drop {digits : List Nat} (h : Digits digits) {n : Nat} (hn : n < digits.length) :
    Digits (digits.drop n) :=
  ⟨by simpa using hn, fun d hd => h.small d (List.mem_of_mem_drop hd)⟩

theorem digits_zero : Digits [0] := ⟨List.cons_ne_nil _ _, by simp⟩

theorem lt_of_mem_zeros {n d : Nat} (h : d ∈ zeros n) : d < 10 := by
  rw [List.eq_of_mem_replicate h]
  decide

/-- Natural numbers are written by the grammar. -/
theorem Parts.grammatical_ofNat (n : Nat) : (Parts.ofNat n).Grammatical where
  whole := digits_digitsOf n
  leading digits h := by
    by_cases hn : n = 0
    · subst hn
      simpa [Parts.ofNat, digitsOf] using h
    · exact absurd (congrArg List.head? h) (head?_digitsOf_ne hn)
  fraction _ h := nomatch h
  exponent _ _ h := nomatch h

/-- Digits are written positionally by the grammar if they do not start with a zero or need none
behind them. -/
theorem grammatical_positional {digits : List Nat} (hd : Digits digits) {place : Int}
    (hlead : digits.head? = some 0 → digits = [0] ∧ place = 0) (negative : Bool) :
    (positional negative digits place).Grammatical := by
  rw [positional]
  split
  case isTrue =>
    refine ⟨digits_zero, by simp, ?_, by simp⟩
    rintro _ ⟨⟩
    exact ⟨by simp [hd.some], fun d h =>
      (List.mem_append.mp h).elim lt_of_mem_zeros (hd.small d)⟩
  case isFalse =>
    dsimp only
    split
    case isTrue =>
      refine ⟨hd.append fun d => lt_of_mem_zeros, fun rest hrest => ?_, ?_, by simp⟩
      · have hzero : digits.head? = some 0 := by
          have h := congrArg List.head? hrest
          rwa [List.head?_append_of_ne_nil _ hd.some] at h
        obtain ⟨rfl, rfl⟩ := hlead hzero
        simpa [zeros] using hrest
      · rintro _ ⟨⟩
        exact digits_zero
    case isFalse hlong =>
      refine ⟨hd.take (Nat.succ_pos _), fun rest hrest => ?_, ?_, by simp⟩
      · have hzero : digits.head? = some 0 := by
          have h := congrArg List.head? hrest
          rwa [List.head?_take, if_neg (Nat.succ_ne_zero _)] at h
        obtain ⟨rfl, -⟩ := hlead hzero
        simpa using hrest
      · rintro _ ⟨⟩
        exact hd.drop (Nat.lt_of_not_le hlong)

/-- Digits are written with an exponent by the grammar. -/
theorem grammatical_withExponent {digits : List Nat} (hd : Digits digits) (place : Int)
    (negative : Bool) : (withExponent negative digits place).Grammatical := by
  rw [withExponent]
  constructor
  case whole => exact hd.take Nat.one_pos
  case leading =>
    intro rest hrest
    have hlength := congrArg List.length hrest
    simp only [List.length_take, List.length_cons] at hlength
    exact List.length_eq_zero_iff.mp (by omega)
  case fraction =>
    intro rest hrest
    dsimp only at hrest
    split at hrest
    · cases hrest
    · rename_i hmore
      cases hrest
      refine hd.drop (Nat.lt_of_not_le fun hshort => hmore ?_)
      exact List.drop_eq_nil_of_le hshort
  case exponent =>
    rintro _ _ ⟨⟩
    exact digits_digitsOf _

/-- **Every number is written by the grammar of the interchange format**, in whichever layout. Only
the shortest decimal of zero starts with a zero. -/
theorem Layout.grammatical_parts (layout : Layout) (x : Binary64) :
    (layout.parts x).Grammatical := by
  have hd := digits_digitsOf (shortest layout.tie x).digits
  rw [Layout.parts]
  split
  case isTrue =>
    refine grammatical_positional hd (fun hzero => ?_) _
    by_cases hs : (Dyadic.ofBinary64 x).significand = 0
    · have hshortest : shortest layout.tie x = ⟨0, 0⟩ := by rw [shortest, if_pos hs]
      rw [hshortest]
      exact ⟨by simp [digitsOf], by simp [digitsOf]⟩
    · exact absurd hzero (head?_digitsOf_ne (shortest_digits_ne_zero layout.tie hs))
  case isFalse => exact grammatical_withExponent hd _ _

end HandleBench.Decimal

namespace HandleBench.Json

open Decimal (Digits digitChars digitsOf)

/-! ### Reading written numbers -/

/-- What may stand behind a value: nothing, a comma, or a new line. -/
def Ends (rest : List Char) : Prop := ∀ c ∈ rest.head?, c = ',' ∨ c = '\n'

/-- The front is no digit. -/
def Halts (rest : List Char) : Prop := ∀ c ∈ rest.head?, Text.digitValue? c = none

theorem Ends.halts {rest : List Char} (h : Ends rest) : Halts rest := by
  intro c hc
  rcases h c hc with rfl | rfl <;> rfl

theorem digitValue?_digitChar {d : Nat} (h : d < 10) :
    Text.digitValue? (Nat.digitChar d) = some d := by
  have hall : ∀ d < 10, Text.digitValue? (Nat.digitChar d) = some d := by decide
  exact hall d h

theorem digits_of_halts {rest : List Char} (h : Halts rest) : digits rest = ([], rest) := by
  cases rest with
  | nil => rfl
  | cons c rest => rw [digits, h c rfl]

/-- Digits are read up to where something else stands. -/
theorem digits_digitChars {ds : List Nat} (hd : ∀ d ∈ ds, d < 10) {rest : List Char}
    (hr : Halts rest) : digits (digitChars ds ++ rest) = (ds, rest) := by
  induction ds with
  | nil => exact digits_of_halts hr
  | cons d ds ih =>
    have hrest := ih fun d' h => hd d' (List.mem_cons_of_mem d h)
    rw [digitChars, List.map_cons, List.cons_append, digits,
      digitValue?_digitChar (hd d List.mem_cons_self)]
    change digits (List.map Nat.digitChar ds ++ rest) = (ds, rest) at hrest
    simp only [hrest]

theorem someDigits_digitChars {ds : List Nat} (hd : Digits ds) {rest : List Char}
    (hr : Halts rest) : someDigits (digitChars ds ++ rest) = some (ds, rest) := by
  rw [someDigits, digits_digitChars hd.small hr]
  cases ds with
  | nil => exact absurd rfl hd.some
  | cons d ds => rfl

theorem wholePart_digitChars {ds : List Nat} (hd : Digits ds)
    (hlead : ∀ rest, ds = 0 :: rest → rest = []) {rest : List Char} (hr : Halts rest) :
    wholePart (digitChars ds ++ rest) = some (ds, rest) := by
  rw [wholePart, digits_digitChars hd.small hr]
  match ds, hd.some, hlead with
  | [0], _, _ => rfl
  | [_ + 1], _, _ => rfl
  | 0 :: d :: ds, _, hlead => exact absurd (hlead _ rfl) (List.cons_ne_nil d ds)
  | (n + 1) :: _ :: _, _, _ => rfl

/-- The characters of a fraction. -/
def fractionChars : Option (List Nat) → List Char
  | none => []
  | some ds => '.' :: digitChars ds

/-- The characters of an exponent. -/
def exponentChars : Option (Bool × List Nat) → List Char
  | none => []
  | some (true, ds) => 'e' :: '-' :: digitChars ds
  | some (false, ds) => 'e' :: '+' :: digitChars ds

theorem chars_parts (n : Decimal.Parts) : n.chars true =
    (if n.negative then ['-'] else []) ++ digitChars n.whole ++ fractionChars n.fraction ++
      exponentChars n.exponent := by
  obtain ⟨negative, whole, fraction, exponent⟩ := n
  rcases fraction with _ | ds <;> rcases exponent with _ | ⟨_ | _, es⟩ <;> rfl

/-- An exponent is read back, and its absence too. -/
theorem exponentPart_exponentChars {exponent : Option (Bool × List Nat)}
    (he : ∀ negative ds, exponent = some (negative, ds) → Digits ds) {rest : List Char}
    (hr : Ends rest) : exponentPart (exponentChars exponent ++ rest) = some (exponent, rest) := by
  match exponent, he with
  | none, _ =>
    cases rest with
    | nil => rfl
    | cons c rest =>
      have hc : (c == 'e' || c == 'E') = false := by
        rcases hr c rfl with rfl | rfl <;> rfl
      simp only [exponentChars, List.nil_append, exponentPart, hc, Bool.false_eq_true, if_false]
  | some (true, ds), he =>
    have hdigits := someDigits_digitChars (he true ds rfl) hr.halts
    show (someDigits (digitChars ds ++ rest)).map _ = _
    rw [hdigits]
    rfl
  | some (false, ds), he =>
    have hdigits := someDigits_digitChars (he false ds rfl) hr.halts
    show (someDigits (digitChars ds ++ rest)).map _ = _
    rw [hdigits]
    rfl

theorem halts_exponentChars (exponent : Option (Bool × List Nat)) {rest : List Char}
    (hr : Ends rest) : Halts (exponentChars exponent ++ rest) := by
  match exponent with
  | none => exact hr.halts
  | some (true, _) => rintro _ ⟨⟩; rfl
  | some (false, _) => rintro _ ⟨⟩; rfl

/-- A fraction is read back, and its absence too. -/
theorem fractionPart_fractionChars {fraction : Option (List Nat)}
    (hf : ∀ ds, fraction = some ds → Digits ds) (exponent : Option (Bool × List Nat))
    {rest : List Char} (hr : Ends rest) :
    fractionPart (fractionChars fraction ++ (exponentChars exponent ++ rest)) =
      some (fraction, exponentChars exponent ++ rest) := by
  match fraction, hf with
  | none, _ =>
    have hpoint : ∀ cs, exponentChars exponent ++ rest ≠ '.' :: cs := by
      intro cs heq
      match exponent with
      | none =>
        have hhead : rest.head? = some '.' := congrArg List.head? heq
        rcases hr '.' hhead with h | h <;> cases h
      | some (true, _) => cases heq
      | some (false, _) => cases heq
    rw [fractionChars, List.nil_append, fractionPart]
    exact hpoint
  | some ds, hf =>
    have hdigits := someDigits_digitChars (hf ds rfl) (halts_exponentChars exponent hr)
    show (someDigits (digitChars ds ++ (exponentChars exponent ++ rest))).map _ = _
    rw [hdigits]
    rfl

theorem halts_fractionChars (fraction : Option (List Nat)) {rest : List Char}
    (hr : Halts rest) : Halts (fractionChars fraction ++ rest) := by
  match fraction with
  | none => exact hr
  | some _ => rintro _ ⟨⟩; rfl

theorem front_digitChars {ds : List Nat} (hd : Digits ds) (rest : List Char) :
    ∃ d < 10, ∃ cs, digitChars ds ++ rest = Nat.digitChar d :: cs := by
  cases ds with
  | nil => exact absurd rfl hd.some
  | cons d ds => exact ⟨d, hd.small d List.mem_cons_self, _, rfl⟩

theorem digitChar_ne_minus {d : Nat} (h : d < 10) : Nat.digitChar d ≠ '-' := by
  have hall : ∀ d < 10, Nat.digitChar d ≠ '-' := by decide
  exact hall d h

/-- **What is written by the grammar is read back**, part by part. -/
theorem numberFrom_chars {n : Decimal.Parts} (hn : n.Grammatical) {rest : List Char}
    (hr : Ends rest) : numberFrom (n.chars true ++ rest) = some (n, rest) := by
  have hexponent := exponentPart_exponentChars hn.exponent hr
  have hfraction := fractionPart_fractionChars hn.fraction n.exponent hr
  have hwhole := wholePart_digitChars hn.whole hn.leading
    (halts_fractionChars n.fraction (halts_exponentChars n.exponent hr))
  obtain ⟨d, hd, cs, hcs⟩ := front_digitChars hn.whole
    (fractionChars n.fraction ++ (exponentChars n.exponent ++ rest))
  obtain ⟨negative, whole, fraction, exponent⟩ := n
  simp only [chars_parts, List.append_assoc] at hexponent hfraction hwhole hcs ⊢
  cases negative with
  | true =>
    simp only [if_true, List.cons_append, List.nil_append]
    rw [numberFrom]
    simp [hwhole, hfraction, hexponent]
  | false =>
    simp only [Bool.false_eq_true, if_false, List.nil_append]
    rw [numberFrom]
    · simp [hwhole, hfraction, hexponent]
    · intro cs' heq
      rw [hcs] at heq
      exact digitChar_ne_minus hd (List.cons.inj heq).1

/-! ### Written words -/

theorem le_foldl_digits (value : Nat) (ds : List Nat) :
    value ≤ ds.foldl (fun n d => n * 10 + d) value := by
  induction ds generalizing value with
  | nil => exact Nat.le_refl _
  | cons d ds ih => exact Nat.le_trans (by omega) (ih (value * 10 + d))

/-- Digits are all taken if the number that they spell is a word. -/
theorem takeDigits_eq {value : Nat} {ds : List Nat}
    (h : ds.foldl (fun n d => n * 10 + d) value < UInt64.size) :
    Decimal.Parts.takeDigits value ds = (ds.foldl (fun n d => n * 10 + d) value, []) := by
  induction ds generalizing value with
  | nil => rfl
  | cons d ds ih =>
    have hfits : value * 10 + d < UInt64.size := Nat.lt_of_le_of_lt (le_foldl_digits _ ds) h
    rw [Decimal.Parts.takeDigits, if_pos hfits]
    exact ih h

theorem word?_ofNat {n : Nat} (h : n < UInt64.size) :
    (Decimal.Parts.ofNat n).word? = some (.ofNat n) := by
  have hvalue : (digitsOf n).foldl (fun n d => n * 10 + d) 0 = n := Decimal.ofDigits_digitsOf n
  have htaken := takeDigits_eq (hvalue.symm ▸ h : (digitsOf n).foldl _ 0 < UInt64.size)
  rw [Decimal.Parts.ofNat, Decimal.Parts.word?, htaken, hvalue]

/-- A word of 64 bits is read back. -/
theorem word64?_ofNat (n : UInt64) : (ofNat n.toNat).word64? = some n := by
  rw [ofNat, word64?, word?_ofNat n.toNat_lt, UInt64.ofNat_toNat]

/-- A word of 32 bits is read back. -/
theorem word32?_ofNat (n : UInt32) : (ofNat n.toNat).word32? = some n := by
  have hfits : n.toNat < UInt64.size := Nat.lt_trans n.toNat_lt (by decide)
  have hword : (ofNat n.toNat).word64? = some n.toUInt64 := by
    rw [ofNat, word64?, word?_ofNat hfits, UInt64.ofNat_uInt32ToNat]
  have hsmall : n.toUInt64.toNat < UInt32.size := by
    rw [UInt32.toNat_toUInt64]
    exact n.toNat_lt
  simp only [word32?, hword, Option.bind_eq_bind, Option.bind_some, if_pos hsmall,
    UInt32.toUInt32_toUInt64]

end HandleBench.Json
