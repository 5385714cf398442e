import HandleBench.Timing
import HandleBench.Proofs.MachineWords
import HandleBench.Proofs.Samples
import HandleBench.Proofs.TotalOrder

/-!
# Statistics of samples

Sums of floating-point numbers depend on the order of the summands. The statistics do not depend on
that of the samples, because they are computed from samples in order, and there is one way only to
arrange samples in the total order of bit patterns: `Timing.arranges_iff`. For that the arithmetic
does not matter, so the computation is written down here over an arithmetic of any kind, and the
machine's way, with indices that have to be inside of the list. On samples in order it never leaves
the list, and then the least and the greatest sample, the middle and the rank of the percentile are
where they ought to be: `Timing.describes_of_arranges`.
-/

namespace HandleBench

namespace Timing

/-- What statistics are computed with. Nothing is assumed about any of the functions. -/
structure Arithmetic where
  /-- The sum of two numbers. -/
  add : Binary64 → Binary64 → Binary64
  /-- The difference of two numbers. -/
  sub : Binary64 → Binary64 → Binary64
  /-- The product of two numbers. -/
  mul : Binary64 → Binary64 → Binary64
  /-- The quotient of two numbers. -/
  div : Binary64 → Binary64 → Binary64
  /-- The second power. -/
  square : Binary64 → Binary64
  /-- The square root. -/
  sqrt : Binary64 → Binary64
  /-- What a sum starts from. -/
  start : Binary64
  /-- The number of a count. -/
  ofCount : UInt64 → Binary64
  /-- The count of a number that is rounded up. -/
  roundUp : Binary64 → UInt64

namespace Arithmetic

/-- The arithmetic of the machine. -/
def standard : Arithmetic where
  add := (· + ·)
  sub := (· - ·)
  mul := (· * ·)
  div := (· / ·)
  square x := x * x
  sqrt := .sqrt
  start := .negZero
  ofCount := .ofUInt64
  roundUp x := x.toFloat.ceil.toUInt64

variable (a : Arithmetic)

/-- The sum of a list, from its front on. -/
def sum (values : List Binary64) : Binary64 := values.foldl a.add a.start

/-- The mean of a list. -/
def mean (values : List Binary64) : Binary64 :=
  a.div (a.sum values) (a.ofCount (.ofNat values.length))

/-- The mean of the squared distances from the mean. -/
def variance (values : List Binary64) : Binary64 :=
  a.div (a.sum (values.map fun x => a.square (a.sub x (a.mean values))))
    (a.ofCount (.ofNat values.length))

/-- Half the sum of two numbers. -/
def midpoint (x y : Binary64) : Binary64 := a.div (a.add x y) two

/-- The middle of a list in order, on a machine. -/
def median (values : List Binary64) : Machine Binary64 :=
  let n := values.length
  if n % 2 = 0 then do
    let before ← Machine.minus (n / 2) 1
    let lower ← Machine.element before values
    let upper ← Machine.element (n / 2) values
    return a.midpoint lower upper
  else Machine.element (n / 2) values

/-- The middle of a list in order. -/
def middle (values : List Binary64) : Binary64 :=
  let n := values.length
  if n % 2 = 0 then a.midpoint (values.getD (n / 2 - 1) .zero) (values.getD (n / 2) .zero)
  else values.getD (n / 2) .zero

/-- The nearest rank that 95 of 100 do not exceed, among `n`, before it is brought within bounds. -/
def rank95 (n : Nat) : Nat := (a.roundUp (a.mul share95 (a.ofCount (.ofNat n)))).toNat

/-- The index of the sample that 95 of 100 do not exceed, among `n` in order. -/
def index95 (n : Nat) : Nat := min (max (a.rank95 n) 1) n - 1

/-- The statistics of a list in order, on a machine. -/
def ofSorted (values : List Binary64) : Machine Timing :=
  let n := values.length
  if n = 0 then .ok ⟨0, .zero, none, none, .zero, .zero, none⟩
  else do
    let median ← a.median values
    let rank ← Machine.clamp 1 n (a.rank95 n)
    let index ← Machine.minus rank 1
    let least ← Machine.element 0 values
    let last ← Machine.minus n 1
    let greatest ← Machine.element last values
    let percentile ← Machine.element index values
    return ⟨.ofNat n, a.mean values, some median, some (a.sqrt (a.variance values)), least,
      greatest, some percentile⟩

/-- The statistics of samples, on a machine. -/
def ofSamples (samples : List Binary64) : Machine Timing := a.ofSorted (sorted samples)

end Arithmetic

/-! ### The one arrangement -/

/-- The second list has the samples of the first one, each of them before the ones that follow. -/
def Arranges (samples ordered : List Binary64) : Prop :=
  ordered.Perm samples ∧ ordered.Pairwise fun x y => x.totalLe y = true

/-- Sorting arranges, and no other arrangement exists. -/
theorem arranges_iff {samples ordered : List Binary64} :
    Arranges samples ordered ↔ ordered = sorted samples := by
  have hperm := List.mergeSort_perm samples Binary64.totalLe
  have hpairwise : (sorted samples).Pairwise fun x y => x.totalLe y = true := by
    refine List.pairwise_mergeSort ?_ ?_ samples
    · exact fun _ _ _ => Binary64.totalLe_trans
    · exact Binary64.totalLe_total
  constructor
  · intro h
    exact List.Perm.eq_of_pairwise (fun _ _ _ _ => Binary64.totalLe_antisymm) h.2 hpairwise
      (h.1.trans hperm.symm)
  · rintro rfl
    exact ⟨hperm, hpairwise⟩

-- the two zeros are kept apart, and a NaN goes where its sign says
example : sorted [⟨0x7FF8000000000000⟩, .zero, .one, .negZero, ⟨0xFFF8000000000000⟩] =
    [⟨0xFFF8000000000000⟩, .negZero, .zero, .one, ⟨0x7FF8000000000000⟩] :=
  (arranges_iff.1 ⟨by decide, by decide⟩).symm

theorem sorted_of_perm {samples others : List Binary64} (h : samples.Perm others) :
    sorted samples = sorted others := by
  have harranges := arranges_iff.2 (rfl : sorted samples = sorted samples)
  exact arranges_iff.1 ⟨harranges.1.trans h, harranges.2⟩

section Ordered

variable {samples ordered : List Binary64} (h : Arranges samples ordered)

include h

/-- Of two places in an arrangement, the earlier one has the sample that comes first. -/
theorem totalLe_of_arranges {i j : Nat} (hle : i ≤ j) (hj : j < ordered.length) :
    (ordered[i]).totalLe ordered[j] = true := by
  obtain rfl | hlt := Nat.eq_or_lt_of_le hle
  · simpa using Binary64.totalLe_total ordered[i] ordered[i]
  · exact List.pairwise_iff_getElem.1 h.2 i j _ hj hlt

/-- Every sample is between the one at the front of an arrangement and the one at its end. -/
theorem between_of_arranges (hpos : 0 < ordered.length) {x : Binary64} (hx : x ∈ samples) :
    (ordered[0]).totalLe x = true ∧ x.totalLe ordered[ordered.length - 1] = true := by
  obtain ⟨i, hi, rfl⟩ := List.getElem_of_mem (h.1.mem_iff.2 hx)
  exact ⟨totalLe_of_arranges h (Nat.zero_le i) hi, totalLe_of_arranges h (by omega) (by omega)⟩

end Ordered

/-! ### What the machine computes -/

section Machine

variable (a : Arithmetic) {values : List Binary64}

theorem index95_lt {n : Nat} (h : 0 < n) : a.index95 n < n := by
  unfold Arithmetic.index95
  omega

theorem median_eq (h : 0 < values.length) : a.median values = .ok (a.middle values) := by
  have hmiddle : values.length / 2 < values.length := by omega
  unfold Arithmetic.median Arithmetic.middle
  dsimp only
  split
  · refine Except.bind_eq_ok.2 ⟨_, Machine.minus_eq (by omega), ?_⟩
    refine Except.bind_eq_ok.2 ⟨_, Machine.element_eq (by omega) .zero, ?_⟩
    exact Except.bind_eq_ok.2 ⟨_, Machine.element_eq hmiddle .zero, rfl⟩
  · exact Machine.element_eq hmiddle .zero

/-- No index that is computed leaves a list that is not empty. -/
theorem ofSorted_eq (h : 0 < values.length) :
    a.ofSorted values = .ok ⟨.ofNat values.length, a.mean values, some (a.middle values),
      some (a.sqrt (a.variance values)), values.getD 0 .zero,
      values.getD (values.length - 1) .zero,
      some (values.getD (a.index95 values.length) .zero)⟩ := by
  have hindex : a.index95 values.length < values.length := index95_lt a h
  unfold Arithmetic.ofSorted
  dsimp only
  rw [if_neg (Nat.ne_of_gt h)]
  refine Except.bind_eq_ok.2 ⟨_, median_eq a h, ?_⟩
  refine Except.bind_eq_ok.2 ⟨_, Machine.clamp_eq h _, ?_⟩
  refine Except.bind_eq_ok.2 ⟨_, Machine.minus_eq (by omega), ?_⟩
  refine Except.bind_eq_ok.2 ⟨_, Machine.element_eq h .zero, ?_⟩
  refine Except.bind_eq_ok.2 ⟨_, Machine.minus_eq h, ?_⟩
  refine Except.bind_eq_ok.2 ⟨_, Machine.element_eq (by omega) .zero, ?_⟩
  exact Except.bind_eq_ok.2 ⟨_, Machine.element_eq hindex .zero, rfl⟩

/-- With the arithmetic of the machine these are the statistics of the library. -/
theorem ofSorted_standard (values : List Binary64) :
    Arithmetic.standard.ofSorted values = .ok (Timing.ofSorted values) := by
  obtain rfl | hne := eq_or_ne values []
  · rfl
  have hpos := List.length_pos_iff.2 hne
  rw [ofSorted_eq _ hpos, Timing.ofSorted]
  dsimp only
  rw [if_neg (Nat.ne_of_gt hpos)]
  rfl

end Machine

/-! ### What statistics say -/

/-- What statistics say about an arrangement that they were computed from. -/
structure Arithmetic.Describes (a : Arithmetic) (t : Timing)
    (samples ordered : List Binary64) : Prop where
  /-- How many there are, and what is computed from all of them. -/
  whole : t.iterations = .ofNat samples.length ∧ t.mean = a.mean ordered ∧
    t.deviation = some (a.sqrt (a.variance ordered))
  /-- The least one is a sample, and before every other. -/
  least : t.least ∈ samples ∧ ∀ x ∈ samples, t.least.totalLe x = true
  /-- The greatest one is a sample, and after every other. -/
  greatest : t.greatest ∈ samples ∧ ∀ x ∈ samples, x.totalLe t.greatest = true
  /-- Among numbers they are least and greatest as numbers. -/
  numbers : (∀ x ∈ samples, x.isNaN = false) →
    ∀ x ∈ samples, t.least.le x = true ∧ x.le t.greatest = true
  /-- Of an odd count one sample is in the middle. -/
  odd : samples.length % 2 = 1 →
    ∃ middle, ordered[samples.length / 2]? = some middle ∧ t.median = some middle
  /-- Of an even count two are. -/
  even : samples.length % 2 = 0 →
    ∃ lower upper, ordered[samples.length / 2 - 1]? = some lower ∧
      ordered[samples.length / 2]? = some upper ∧ t.median = some (a.midpoint lower upper)
  /-- The percentile is the sample at a rank that only their count says. -/
  percentile : ∃ p ∈ samples, ordered[a.index95 samples.length]? = some p ∧
    t.percentile95 = some p ∧ t.least.totalLe p = true ∧ p.totalLe t.greatest = true

/-- Of samples in order the statistics are found, and they say what they ought to. -/
theorem describes_of_arranges {samples ordered : List Binary64} (a : Arithmetic)
    (h : Arranges samples ordered) (hne : samples ≠ []) :
    ∃ t, a.ofSorted ordered = .ok t ∧ a.Describes t samples ordered := by
  have hlength : ordered.length = samples.length := h.1.length_eq
  have hpos : 0 < ordered.length := by
    rw [hlength]
    exact List.length_pos_iff.2 hne
  have hlast : ordered.length - 1 < ordered.length := by omega
  have hindex := index95_lt a hpos
  have hmem {i : Nat} (hi : i < ordered.length) : ordered.getD i .zero ∈ samples := by
    rw [List.getD_eq_getElem _ _ hi]
    exact h.1.mem_iff.1 (List.getElem_mem hi)
  have hget {i : Nat} (hi : i < ordered.length) : ordered[i]? = some (ordered.getD i .zero) := by
    rw [List.getD_eq_getElem _ _ hi, List.getElem?_eq_getElem hi]
  have hbetween {x : Binary64} (hx : x ∈ samples) : (ordered.getD 0 .zero).totalLe x = true ∧
      x.totalLe (ordered.getD (ordered.length - 1) .zero) = true := by
    rw [List.getD_eq_getElem _ _ hpos, List.getD_eq_getElem _ _ hlast]
    exact between_of_arranges h hpos hx
  refine ⟨_, ofSorted_eq a hpos, ?_⟩
  constructor
  case whole => exact ⟨congrArg UInt32.ofNat hlength, rfl, rfl⟩
  case least => exact ⟨hmem hpos, fun x hx => (hbetween hx).1⟩
  case greatest => exact ⟨hmem hlast, fun x hx => (hbetween hx).2⟩
  case numbers =>
    intro hnumbers x hx
    exact ⟨Binary64.le_of_totalLe (hnumbers _ (hmem hpos)) (hnumbers x hx) (hbetween hx).1,
      Binary64.le_of_totalLe (hnumbers x hx) (hnumbers _ (hmem hlast)) (hbetween hx).2⟩
  case odd =>
    intro hodd
    rw [← hlength] at hodd ⊢
    refine ⟨_, hget (by omega), ?_⟩
    rw [Arithmetic.middle, if_neg (by omega)]
  case even =>
    intro heven
    rw [← hlength] at heven ⊢
    refine ⟨_, _, hget (by omega), hget (by omega), ?_⟩
    rw [Arithmetic.middle, if_pos heven]
  case percentile =>
    rw [← hlength]
    exact ⟨_, hmem hindex, hget hindex, rfl, hbetween (hmem hindex)⟩

/-! ### The law of samples -/

/-- What holds of the statistics of samples. -/
structure SamplesLaw (samples : List Binary64) : Prop where
  /-- Computed on a machine, they are the statistics of the library. -/
  machine : Arithmetic.standard.ofSamples samples = .ok (Timing.ofSamples samples)
  /-- In another order the samples have the same statistics, whatever these are computed with. -/
  order : ∀ (a : Arithmetic) (others : List Binary64), samples.Perm others →
    a.ofSamples samples = a.ofSamples others
  /-- Samples have statistics, and the one arrangement of the samples shows what these say. -/
  statistics : ∀ a : Arithmetic, samples ≠ [] → ∃ t ordered, a.ofSamples samples = .ok t ∧
    Arranges samples ordered ∧ (∀ other, Arranges samples other → other = ordered) ∧
    a.Describes t samples ordered ∧ a.index95 samples.length < samples.length

theorem samplesLaw (samples : List Binary64) : SamplesLaw samples where
  machine := ofSorted_standard (sorted samples)
  order a others h := congrArg a.ofSorted (sorted_of_perm h)
  statistics a hne := by
    have harranges : Arranges samples (sorted samples) := arranges_iff.2 rfl
    obtain ⟨t, ht, hdescribes⟩ := describes_of_arranges a harranges hne
    exact ⟨t, _, ht, harranges, fun _ => arranges_iff.1, hdescribes,
      index95_lt a (List.length_pos_iff.2 hne)⟩

end Timing

end HandleBench
