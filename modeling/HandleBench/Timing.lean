import HandleBench.Binary64

/-!
# Timing

Statistics over the measured times of a run. The samples are sorted by the total order of the
format first and every sum runs over the sorted list, so the statistics do not depend on the order
in which the samples came.
-/

namespace HandleBench

/-- Statistics over measured times, in milliseconds. -/
structure Timing where
  /-- How many times were measured. -/
  iterations : UInt32
  /-- The mean. -/
  mean : Binary64
  /-- The middle sample, or the mean of the two middle ones. -/
  median : Option Binary64
  /-- The standard deviation of the samples. -/
  deviation : Option Binary64
  /-- The least sample. -/
  least : Binary64
  /-- The greatest sample. -/
  greatest : Binary64
  /-- The sample that 95 of 100 do not exceed. -/
  percentile95 : Option Binary64
  deriving DecidableEq, Repr

namespace Timing

/-- The samples in the total order of the format. -/
def sorted (samples : List Binary64) : List Binary64 := samples.mergeSort Binary64.totalLe

/-- The sum of a list, from its front on, starting at negative zero. -/
def sum (values : List Binary64) : Binary64 := values.foldl (· + ·) .negZero

/-- 0.95. -/
def share95 : Binary64 := ⟨0x3FEE666666666666⟩

/-- The number two. -/
def two : Binary64 := ⟨0x4000000000000000⟩

/-- The index of the sample that 95 of 100 do not exceed: the nearest rank among `n`. -/
def index95 (n : Nat) : Nat :=
  let rank := (share95 * .ofUInt64 (.ofNat n)).toFloat.ceil.toUInt64.toNat
  min (max rank 1) n - 1

/-- The statistics of a sorted list of samples. -/
def ofSorted (values : List Binary64) : Timing :=
  let n := values.length
  if n = 0 then ⟨0, .zero, none, none, .zero, .zero, none⟩
  else
    let count : Binary64 := .ofUInt64 (.ofNat n)
    let mean := sum values / count
    let variance := sum (values.map fun x => (x - mean) * (x - mean)) / count
    let at_ i := values.getD i .zero
    let median :=
      if n % 2 = 0 then (at_ (n / 2 - 1) + at_ (n / 2)) / two else at_ (n / 2)
    ⟨.ofNat n, mean, some median, some variance.sqrt, at_ 0, at_ (n - 1), some (at_ (index95 n))⟩

/-- The statistics of the samples. -/
def ofSamples (samples : List Binary64) : Timing := ofSorted (sorted samples)

end Timing

end HandleBench
