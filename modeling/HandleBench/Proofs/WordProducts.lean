import HandleBench.Proofs.MachineWords
import HandleBench.Proofs.MatrixProducts
import HandleBench.Proofs.SoundProducts

/-!
# Products in machine words

The steps of a product's pipeline that compute, written down the way a machine takes them: every
size and every index is a product of two words, and every row is a slice of flat entries. Nothing
there checks anything but what the library checks. Still no product of two words overflows and no
slice leaves its list, as long as the data is of the shape of a sound product, since a row ends
where the matrix ends at the latest and the sizes of the matrices were checked when the product was
created. The room that a machine sets aside for a list is not looked at.

All data in a session of matrix products is of such a shape, whichever benchmarks have made it. So
no step of the pipeline panics, whoever takes it: `Host.Reachable.addressingLaw`.
-/

namespace HandleBench

open Machine (times slice ofExcept ofOption)

/-! ### Matrices -/

namespace Matrix

variable {α : Type}

/-- The slice of row `r` in flat entries of `cols` to a row. -/
def rowSliceInWords (cols r : Nat) (entries : List α) : Machine (List α) := do
  let start ← times r cols
  let stop ← times (r + 1) cols
  slice start stop entries

/-- If the row ends within the words, its slice is the checked one. -/
theorem rowSliceInWords_eq {cols r : Nat} (h : (r + 1) * cols < UInt64.size) (entries : List α) :
    rowSliceInWords cols r entries = ofOption (rowSlice? cols r entries) := by
  have hle : r * cols ≤ (r + 1) * cols := Nat.mul_le_mul_right cols (Nat.le_succ r)
  rw [rowSliceInWords, Machine.times_eq (Nat.lt_of_le_of_lt hle h), Machine.times_eq h]
  show slice (r * cols) ((r + 1) * cols) entries = _
  unfold slice rowSlice? slice?
  split <;> rfl

/-- A row of a matrix whose entries can be counted ends within the words. -/
theorem row_lt_size {r rows cols : Nat} (hr : r < rows) (h : rows * cols < UInt64.size) :
    (r + 1) * cols < UInt64.size :=
  Nat.lt_of_le_of_lt (succ_mul_le cols hr) h

/-- No row slice is longer than the rows are. -/
theorem length_of_rowSlice? {cols r : Nat} {entries row : List α}
    (h : rowSlice? cols r entries = some row) : row.length ≤ cols := by
  unfold rowSlice? slice? at h
  split at h
  · cases h
    rw [List.length_take, Nat.succ_mul, Nat.add_sub_cancel_left]
    exact Nat.min_le_left cols _
  · cases h

/-- The matrix with the given entries, refused unless they fill its shape. -/
def ofEntriesInWords (rows cols : Nat) (entries : List α) : Machine (Matrix α) := do
  let count ← times rows cols
  if entries.length = count then return ⟨rows, cols, entries⟩
  else throw (.refused (.matrixSize rows cols entries.length))

theorem ofEntriesInWords_eq {rows cols : Nat} (h : rows * cols < UInt64.size) (entries : List α) :
    ofEntriesInWords rows cols entries = ofExcept (ofEntries rows cols entries) := by
  rw [ofEntriesInWords, Machine.times_eq h, ofEntries]
  show (if entries.length = rows * cols then _ else _) = _
  split <;> rfl

/-- The matrix of zeros. -/
def zerosInWords [Zero α] (rows cols : Nat) : Machine (Matrix α) := do
  let count ← times rows cols
  return ⟨rows, cols, List.replicate count 0⟩

theorem zerosInWords_eq [Zero α] {rows cols : Nat} (h : rows * cols < UInt64.size) :
    (zerosInWords rows cols : Machine (Matrix α)) = .ok (zeros rows cols) := by
  rw [zerosInWords, Machine.times_eq h]
  rfl

section Product

variable [Add α] [Mul α] {a b : Matrix α}

/-- A result row after the elements of a left row, from the `k`th on, each taken times the slice of
its row of the right factor. -/
def updateRowInWords (b : Matrix α) : Nat → List α → List α → Machine (List α)
  | _, result, [] => return result
  | k, result, x :: left => do
    let row ← rowSliceInWords b.cols k b.entries
    updateRowInWords b (k + 1) (overwrite (fun sum y => sum + x * y) result row) left

theorem updateRowInWords_eq (hb : b.rows * b.cols < UInt64.size) {k : Nat} {left : List α}
    (hk : k + left.length ≤ b.rows) (result : List α) :
    updateRowInWords b k result left = ofOption (updateRow? b k result left) := by
  induction left generalizing k result with
  | nil => rfl
  | cons x left ih =>
    rw [List.length_cons] at hk
    rw [updateRowInWords, rowSliceInWords_eq (row_lt_size (by omega) hb), updateRow?,
      Machine.ofOption_bind]
    cases rowSlice? b.cols k b.entries with
    | none => rfl
    | some row => exact ih (by omega) _

/-- The flat results after row `r` of the left factor. -/
def updateResultsInWords (a b : Matrix α) (results : List α) (r : Nat) : Machine (List α) := do
  let left ← rowSliceInWords a.cols r a.entries
  let result ← rowSliceInWords b.cols r results
  let result ← updateRowInWords b 0 result left
  return putRow b.cols r result results

theorem updateResultsInWords_eq (ha : a.rows * a.cols < UInt64.size)
    (hb : b.rows * b.cols < UInt64.size) (hab : a.rows * b.cols < UInt64.size)
    (hshape : a.cols = b.rows) {r : Nat} (hr : r < a.rows) (results : List α) :
    updateResultsInWords a b results r = ofOption (updateResults? a b results r) := by
  rw [updateResultsInWords, rowSliceInWords_eq (row_lt_size hr ha),
    rowSliceInWords_eq (row_lt_size hr hab), updateResults?, Machine.ofOption_bind]
  cases hleft : rowSlice? a.cols r a.entries with
  | none => rfl
  | some left =>
    have hk : 0 + left.length ≤ b.rows := by
      rw [Nat.zero_add, ← hshape]
      exact length_of_rowSlice? hleft
    show (ofOption (rowSlice? b.cols r results) >>= _) = ofOption (rowSlice? b.cols r results >>= _)
    rw [Machine.ofOption_bind]
    cases rowSlice? b.cols r results with
    | none => rfl
    | some result =>
      show (updateRowInWords b 0 result left >>= _) = ofOption (updateRow? b 0 result left >>= _)
      rw [updateRowInWords_eq hb hk, Machine.ofOption_bind]
      rfl

/-- The product of two matrices, refused unless their shapes meet. -/
def multiplyInWords [Zero α] (a b : Matrix α) : Machine (Matrix α) :=
  if a.cols = b.rows then do
    let zeros ← zerosInWords a.rows b.cols
    let results ← (List.range a.rows).foldlM (updateResultsInWords a b) zeros.entries
    return ⟨a.rows, b.cols, results⟩
  else throw (.refused (.matrixShapes a.rows a.cols b.rows b.cols))

/-- The product of full matrices is that of the library, if the entries of both and those of the
result can be counted. -/
theorem multiplyInWords_eq [Zero α] (hafull : a.IsFull) (hbfull : b.IsFull)
    (ha : a.rows * a.cols < UInt64.size) (hb : b.rows * b.cols < UInt64.size)
    (hab : a.rows * b.cols < UInt64.size) :
    multiplyInWords a b = ofExcept (a.multiply b) := by
  have hchecked := multiplyInPlace?_eq hafull hbfull
  by_cases hshape : a.cols = b.rows
  · rw [multiplyInPlace?, if_pos hshape] at hchecked
    obtain ⟨results, hresults, hm⟩ := Option.bind_eq_some_iff.1 hchecked
    have hloop := Machine.foldlM_ofOption (fun r hr results =>
      updateResultsInWords_eq ha hb hab hshape (List.mem_range.1 hr) results)
      (zeros a.rows b.cols).entries
    rw [hresults] at hloop
    rw [multiplyInWords, if_pos hshape, zerosInWords_eq hab, ← Option.some.inj hm]
    show ((List.range a.rows).foldlM (updateResultsInWords a b) (zeros a.rows b.cols).entries >>= _)
      = _
    rw [hloop]
    rfl
  · rw [multiplyInWords, if_neg hshape, multiply, if_neg hshape]
    rfl

end Product

end Matrix

/-! ### Samples and results -/

/-- Entries can be counted if their octets can. -/
theorem Nat.lt_of_mul_eight_lt {n size : Nat} (h : n * 8 < size) : n < size := by
  omega

/-- Full matrices of shapes that meet are multiplied as in the library. -/
theorem Matrix.FullOf.multiplyInWords_eq {rows inner cols : Nat} {a b : Matrix Binary64}
    (ha : a.FullOf rows inner) (hb : b.FullOf inner cols) (hleft : rows * inner * 8 < UInt64.size)
    (hright : inner * cols * 8 < UInt64.size) (hresult : rows * cols * 8 < UInt64.size) :
    Matrix.multiplyInWords a b = ofExcept (a.multiply b) := by
  obtain ⟨rfl, rfl, hae⟩ := ha
  obtain ⟨hbr, rfl, hbe⟩ := hb
  rw [← hbr] at hright hbe
  exact Matrix.multiplyInWords_eq hae hbe (Nat.lt_of_mul_eight_lt hleft)
    (Nat.lt_of_mul_eight_lt hright) (Nat.lt_of_mul_eight_lt hresult)

namespace Product

variable {p : Product} {rows cols : Nat}

/-- The matrix at the front of a sample. -/
def readSampleInWords (rows cols : Nat) (octets : Octets) : Machine (Matrix Binary64) := do
  let count ← times rows cols
  let size ← times count 8
  if octets.length < size then throw (.refused (.shortSample octets.length rows cols size))
  else Matrix.ofEntriesInWords rows cols ((Binary64.readAll octets).take count)

theorem readSampleInWords_eq (h : rows * cols * 8 < UInt64.size) (octets : Octets) :
    readSampleInWords rows cols octets = ofExcept (readSample rows cols octets) := by
  have hcount : rows * cols < UInt64.size := Nat.lt_of_mul_eight_lt h
  rw [readSampleInWords, Machine.times_eq hcount]
  show (times (rows * cols) 8 >>= _) = _
  rw [Machine.times_eq h]
  show (if octets.length < rows * cols * 8 then _ else _) = _
  unfold readSample
  split
  · rfl
  · exact Matrix.ofEntriesInWords_eq hcount _

/-- The samples of one operand. -/
def operandInWords (p : Product) (packs : List Pack) (position : UInt64) (rows cols : Nat) :
    Machine (List (Matrix Binary64)) := do
  let pack ← ofExcept (Pack.find packs position)
  let used := if p.isLatency then pack.buffers.take 1 else pack.buffers
  if used.isEmpty || used.any (·.isEmpty) then throw (.refused .emptySample)
  used.mapM (readSampleInWords rows cols)

theorem operandInWords_eq (h : rows * cols * 8 < UInt64.size) (packs : List Pack)
    (position : UInt64) :
    p.operandInWords packs position rows cols = ofExcept (p.operand packs position rows cols) := by
  rw [operandInWords, operand, Machine.ofExcept_bind]
  congr 1
  funext pack
  dsimp only
  generalize (if p.isLatency = true then pack.buffers.take 1 else pack.buffers) = used
  split
  · rfl
  · exact Machine.ofExcept_mapM fun octets _ => readSampleInWords_eq h octets

/-- The samples of both operands. -/
def operandsInWords (p : Product) (packs : List Pack) :
    Machine (List (List (Matrix Binary64))) := do
  if packs.length ≠ operandCount then throw (.refused (.packCount operandCount packs.length))
  let left ← p.operandInWords packs 0 p.rows p.inner
  let right ← p.operandInWords packs 1 p.inner p.cols
  return [left, right]

/-- A sound product reads whatever samples a host passes as the library does. -/
theorem operandsInWords_eq (hp : p.Sound) (packs : List Pack) :
    p.operandsInWords packs = ofExcept (p.operands packs) := by
  unfold operandsInWords operands
  split
  · rfl
  · rw [operandInWords_eq hp.left, operandInWords_eq hp.right]
    cases p.operand packs 0 p.rows p.inner with
    | error failure => rfl
    | ok left => cases p.operand packs 1 p.inner p.cols <;> rfl

/-- The selected samples; at least one, and none behind the last. -/
def selectInWords (samples : List (Matrix Binary64)) (s : Selection) (operand : Nat) :
    Machine (List (Matrix Binary64)) :=
  if 0 < s.count.toNat ∧ s.start.toNat + s.count.toNat ≤ samples.length then
    slice s.start.toNat (s.start.toNat + s.count.toNat) samples
  else throw (.refused (.selectionRange s.start s.count operand samples.length))

theorem selectInWords_eq (samples : List (Matrix Binary64)) (s : Selection) (operand : Nat) :
    selectInWords samples s operand = ofExcept (select samples s operand) := by
  unfold selectInWords select
  split
  · next h =>
    rw [Machine.slice_eq (Nat.le_add_right _ _) h.2, Nat.add_sub_cancel_left]
    rfl
  · rfl

/-- The product of every left factor with every right one. -/
def allProductsInWords (left right : List (Matrix Binary64)) :
    Machine (List (Matrix Binary64)) := do
  return (← left.mapM fun a => right.mapM fun b => Matrix.multiplyInWords a b).flatten

theorem allProductsInWords_eq {left right : List (Matrix Binary64)}
    (h : ∀ a ∈ left, ∀ b ∈ right, Matrix.multiplyInWords a b = ofExcept (a.multiply b)) :
    allProductsInWords left right = ofExcept (allProducts left right) := by
  have hrows : (left.mapM fun a => right.mapM fun b => Matrix.multiplyInWords a b) =
      ofExcept (left.mapM fun a => right.mapM fun b => a.multiply b) :=
    Machine.ofExcept_mapM fun a ha => Machine.ofExcept_mapM (h a ha)
  rw [allProductsInWords, hrows, allProducts, Machine.ofExcept_bind]
  rfl

/-- The results of an operation on loaded components. -/
def resultsInWords (components : List (List (Matrix Binary64))) (left right : Selection) :
    Machine (List (Matrix Binary64)) :=
  match components with
  | [lefts, rights] => do
    let lefts ← selectInWords lefts left 0
    let rights ← selectInWords rights right 1
    allProductsInWords lefts rights
  | components => throw (.refused (.componentCount components.length operandCount))

/-- On data of the shape of a sound product, results come as in the library. -/
theorem resultsInWords_eq {components : List (List (Matrix Binary64))} (hp : p.Sound)
    (hs : p.Shapes components) (left right : Selection) :
    resultsInWords components left right = ofExcept (results components left right) := by
  cases hs with
  | results => rfl
  | @operands lefts rights hl hr =>
    rw [resultsInWords, results, selectInWords_eq, Machine.ofExcept_bind]
    cases hls : select lefts left 0 with
    | error failure => rfl
    | ok ls =>
      show (selectInWords rights right 1 >>= _) = ofExcept (select rights right 1 >>= _)
      rw [selectInWords_eq, Machine.ofExcept_bind]
      cases hrs : select rights right 1 with
      | error failure => rfl
      | ok rs =>
        refine allProductsInWords_eq fun a ha b hb => ?_
        exact (hl a (mem_of_select hls a ha)).multiplyInWords_eq (hr b (mem_of_select hrs b hb))
          hp.left hp.right hp.result

/-! ### The steps -/

/-- Copies the host's samples into a payload. -/
def encodeInWords (p : Product) (session : SessionId) (packs : List Pack) : Act World Handle := do
  let components ← Machine.act (p.operandsInWords packs)
  Object.create session dataSize (encodedBit ||| plainBit) ⟨.matrices, components⟩

/-- Multiplies every selected pair of loaded samples. -/
def operateInWords (p : Product) (session : SessionId) (loaded : Handle)
    (selections : List Selection) : Act World Handle := do
  let (left, right) ← Act.ofExcept (p.selections selections)
  let components ← Object.retrieve session loaded loadedBit .matrices
  let results ← Machine.act (resultsInWords components left right)
  Object.create session dataSize operatedBit ⟨.matrices, [results]⟩

/-- Does a job and yields the handles it makes. All but encoding and operating share payloads or
write numbers into the room that there is. -/
def carryOutInWords (address : Nat) (session : SessionId) (p : Product) :
    Job → Act World (List Handle)
  | .encode packs => return [← p.encodeInWords session packs]
  | .operate loaded selections => return [← p.operateInWords session loaded selections]
  | job => Benchmark.carryOut address ⟨session, .product p⟩ job

theorem encodeInWords_eq (hp : p.Sound) : p.encodeInWords = p.encode := by
  funext session packs
  rw [encodeInWords, encode, operandsInWords_eq hp, Machine.act_ofExcept]

theorem operateInWords_eq {w : World} {session : SessionId} {loaded : Handle}
    (hloaded : ∀ components w', Object.retrieve session loaded loadedBit .matrices w =
      (.ok components, w') → ∃ q : Product, q.Sound ∧ q.Shapes components)
    (selections : List Selection) :
    p.operateInWords session loaded selections w = p.operate session loaded selections w := by
  rw [operateInWords, operate]
  cases p.selections selections with
  | error failure => rfl
  | ok chosen =>
    show (Object.retrieve session loaded loadedBit .matrices >>= _) w =
      (Object.retrieve session loaded loadedBit .matrices >>= _) w
    rw [Act.bind_apply, Act.bind_apply]
    cases hr : Object.retrieve session loaded loadedBit .matrices w with
    | mk outcome w' =>
      cases outcome with
      | error reason => rfl
      | ok components =>
        obtain ⟨q, hq, hshapes⟩ := hloaded components w' hr
        show (Machine.act (resultsInWords components chosen.1 chosen.2) >>= _) w' = _
        rw [resultsInWords_eq hq hshapes, Machine.act_ofExcept]

end Product

end HandleBench
