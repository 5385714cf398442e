import HandleBench.Failure

/-!
# Matrices

Dense matrices, row by row. The product goes through the rows of the left factor; each result row
starts from zeros and gathers, for one element of the left row after the other, that element times
the row of the right factor that it meets. So every entry is a sum of products with the inner index
rising, in whatever arithmetic the entries have.

A matrix without entries may have a great many rows or columns. The product takes the rows of the
right factor off its entries one by one, as the left row meets them, and nothing is done for a
product without columns, so the work is bounded by the entries that there are.
-/

namespace HandleBench

/-- A matrix, its entries row by row. -/
structure Matrix (α : Type) where
  /-- The count of rows. -/
  rows : Nat
  /-- The count of columns. -/
  cols : Nat
  /-- The entries, row by row. -/
  entries : List α
  deriving DecidableEq, Repr

namespace Matrix

variable {α : Type}

/-- The entries fill the shape. -/
def IsFull (m : Matrix α) : Prop := m.entries.length = m.rows * m.cols

/-- The matrix with the given entries, refused unless they fill its shape. -/
def ofEntries (rows cols : Nat) (entries : List α) : Except Failure (Matrix α) :=
  if entries.length = rows * cols then .ok ⟨rows, cols, entries⟩
  else .error (.matrixSize rows cols entries.length)

/-- The matrix whose entry in row `r` and column `c` is `f r c`. -/
def ofFn (rows cols : Nat) (f : Nat → Nat → α) : Matrix α :=
  ⟨rows, cols, (List.range (rows * cols)).map fun i => f (i / cols) (i % cols)⟩

/-- The matrix of zeros. -/
def zeros [Zero α] (rows cols : Nat) : Matrix α := ⟨rows, cols, List.replicate (rows * cols) 0⟩

/-- The square matrix with `one` on its diagonal and zeros elsewhere. -/
def identity [Zero α] (one : α) (n : Nat) : Matrix α :=
  ofFn n n fun r c => if r = c then one else 0

/-- The first `count` pieces of `size` elements each. -/
def pieces (size : Nat) : Nat → List α → List (List α)
  | 0, _ => []
  | count + 1, elements => elements.take size :: pieces size count (elements.drop size)

/-- The rows, each a list of entries. -/
def rowLists (m : Matrix α) : List (List α) := pieces m.cols m.rows m.entries

/-- A result row after it has gathered `x` times `row`. -/
def gather [Add α] [Mul α] (result : List α) (x : α) (row : List α) : List α :=
  result.zipWith (fun sum y => sum + x * y) row

/-- A result row after it has gathered the elements of a left row, each times the row that it meets
at the front of `entries`, where a row has `cols` entries. -/
def gatherRow [Add α] [Mul α] (cols : Nat) (result : List α) : List α → List α → List α
  | [], _ => result
  | x :: left, entries =>
    gatherRow cols (gather result x (entries.take cols)) left (entries.drop cols)

/-- The result row of one left row against the entries of the right factor. -/
def rowTimes [Zero α] [Add α] [Mul α] (cols : Nat) (left entries : List α) : List α :=
  gatherRow cols (List.replicate cols 0) left entries

/-- The product of two matrices, refused unless their shapes meet. -/
def multiply [Zero α] [Add α] [Mul α] (a b : Matrix α) : Except Failure (Matrix α) :=
  if a.cols = b.rows then
    .ok ⟨a.rows, b.cols,
      if b.cols = 0 then [] else a.rowLists.flatMap (rowTimes b.cols · b.entries)⟩
  else .error (.matrixShapes a.rows a.cols b.rows b.cols)

/-- A row without columns stays empty, whatever it gathers. -/
@[simp] theorem gatherRow_nil [Add α] [Mul α] (cols : Nat) (left entries : List α) :
    gatherRow cols [] left entries = [] := by
  induction left generalizing entries with
  | nil => rfl
  | cons x left ih => exact ih _

/-- A result row without columns is empty, so a product without columns has no entries. -/
@[simp] theorem rowTimes_zero [Zero α] [Add α] [Mul α] (left entries : List α) :
    rowTimes 0 left entries = [] := by
  simp [rowTimes]

/-- Entries given by row and column fill the shape. -/
theorem isFull_ofFn (rows cols : Nat) (f : Nat → Nat → α) : (ofFn rows cols f).IsFull := by
  simp [ofFn, IsFull]

/-- As many pieces are cut as are asked for, each of the same size while there are elements. -/
theorem length_of_mem_pieces {size count : Nat} {elements row : List α}
    (he : count * size ≤ elements.length) (hr : row ∈ pieces size count elements) :
    row.length = size := by
  induction count generalizing elements with
  | zero => cases hr
  | succ count ih =>
    rw [Nat.succ_mul] at he
    rcases List.mem_cons.1 hr with rfl | hr
    · rw [List.length_take]
      omega
    · refine ih ?_ hr
      rw [List.length_drop]
      omega

@[simp] theorem length_pieces (size count : Nat) (elements : List α) :
    (pieces size count elements).length = count := by
  induction count generalizing elements with
  | zero => rfl
  | succ count ih => rw [pieces, List.length_cons, ih]

/-- A result row keeps its columns, as long as the left row meets whole rows. -/
theorem length_gatherRow [Add α] [Mul α] {cols : Nat} {result left entries : List α}
    (hr : result.length = cols) (he : left.length * cols ≤ entries.length) :
    (gatherRow cols result left entries).length = cols := by
  induction left generalizing result entries with
  | nil => exact hr
  | cons x left ih =>
    rw [List.length_cons, Nat.succ_mul] at he
    refine ih ?_ ?_
    · rw [gather, List.length_zipWith, List.length_take, hr]
      omega
    · rw [List.length_drop]
      omega

/-- The product of two full matrices is full. -/
theorem isFull_multiply [Zero α] [Add α] [Mul α] {a b m : Matrix α} (ha : a.IsFull)
    (hb : b.IsFull) (hm : a.multiply b = .ok m) :
    m.IsFull ∧ m.rows = a.rows ∧ m.cols = b.cols := by
  unfold multiply at hm
  split at hm
  · next hshape =>
    cases hm
    refine ⟨?_, rfl, rfl⟩
    show List.length (if b.cols = 0 then [] else _) = a.rows * b.cols
    split
    · next hcols => rw [hcols, Nat.mul_zero, List.length_nil]
    · have row : ∀ left ∈ a.rowLists, (rowTimes b.cols left b.entries).length = b.cols := by
        intro left hleft
        have hl : left.length = a.cols := length_of_mem_pieces (Nat.le_of_eq ha.symm) hleft
        refine length_gatherRow List.length_replicate ?_
        rw [hl, hshape]
        exact Nat.le_of_eq hb.symm
      have hlengths : a.rowLists.map (fun left => (rowTimes b.cols left b.entries).length) =
          List.replicate a.rows b.cols :=
        List.eq_replicate_iff.2 ⟨by simp [rowLists], by simpa using row⟩
      rw [List.length_flatMap, hlengths, List.sum_replicate_nat]
  · cases hm

/-- Equal shapes, and entries that are equal one by one. -/
def same (eq : α → α → Bool) (a b : Matrix α) : Bool :=
  a.rows == b.rows && a.cols == b.cols && a.entries.length == b.entries.length &&
    (a.entries.zip b.entries).all fun (x, y) => eq x y

end Matrix

end HandleBench
