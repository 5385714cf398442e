import HandleBench.Proofs.Samples
import Mathlib.Data.List.Basic
import Mathlib.Data.List.GetD

/-!
# Products of matrices, entry by entry

What a product holds at row `r` and column `c` is the sum over the inner index `k`, rising from
zero, of the left entry at `r` and `k` times the right entry at `k` and `c`, added up from the left
and begun with zero: `Matrix.dot`. Nothing is assumed about the addition and the multiplication, so
the order of the sums is part of the statement; with rounding it decides the last bits.

The product can also be computed in place. One flat list of zeros is made for all results, and for
every row of the left factor the slice of its result row is updated once for each of the row's
elements, with the slice of the right factor's row. `Matrix.multiplyInPlace?` is that computation
with every slice checked; it is never stopped by a check and gives the same product. What carries
the outer loop is that the list consists of finished rows followed by zeros.
-/

namespace HandleBench

namespace Matrix

variable {α : Type}

/-! ### Places in flat entries -/

/-- Row `r` of the entries. -/
def row (m : Matrix α) (r : Nat) : List α := (m.entries.drop (r * m.cols)).take m.cols

/-- The entry in row `r` and column `c`. -/
def entry [Zero α] (m : Matrix α) (r c : Nat) : α := m.entries.getD (r * m.cols + c) 0

/-- Rows before `rows` end where flat entries of that many rows still are. -/
theorem succ_mul_le {r rows : Nat} (cols : Nat) (hr : r < rows) : (r + 1) * cols ≤ rows * cols :=
  Nat.mul_le_mul_right cols hr

theorem length_row {m : Matrix α} (hm : m.IsFull) {r : Nat} (hr : r < m.rows) :
    (m.row r).length = m.cols := by
  have hle : (r + 1) * m.cols ≤ m.entries.length := by
    rw [hm]
    exact succ_mul_le m.cols hr
  rw [Nat.succ_mul] at hle
  rw [row, List.length_take, List.length_drop]
  omega

/-- An element of a row is the entry in its column. -/
theorem getD_row [Zero α] (m : Matrix α) (r : Nat) {c : Nat} (hc : c < m.cols) :
    (m.row r).getD c 0 = m.entry r c := by
  rw [entry, List.getD_eq_getElem?_getD, List.getD_eq_getElem?_getD, row,
    List.getElem?_take_of_lt hc, List.getElem?_drop]

/-- Pieces are cut one behind the other. -/
theorem pieces_eq_map (size count : Nat) (elements : List α) :
    pieces size count elements =
      (List.range count).map fun i => (elements.drop (i * size)).take size := by
  induction count generalizing elements with
  | zero => rfl
  | succ count ih =>
    rw [pieces, ih, List.range_succ_eq_map, List.map_cons, List.map_map, Nat.zero_mul,
      List.drop_zero]
    refine congrArg (elements.take size :: ·) (List.map_congr_left fun i _ => ?_)
    rw [Function.comp, List.drop_drop, Nat.succ_mul, Nat.add_comm]

theorem rowLists_eq_map (m : Matrix α) : m.rowLists = (List.range m.rows).map m.row :=
  pieces_eq_map m.cols m.rows m.entries

/-! ### The entries of a product -/

section Entries

variable [Zero α] [Add α] [Mul α]

/-- The sum over the inner index `k`, rising and begun with zero, of the entry of `a` at `r` and `k`
times the entry of `b` at `k` and `c`. -/
def dot (a b : Matrix α) (r c : Nat) : α :=
  (List.range a.cols).foldl (fun sum k => sum + a.entry r k * b.entry k c) 0

/-- An element of a result row gathers the products of its own column. -/
theorem getElem?_gatherRow {cols c : Nat} {result left entries : List α} {sum : α}
    (hr : result[c]? = some sum) (hc : c < cols) (he : left.length * cols ≤ entries.length) :
    (gatherRow cols result left entries)[c]? =
      some ((List.range left.length).foldl
        (fun sum k => sum + left.getD k 0 * entries.getD (k * cols + c) 0) sum) := by
  induction left generalizing result entries sum with
  | nil => exact hr
  | cons x left ih =>
    rw [List.length_cons, Nat.succ_mul] at he
    have hlt : c < entries.length := by omega
    have hgather : (gather result x (entries.take cols))[c]? =
        some (sum + x * entries.getD c 0) := by
      rw [gather, List.getElem?_zipWith, hr, List.getElem?_take_of_lt hc,
        List.getElem?_eq_getElem hlt, List.getD_eq_getElem _ _ hlt]
    rw [gatherRow, ih hgather (by rw [List.length_drop]; omega), List.length_cons,
      List.range_succ_eq_map, List.foldl_cons, List.foldl_map, Nat.zero_mul, Nat.zero_add]
    refine congrArg some (List.foldl_ext _ _ _ fun sum k _ => ?_)
    simp only [List.getD_eq_getElem?_getD, List.getElem?_drop, List.getElem?_cons_succ]
    rw [Nat.succ_mul, Nat.add_right_comm, Nat.add_comm cols]

theorem getElem?_rowTimes {a b : Matrix α} (ha : a.IsFull) (hb : b.IsFull)
    (hshape : a.cols = b.rows) {r c : Nat} (hr : r < a.rows) (hc : c < b.cols) :
    (rowTimes b.cols (a.row r) b.entries)[c]? = some (dot a b r c) := by
  have hlength : (a.row r).length = a.cols := length_row ha hr
  have he : (a.row r).length * b.cols ≤ b.entries.length := by
    rw [hlength, hshape]
    exact Nat.le_of_eq hb.symm
  have hzero : (List.replicate b.cols (0 : α))[c]? = some 0 := by
    rw [List.getElem?_replicate, if_pos hc]
  rw [rowTimes, getElem?_gatherRow hzero hc he, hlength, dot]
  refine congrArg some (List.foldl_ext _ _ _ fun sum k hk => ?_)
  rw [getD_row a r (List.mem_range.1 hk)]
  rfl

/-- The result rows of the first `n` rows of the left factor, one behind the other. -/
def finished (a b : Matrix α) (n : Nat) : List α :=
  ((List.range n).map fun r => rowTimes b.cols (a.row r) b.entries).flatten

theorem finished_succ (a b : Matrix α) (n : Nat) :
    finished a b (n + 1) = finished a b n ++ rowTimes b.cols (a.row n) b.entries := by
  rw [finished, List.range_succ, List.map_append, List.flatten_append]
  simp [finished]

theorem length_rowTimes {a b : Matrix α} (ha : a.IsFull) (hb : b.IsFull)
    (hshape : a.cols = b.rows) {r : Nat} (hr : r < a.rows) :
    (rowTimes b.cols (a.row r) b.entries).length = b.cols := by
  refine length_gatherRow List.length_replicate ?_
  rw [length_row ha hr, hshape]
  exact Nat.le_of_eq hb.symm

theorem length_finished {a b : Matrix α} (ha : a.IsFull) (hb : b.IsFull)
    (hshape : a.cols = b.rows) {n : Nat} (hn : n ≤ a.rows) :
    (finished a b n).length = n * b.cols := by
  induction n with
  | zero => simp [finished]
  | succ n ih =>
    rw [finished_succ, List.length_append, ih (Nat.le_of_succ_le hn),
      length_rowTimes ha hb hshape hn, Nat.succ_mul]

/-- The entries of a product are the result rows of all rows of the left factor. -/
theorem multiply_eq {a b : Matrix α} (hshape : a.cols = b.rows) :
    a.multiply b = .ok ⟨a.rows, b.cols, finished a b a.rows⟩ := by
  rw [multiply, if_pos hshape, rowLists_eq_map, List.flatMap_map, List.flatMap_def]
  split
  · next hcols =>
    have hfinished : finished a b a.rows = [] := by
      simp [finished, hcols]
    rw [hfinished]
  · rfl

theorem getElem?_finished {a b : Matrix α} (ha : a.IsFull) (hb : b.IsFull)
    (hshape : a.cols = b.rows) {r c : Nat} (hr : r < a.rows) (hc : c < b.cols) :
    (finished a b a.rows)[r * b.cols + c]? = some (dot a b r c) := by
  have hcols : 0 < b.cols := Nat.zero_lt_of_lt hc
  have hrows : ∀ xs ∈ (List.range a.rows).map fun r => rowTimes b.cols (a.row r) b.entries,
      xs.length = b.cols := by
    intro xs hxs
    obtain ⟨r, hr, rfl⟩ := List.mem_map.1 hxs
    exact length_rowTimes ha hb hshape (List.mem_range.1 hr)
  have hdiv : (r * b.cols + c) / b.cols = r := by
    rw [Nat.add_comm, Nat.add_mul_div_right _ _ hcols, Nat.div_eq_of_lt hc, Nat.zero_add]
  have hmod : (r * b.cols + c) % b.cols = c := by
    rw [Nat.add_comm, Nat.add_mul_mod_self_right, Nat.mod_eq_of_lt hc]
  rw [finished, getElem?_flatten_of_length hcols hrows, hdiv, hmod, List.getElem?_map,
    List.getElem?_range hr]
  exact getElem?_rowTimes ha hb hshape hr hc

end Entries

/-! ### The product in place -/

/-- The elements from `start` up to `stop`; none if they would leave the list. -/
def slice? (start stop : Nat) (elements : List α) : Option (List α) :=
  if start ≤ stop ∧ stop ≤ elements.length then some ((elements.drop start).take (stop - start))
  else none

/-- The slice of row `r` in flat entries of `cols` to a row. -/
def rowSlice? (cols r : Nat) (entries : List α) : Option (List α) :=
  slice? (r * cols) ((r + 1) * cols) entries

/-- Flat entries of `cols` to a row, after the slice of row `r` has been updated to `row`. -/
def putRow (cols r : Nat) (row entries : List α) : List α :=
  entries.take (r * cols) ++ row ++ entries.drop ((r + 1) * cols)

theorem rowSlice?_eq {cols r : Nat} {entries : List α} (h : (r + 1) * cols ≤ entries.length) :
    rowSlice? cols r entries = some ((entries.drop (r * cols)).take cols) := by
  have hle : r * cols ≤ (r + 1) * cols := Nat.mul_le_mul_right cols (Nat.le_succ r)
  have hsub : (r + 1) * cols - r * cols = cols := by
    rw [Nat.succ_mul, Nat.add_sub_cancel_left]
  rw [rowSlice?, slice?, if_pos ⟨hle, h⟩, hsub]

/-- The slice of a row of a full matrix is that row. -/
theorem rowSlice?_entries {m : Matrix α} (hm : m.IsFull) {r : Nat} (hr : r < m.rows) :
    rowSlice? m.cols r m.entries = some (m.row r) := by
  refine rowSlice?_eq ?_
  rw [hm]
  exact succ_mul_le m.cols hr

/-- Behind `r` rows, the next slice is the next row. -/
theorem rowSlice?_append {cols r : Nat} {front row rest : List α}
    (hfront : front.length = r * cols) (hrow : row.length = cols) :
    rowSlice? cols r (front ++ (row ++ rest)) = some row := by
  have hle : (r + 1) * cols ≤ (front ++ (row ++ rest)).length := by
    rw [List.length_append, List.length_append, hfront, hrow, Nat.succ_mul]
    omega
  rw [rowSlice?_eq hle, List.drop_left' hfront, List.take_left' hrow]

theorem putRow_append {cols r : Nat} {front row rest : List α} (row' : List α)
    (hfront : front.length = r * cols) (hrow : row.length = cols) :
    putRow cols r row' (front ++ (row ++ rest)) = front ++ row' ++ rest := by
  have hboth : (front ++ row).length = (r + 1) * cols := by
    rw [List.length_append, hfront, hrow, Nat.succ_mul]
  rw [putRow, List.take_left' hfront, ← List.append_assoc front row, List.drop_left' hboth]

/-- Updating a row in place element by element gives what gathering gives. -/
theorem overwrite_eq_gather [Add α] [Mul α] (x : α) {result row : List α}
    (h : result.length = row.length) :
    overwrite (fun sum y => sum + x * y) result row = gather result x row := by
  induction result generalizing row with
  | nil =>
    cases row with
    | nil => rfl
    | cons => cases h
  | cons sum result ih =>
    cases row with
    | nil => cases h
    | cons y row =>
      rw [overwrite, ih (Nat.succ.inj h)]
      rfl

section InPlace

variable [Add α] [Mul α]

/-- A result row after the elements of a left row, from the `k`th on: each is taken times the slice
of its row of the right factor, and the result row is updated in place. -/
def updateRow? (b : Matrix α) : Nat → List α → List α → Option (List α)
  | _, result, [] => some result
  | k, result, x :: left => do
    let row ← rowSlice? b.cols k b.entries
    updateRow? b (k + 1) (overwrite (fun sum y => sum + x * y) result row) left

/-- The flat results after row `r` of the left factor. -/
def updateResults? (a b : Matrix α) (results : List α) (r : Nat) : Option (List α) := do
  let left ← rowSlice? a.cols r a.entries
  let result ← rowSlice? b.cols r results
  let result ← updateRow? b 0 result left
  return putRow b.cols r result results

/-- The product computed in place; none if a slice would leave its list. -/
def multiplyInPlace? [Zero α] (a b : Matrix α) : Option (Except Failure (Matrix α)) :=
  if a.cols = b.rows then do
    let results ← (List.range a.rows).foldlM (updateResults? a b) (zeros a.rows b.cols).entries
    return .ok ⟨a.rows, b.cols, results⟩
  else some (.error (.matrixShapes a.rows a.cols b.rows b.cols))

/-- While the left row meets rows of a full right factor, no slice leaves it, and the result row
gathers what it gathers from the entries taken off one row at a time. -/
theorem updateRow?_eq {b : Matrix α} (hb : b.IsFull) {k : Nat} {result left : List α}
    (hr : result.length = b.cols) (hk : k + left.length ≤ b.rows) :
    updateRow? b k result left =
      some (gatherRow b.cols result left (b.entries.drop (k * b.cols))) := by
  induction left generalizing k result with
  | nil => rfl
  | cons x left ih =>
    rw [List.length_cons] at hk
    have hlt : k < b.rows := by omega
    have hrow : (b.row k).length = b.cols := length_row hb hlt
    have hgather : (gather result x (b.row k)).length = b.cols := by
      rw [gather, List.length_zipWith, hr, hrow, Nat.min_self]
    rw [updateRow?, rowSlice?_entries hb hlt, Option.bind_eq_bind, Option.bind_some,
      overwrite_eq_gather x (hr.trans hrow.symm), ih hgather (by omega), gatherRow, List.drop_drop,
      Nat.succ_mul]
    rfl

/-- Row `r` of the left factor turns the first of the rows that are still zero into its result row
and leaves the finished rows before it and the zeros behind it. -/
theorem updateResults?_eq [Zero α] {a b : Matrix α} (ha : a.IsFull) (hb : b.IsFull)
    (hshape : a.cols = b.rows) {r : Nat} (hr : r < a.rows) (rest : List α) :
    updateResults? a b (finished a b r ++ (List.replicate b.cols 0 ++ rest)) r =
      some (finished a b (r + 1) ++ rest) := by
  have hfront : (finished a b r).length = r * b.cols :=
    length_finished ha hb hshape (Nat.le_of_lt hr)
  have hzeros : (List.replicate b.cols (0 : α)).length = b.cols := List.length_replicate
  have hleft : 0 + (a.row r).length ≤ b.rows := by
    rw [Nat.zero_add, length_row ha hr]
    exact Nat.le_of_eq hshape
  simp only [updateResults?, rowSlice?_entries ha hr, rowSlice?_append hfront hzeros,
    updateRow?_eq hb hzeros hleft, Option.bind_eq_bind, Option.bind_some, Option.pure_def]
  rw [putRow_append _ hfront hzeros, Nat.zero_mul, List.drop_zero, finished_succ]
  rfl

/-- After `n` rows of the left factor the results are `n` finished rows and zeros for the others. -/
theorem foldlM_updateResults? [Zero α] {a b : Matrix α} (ha : a.IsFull) (hb : b.IsFull)
    (hshape : a.cols = b.rows) {n : Nat} (hn : n ≤ a.rows) :
    (List.range n).foldlM (updateResults? a b) (zeros a.rows b.cols).entries =
      some (finished a b n ++ List.replicate ((a.rows - n) * b.cols) 0) := by
  induction n with
  | zero => rfl
  | succ n ih =>
    have hzeros : List.replicate ((a.rows - n) * b.cols) (0 : α) =
        List.replicate b.cols 0 ++ List.replicate ((a.rows - (n + 1)) * b.cols) 0 := by
      rw [List.replicate_append_replicate]
      congr 1
      rw [show a.rows - n = (a.rows - (n + 1)) + 1 by omega, Nat.succ_mul, Nat.add_comm]
    rw [List.range_succ, List.foldlM_append, ih (Nat.le_of_succ_le hn), Option.bind_eq_bind,
      Option.bind_some, List.foldlM_cons, hzeros, updateResults?_eq ha hb hshape hn]
    rfl

/-- Computed in place, the product of full matrices never leaves a list, whether their shapes meet
or not, and comes out the same. -/
theorem multiplyInPlace?_eq [Zero α] {a b : Matrix α} (ha : a.IsFull) (hb : b.IsFull) :
    multiplyInPlace? a b = some (a.multiply b) := by
  by_cases hshape : a.cols = b.rows
  · rw [multiplyInPlace?, if_pos hshape, foldlM_updateResults? ha hb hshape (Nat.le_refl _),
      Nat.sub_self, Nat.zero_mul, List.replicate_zero, List.append_nil, multiply_eq hshape]
    rfl
  · rw [multiplyInPlace?, if_neg hshape, multiply, if_neg hshape]

end InPlace

/-! ### The product of two matrices -/

section Product

variable [Zero α] [Add α] [Mul α]

/-- `m` is the product of `a` and `b`. -/
structure IsProduct (a b m : Matrix α) : Prop where
  /-- It has the rows of the left factor. -/
  rows : m.rows = a.rows
  /-- It has the columns of the right factor. -/
  cols : m.cols = b.cols
  /-- Its entries fill that shape. -/
  full : m.entries.length = a.rows * b.cols
  /-- At each place it has the sum of the products along the row and the column that meet there. -/
  entry : ∀ r < a.rows, ∀ c < b.cols, m.entries[r * b.cols + c]? = some (dot a b r c)

/-- Whatever the addition and the multiplication are, full matrices whose shapes meet have a
product, and only those whose shapes do not meet are refused, as invalid arguments. Either answer
can be computed in place without leaving a list. -/
theorem multiply_isProduct {a b : Matrix α} (ha : a.IsFull) (hb : b.IsFull) :
    (a.cols = b.rows → ∃ m, a.multiply b = .ok m ∧ IsProduct a b m) ∧
      ((∃ failure, a.multiply b = .error failure ∧ failure.code = .invalidArgs) ↔
        a.cols ≠ b.rows) ∧
      multiplyInPlace? a b = some (a.multiply b) := by
  refine ⟨fun hshape => ?_, ⟨?_, fun hshape => ?_⟩, multiplyInPlace?_eq ha hb⟩
  · refine ⟨_, multiply_eq hshape, rfl, rfl, length_finished ha hb hshape (Nat.le_refl _), ?_⟩
    exact fun r hr c hc => getElem?_finished ha hb hshape hr hc
  · rintro ⟨failure, hfailure, -⟩ hshape
    rw [multiply_eq hshape] at hfailure
    cases hfailure
  · exact ⟨.matrixShapes a.rows a.cols b.rows b.cols, if_neg hshape, rfl⟩

/-- Two rows of three times three rows of five: ten numbers, the last of them gathered along the
last row and the last column. -/
theorem multiply_rectangular :
    let a : Matrix Binary64 := ofFn 2 3 fun r c => .ofUInt64 (.ofNat (r + c))
    let b : Matrix Binary64 := ofFn 3 5 fun r c => .ofUInt64 (.ofNat (r * c))
    ∃ m, a.multiply b = .ok m ∧ m.entries.length = 10 ∧ m.entries[9]? = some (.ofUInt64 32) := by
  intro a b
  obtain ⟨m, hm, hproduct⟩ := (multiply_isProduct (isFull_ofFn 2 3 _) (isFull_ofFn 3 5 _)).1
    (show a.cols = b.rows by decide)
  exact ⟨m, hm, hproduct.full, (hproduct.entry 1 (by decide) 4 (by decide)).trans (by decide)⟩

end Product

end Matrix

end HandleBench
