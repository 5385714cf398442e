import HandleBench.Pipeline.Product

/-!
# Samples and their products

The samples of an operand are the buffers of the first pack at its position, each taken for the
matrix at its front. Encoding checks them and keeps all of them in order, or the first one only;
operating multiplies each of the selected left ones with each of the selected right ones. Whatever
encoding has let through has the right shape, so operating on it within its range always succeeds,
and which product comes where is settled by two divisions, `Product.allProducts_eq`.
-/

namespace HandleBench

/-! ### Computations over lists -/

namespace Except

variable {ε α β : Type} {f : α → Except ε β}

theorem bind_eq_ok {e : Except ε α} {b : β} : (e >>= f) = .ok b ↔ ∃ a, e = .ok a ∧ f a = .ok b := by
  cases e with
  | error failure => exact ⟨fun h => (by cases h), fun ⟨a, ha, _⟩ => (by cases ha)⟩
  | ok a => exact ⟨fun h => ⟨a, rfl, h⟩, fun ⟨a', ha, h⟩ => (by cases ha; exact h)⟩

theorem eq_ok_of_toOption {e : Except ε α} {a : α} (h : e.toOption = some a) : e = .ok a := by
  cases e with
  | error => cases h
  | ok a' =>
    cases h
    rfl

/-- If all computations succeed, each result is at the place of what it comes from. -/
theorem mapM_of_forall {xs : List α} (h : ∀ x ∈ xs, ∃ y, f x = .ok y) :
    ∃ ys : List β, xs.mapM f = .ok ys ∧ ys.length = xs.length ∧
      ∀ (i : Nat) x, xs[i]? = some x → ∃ y, f x = .ok y ∧ ys[i]? = some y := by
  induction xs with
  | nil => exact ⟨[], rfl, rfl, fun i x hx => by cases hx⟩
  | cons x xs ih =>
    obtain ⟨y, hy⟩ := h x List.mem_cons_self
    obtain ⟨ys, hys, hlength, hplaces⟩ := ih fun x' hx => h x' (List.mem_cons_of_mem x hx)
    refine ⟨y :: ys, ?_, congrArg (· + 1) hlength, ?_⟩
    · rw [List.mapM_cons, hy, hys]
      rfl
    · intro i x' hx
      cases i with
      | zero =>
        cases hx
        exact ⟨y, hy, rfl⟩
      | succ i => exact hplaces i x' hx

/-- What comes of a list is settled by what comes of its elements. -/
theorem eq_map_of_mapM {g : α → β} (hg : ∀ x y, f x = .ok y → y = g x) {xs : List α}
    {ys : List β} (h : xs.mapM f = .ok ys) : ys = xs.map g := by
  induction xs generalizing ys with
  | nil =>
    cases h
    rfl
  | cons x xs ih =>
    rw [List.mapM_cons] at h
    obtain ⟨y, hy, h⟩ := bind_eq_ok.1 h
    obtain ⟨ys', hys, h⟩ := bind_eq_ok.1 h
    cases h
    rw [List.map_cons, ← hg x y hy, ← ih hys]

/-- Whatever is in the results comes of one of the elements. -/
theorem exists_of_mem_mapM {xs : List α} {ys : List β} (h : xs.mapM f = .ok ys) {y : β}
    (hy : y ∈ ys) : ∃ x ∈ xs, f x = .ok y := by
  induction xs generalizing ys with
  | nil =>
    cases h
    cases hy
  | cons x xs ih =>
    rw [List.mapM_cons] at h
    obtain ⟨y', hy', h⟩ := bind_eq_ok.1 h
    obtain ⟨ys', hys, h⟩ := bind_eq_ok.1 h
    cases h
    rcases List.mem_cons.1 hy with rfl | hy
    · exact ⟨x, List.mem_cons_self, hy'⟩
    · obtain ⟨x', hx, hf⟩ := ih hys hy
      exact ⟨x', List.mem_cons_of_mem x hx, hf⟩

theorem length_of_mapM {xs : List α} {ys : List β} (h : xs.mapM f = .ok ys) :
    ys.length = xs.length := by
  induction xs generalizing ys with
  | nil =>
    cases h
    rfl
  | cons x xs ih =>
    rw [List.mapM_cons] at h
    obtain ⟨y, -, h⟩ := bind_eq_ok.1 h
    obtain ⟨ys', hys, h⟩ := bind_eq_ok.1 h
    cases h
    rw [List.length_cons, ih hys, List.length_cons]

/-- If something comes of a list, something comes of each of its elements. -/
theorem forall_of_mapM {xs : List α} {ys : List β} (h : xs.mapM f = .ok ys) :
    ∀ x ∈ xs, ∃ y, f x = .ok y := by
  induction xs generalizing ys with
  | nil => exact fun x hx => absurd hx List.not_mem_nil
  | cons x xs ih =>
    rw [List.mapM_cons] at h
    obtain ⟨y, hy, h⟩ := bind_eq_ok.1 h
    obtain ⟨ys', hys, -⟩ := bind_eq_ok.1 h
    exact List.forall_mem_cons.2 ⟨⟨y, hy⟩, ih hys⟩

end Except

/-- In a list of lists of the same length, places are counted in that length. -/
theorem getElem?_flatten_of_length {α : Type} {n : Nat} (hn : 0 < n) {xss : List (List α)}
    (hxss : ∀ xs ∈ xss, xs.length = n) (q : Nat) :
    xss.flatten[q]? = xss[q / n]?.bind (·[q % n]?) := by
  induction xss generalizing q with
  | nil => simp
  | cons xs xss ih =>
    have hlength : xs.length = n := hxss xs List.mem_cons_self
    rw [List.flatten_cons]
    by_cases hq : q < n
    · rw [List.getElem?_append_left (by omega), Nat.div_eq_of_lt hq, Nat.mod_eq_of_lt hq]
      rfl
    · have hle : n ≤ q := Nat.le_of_not_lt hq
      rw [List.getElem?_append_right (by omega), hlength,
        ih fun xs' hxs => hxss xs' (List.mem_cons_of_mem xs hxs), Nat.div_eq_sub_div hn hle,
        List.getElem?_cons_succ, ← Nat.mod_eq_sub_mod hle]

/-- The selection takes at least one of `n` samples and none behind the last. -/
def Selection.Within (s : Selection) (n : Nat) : Prop :=
  0 < s.count.toNat ∧ s.start.toNat + s.count.toNat ≤ n

instance (s : Selection) (n : Nat) : Decidable (s.Within n) := inferInstanceAs (Decidable (_ ∧ _))

namespace Product

variable {p : Product} {packs : List Pack}

/-! ### Samples -/

/-- The matrix at the front of a sample, as many of its numbers as the shape has. -/
def sampleMatrix (rows cols : Nat) (octets : Octets) : Matrix Binary64 :=
  ⟨rows, cols, (Binary64.readAll octets).take (rows * cols)⟩

/-- The samples at a position: the first one for a latency benchmark, all of them otherwise. -/
def samples (p : Product) (packs : List Pack) (position : UInt64) (rows cols : Nat) :
    List (Matrix Binary64) :=
  match packs.find? (·.position == position) with
  | none => []
  | some pack =>
    (if p.isLatency then pack.buffers.take 1 else pack.buffers).map (sampleMatrix rows cols)

/-- The left factors. -/
def lefts (p : Product) (packs : List Pack) : List (Matrix Binary64) :=
  p.samples packs 0 p.rows p.inner

/-- The right factors. -/
def rights (p : Product) (packs : List Pack) : List (Matrix Binary64) :=
  p.samples packs 1 p.inner p.cols

theorem eq_sampleMatrix {rows cols : Nat} (octets : Octets) (m : Matrix Binary64)
    (h : readSample rows cols octets = .ok m) : m = sampleMatrix rows cols octets := by
  unfold readSample at h
  split at h
  · cases h
  · unfold Matrix.ofEntries at h
    split at h
    · cases h
      rfl
    · cases h

theorem samples_of_operand {position : UInt64} {rows cols : Nat}
    {component : List (Matrix Binary64)}
    (h : p.operand packs position rows cols = .ok component) :
    component = p.samples packs position rows cols := by
  obtain ⟨pack, hf, h⟩ := Except.bind_eq_ok.1 h
  unfold Pack.find at hf
  unfold samples
  split at hf
  · next first hfirst =>
    cases hf
    rw [hfirst]
    dsimp only at h ⊢
    generalize (if p.isLatency = true then pack.buffers.take 1 else pack.buffers) = used at h ⊢
    split at h
    · cases h
    · exact Except.eq_map_of_mapM eq_sampleMatrix h
  · cases hf

/-- What encoding lets through are the samples of both operands. -/
theorem samples_of_operands {components : List (List (Matrix Binary64))}
    (h : p.operands packs = .ok components) : components = [p.lefts packs, p.rights packs] := by
  unfold operands at h
  split at h
  · cases h
  · obtain ⟨left, hleft, h⟩ := Except.bind_eq_ok.1 h
    obtain ⟨right, hright, h⟩ := Except.bind_eq_ok.1 h
    cases h
    rw [samples_of_operand hleft, samples_of_operand hright]
    rfl

theorem cols_of_mem_lefts {a : Matrix Binary64} (ha : a ∈ p.lefts packs) : a.cols = p.inner := by
  unfold lefts samples at ha
  split at ha
  · cases ha
  · obtain ⟨octets, -, rfl⟩ := List.mem_map.1 ha
    rfl

theorem rows_of_mem_rights {b : Matrix Binary64} (hb : b ∈ p.rights packs) : b.rows = p.inner := by
  unfold rights samples at hb
  split at hb
  · cases hb
  · obtain ⟨octets, -, rfl⟩ := List.mem_map.1 hb
    rfl

/-- The first two selections are let through; for a latency benchmark they must be those of the
first samples. -/
theorem selections_eq_ok {selections : List Selection} {left right : Selection} :
    p.selections selections = .ok (left, right) ↔ ∃ more, selections = left :: right :: more ∧
      (p.isLatency = true → left = ⟨0, 1⟩ ∧ right = ⟨0, 1⟩) := by
  constructor
  · intro h
    unfold Product.selections at h
    split at h
    · next l r more =>
      split at h
      · cases h
      · next hn =>
        cases h
        refine ⟨more, rfl, fun hl => ?_⟩
        simpa [hl] using hn
    · cases h
  · rintro ⟨more, rfl, first⟩
    cases hl : p.isLatency with
    | false => simp [selections, hl]
    | true => simp [selections, first hl]

theorem code_of_selections {selections : List Selection} {failure : Failure}
    (h : p.selections selections = .error failure) : failure.code = .invalidArgs := by
  unfold Product.selections at h
  split at h
  · split at h
    · cases h
      rfl
    · cases h
  · cases h
    rfl

/-- The samples that a selection takes. -/
def selected (ms : List (Matrix Binary64)) (s : Selection) : List (Matrix Binary64) :=
  (ms.drop s.start.toNat).take s.count.toNat

theorem select_eq {ms : List (Matrix Binary64)} {s : Selection} (hs : s.Within ms.length)
    (operand : Nat) : select ms s operand = .ok (selected ms s) :=
  if_pos hs

theorem select_eq_error {ms : List (Matrix Binary64)} {s : Selection} (hs : ¬ s.Within ms.length)
    (operand : Nat) :
    select ms s operand = .error (.selectionRange s.start s.count operand ms.length) :=
  if_neg hs

theorem length_selected {ms : List (Matrix Binary64)} {s : Selection} (hs : s.Within ms.length) :
    (selected ms s).length = s.count.toNat := by
  have hle := hs.2
  rw [selected, List.length_take, List.length_drop]
  omega

theorem getElem?_selected {ms : List (Matrix Binary64)} {s : Selection} {i : Nat}
    (hi : i < s.count.toNat) : (selected ms s)[i]? = ms[s.start.toNat + i]? := by
  rw [selected, List.getElem?_take_of_lt hi, List.getElem?_drop]

theorem mem_of_mem_selected {ms : List (Matrix Binary64)} {s : Selection} {m : Matrix Binary64}
    (hm : m ∈ selected ms s) : m ∈ ms :=
  List.mem_of_mem_drop (List.mem_of_mem_take hm)

/-- If all pairs can be multiplied, the products come in the order of the pairs, the right factors
changing faster. -/
theorem allProducts_eq {left right : List (Matrix Binary64)} (hright : 0 < right.length)
    (h : ∀ a ∈ left, ∀ b ∈ right, ∃ m, a.multiply b = .ok m) :
    ∃ ms, allProducts left right = .ok ms ∧
      (∀ q, left.length * right.length ≤ q → ms[q]? = none) ∧
      ∀ q a b, left[q / right.length]? = some a → right[q % right.length]? = some b →
        ∃ m, a.multiply b = .ok m ∧ ms[q]? = some m := by
  have row : ∀ a ∈ left, ∃ ms : List (Matrix Binary64),
      (right.mapM fun b => a.multiply b) = .ok ms ∧ ms.length = right.length ∧
        ∀ (j : Nat) b, right[j]? = some b → ∃ m, a.multiply b = .ok m ∧ ms[j]? = some m :=
    fun a ha => Except.mapM_of_forall (h a ha)
  obtain ⟨mss, hmss, hlength, hrows⟩ := Except.mapM_of_forall fun a ha =>
    let ⟨ms, hms, _⟩ := row a ha
    ⟨ms, hms⟩
  -- each row of products is as long as the list of the right factors
  have huniform : ∀ ms ∈ mss, ms.length = right.length := by
    intro ms hms
    obtain ⟨i, hi⟩ := List.mem_iff_getElem?.1 hms
    have hlt : i < left.length := by
      rw [← hlength]
      exact (List.getElem?_eq_some_iff.1 hi).1
    obtain ⟨ms', hms', hi'⟩ := hrows i left[i] (List.getElem?_eq_getElem hlt)
    obtain ⟨ms'', hms'', hlen, -⟩ := row left[i] (List.getElem_mem hlt)
    rw [hi] at hi'
    rw [hms'] at hms''
    cases hi'
    cases hms''
    exact hlen
  refine ⟨mss.flatten, ?_, ?_, ?_⟩
  · rw [allProducts, hmss]
    rfl
  · intro q hq
    have hle : mss.length ≤ q / right.length := by
      rw [hlength]
      exact (Nat.le_div_iff_mul_le hright).2 hq
    rw [getElem?_flatten_of_length hright huniform, List.getElem?_eq_none hle]
    rfl
  · intro q a b ha hb
    obtain ⟨ms, hms, hat⟩ := hrows _ a ha
    obtain ⟨ms', hms', -, hplaces⟩ := row a (List.mem_of_getElem? ha)
    rw [hms] at hms'
    cases hms'
    obtain ⟨m, hm, hmat⟩ := hplaces _ b hb
    refine ⟨m, hm, ?_⟩
    rw [getElem?_flatten_of_length hright huniform, hat]
    exact hmat

/-- There is a product for each pair. -/
theorem length_of_allProducts {left right ms : List (Matrix Binary64)}
    (h : allProducts left right = .ok ms) : ms.length = left.length * right.length := by
  obtain ⟨mss, hmss, h⟩ := Except.bind_eq_ok.1 h
  cases h
  have hlengths : mss.map List.length = List.replicate left.length right.length := by
    refine List.eq_replicate_iff.2 ⟨?_, fun n hn => ?_⟩
    · rw [List.length_map, Except.length_of_mapM hmss]
    · obtain ⟨row, hrow, rfl⟩ := List.mem_map.1 hn
      obtain ⟨a, -, hrow'⟩ := Except.exists_of_mem_mapM hmss hrow
      exact Except.length_of_mapM hrow'
  rw [List.length_flatten, hlengths, List.sum_replicate_nat]

/-- Operating on what encoding has let through, within its range, multiplies every selected left
factor with every selected right one. -/
theorem results_eq {left right : Selection} (hleft : left.Within (p.lefts packs).length)
    (hright : right.Within (p.rights packs).length) :
    ∃ ms, results [p.lefts packs, p.rights packs] left right = .ok ms ∧
      (∀ q, left.count.toNat * right.count.toNat ≤ q → ms[q]? = none) ∧
      ∀ q, q < left.count.toNat * right.count.toNat → ∃ a b m,
        (p.lefts packs)[left.start.toNat + q / right.count.toNat]? = some a ∧
          (p.rights packs)[right.start.toNat + q % right.count.toNat]? = some b ∧
            a.multiply b = .ok m ∧ ms[q]? = some m := by
  have hl := length_selected hleft
  have hr := length_selected hright
  have meet : ∀ a ∈ selected (p.lefts packs) left, ∀ b ∈ selected (p.rights packs) right,
      ∃ m, a.multiply b = .ok m := by
    intro a ha b hb
    refine ⟨_, if_pos ?_⟩
    rw [cols_of_mem_lefts (mem_of_mem_selected ha), rows_of_mem_rights (mem_of_mem_selected hb)]
  obtain ⟨ms, hms, hnone, hplaces⟩ := allProducts_eq (by rw [hr]; exact hright.1) meet
  rw [hl, hr] at hnone
  rw [hr] at hplaces
  refine ⟨ms, ?_, hnone, ?_⟩
  · rw [results, select_eq hleft, select_eq hright]
    exact hms
  · intro q hq
    have hq0 : q / right.count.toNat < left.count.toNat :=
      Nat.div_lt_of_lt_mul (by rwa [Nat.mul_comm])
    have hq1 : q % right.count.toNat < right.count.toNat := Nat.mod_lt q hright.1
    have ha := List.getElem?_eq_getElem (l := selected (p.lefts packs) left) (by rwa [hl])
    have hb := List.getElem?_eq_getElem (l := selected (p.rights packs) right) (by rwa [hr])
    obtain ⟨m, hm, hat⟩ := hplaces q _ _ ha hb
    rw [getElem?_selected hq0] at ha
    rw [getElem?_selected hq1] at hb
    exact ⟨_, _, m, ha, hb, hm, hat⟩

/-- Out of its range it fails. -/
theorem results_outside {lefts rights : List (Matrix Binary64)} {left right : Selection}
    (hn : ¬ (left.Within lefts.length ∧ right.Within rights.length)) :
    ∃ failure, results [lefts, rights] left right = .error failure ∧
      failure.code = .invalidArgs := by
  by_cases hl : left.Within lefts.length
  · have hr : ¬ right.Within rights.length := fun hr => hn ⟨hl, hr⟩
    refine ⟨.selectionRange right.start right.count 1 rights.length, ?_, rfl⟩
    rw [results, select_eq hl, select_eq_error hr]
    rfl
  · refine ⟨.selectionRange left.start left.count 0 lefts.length, ?_, rfl⟩
    rw [results, select_eq_error hl]
    rfl

end Product

end HandleBench
