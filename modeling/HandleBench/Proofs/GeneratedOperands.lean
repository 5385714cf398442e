import HandleBench.Operands
import HandleBench.Proofs.Buffers
import HandleBench.Proofs.Samples

/-!
# Generated operands

A host that generates operands for a product and the product that gets them work out shapes and
counts of samples each on its own. `Operands.Fits` says that they agree: full matrices of the
product's shapes, as many as the product uses. Then encoding keeps every operand as it is
(`Operands.Fits.encoded`), operating on all of them gives what the host expects
(`Operands.Fits.selected`), and the results fill the buffers of the host to the last octet
(`Operands.filled`).
-/

namespace HandleBench

/-- The product is the one of the shape, whatever its descriptor is, and none of its dimensions is
zero. -/
theorem Product.ofParams_eq_ok {descriptor : Descriptor} {params : List Param}
    {shape : ProductShape} {p : Product} (hs : ProductShape.ofParams params = .ok shape)
    (hp : ofParams descriptor params = .ok p) :
    p = ⟨descriptor, shape.rows.toNat, shape.inner.toNat, shape.cols.toNat⟩ ∧
      0 < p.rows ∧ 0 < p.inner ∧ 0 < p.cols := by
  have dimension : ∀ {name : String} {value : UInt64} {n : Nat},
      dimension name value = .ok n → n = value.toNat ∧ 0 < n := by
    intro name value n hd
    unfold Product.dimension at hd
    split at hd
    · cases hd
    · next hne =>
      cases hd
      exact ⟨rfl, Nat.pos_of_ne_zero fun h0 => hne (UInt64.toNat_inj.1 h0)⟩
  unfold ofParams at hp
  rw [hs] at hp
  change (Product.dimension "rows_M0" shape.rows >>= _) = _ at hp
  obtain ⟨rows, hrows, hp⟩ := Except.bind_eq_ok.1 hp
  obtain ⟨inner, hinner, hp⟩ := Except.bind_eq_ok.1 hp
  obtain ⟨cols, hcols, hp⟩ := Except.bind_eq_ok.1 hp
  obtain ⟨_, -, hp⟩ := Except.bind_eq_ok.1 hp
  obtain ⟨_, -, hp⟩ := Except.bind_eq_ok.1 hp
  obtain ⟨_, -, hp⟩ := Except.bind_eq_ok.1 hp
  cases hp
  obtain ⟨rfl, h0⟩ := dimension hrows
  obtain ⟨rfl, h1⟩ := dimension hinner
  obtain ⟨rfl, h2⟩ := dimension hcols
  exact ⟨rfl, h0, h1, h2⟩

/-- Overwriting as many equal targets as there are values. -/
theorem overwrite_replicate {α β : Type} (f : α → β → α) (target : α) (values : List β) :
    overwrite f (List.replicate values.length target) values = values.map (f target) := by
  induction values with
  | nil => rfl
  | cons value values ih =>
    rw [List.length_cons, List.replicate_succ, overwrite, ih]
    rfl

/-! ### Samples of full matrices -/

/-- A full matrix of some shape. -/
structure Matrix.FullOf {α : Type} (m : Matrix α) (r c : Nat) : Prop where
  /-- Its rows. -/
  rows : m.rows = r
  /-- Its columns. -/
  cols : m.cols = c
  /-- Its entries fill the shape. -/
  entries : m.entries.length = r * c

/-- A product of full matrices is full, of the rows of one and the columns of the other. -/
theorem Matrix.FullOf.multiply {α : Type} [Zero α] [Add α] [Mul α] {a b m : Matrix α}
    {rows inner cols : Nat} (ha : a.FullOf rows inner) (hb : b.FullOf inner cols)
    (hm : a.multiply b = .ok m) : m.FullOf rows cols := by
  obtain ⟨rfl, rfl, hae⟩ := ha
  obtain ⟨hbr, rfl, hbe⟩ := hb
  have hbfull : b.IsFull := by rw [Matrix.IsFull, hbe, hbr]
  obtain ⟨hfull, hr, hc⟩ := Matrix.isFull_multiply hae hbfull hm
  rw [Matrix.IsFull, hr, hc] at hfull
  exact ⟨hr, hc, hfull⟩

namespace Product

variable {rows inner cols : Nat} {ms : List (Matrix Binary64)}

theorem fullOf_of_allProducts {lefts rights : List (Matrix Binary64)}
    (hl : ∀ a ∈ lefts, a.FullOf rows inner) (hr : ∀ b ∈ rights, b.FullOf inner cols)
    (h : allProducts lefts rights = .ok ms) : ∀ m ∈ ms, m.FullOf rows cols := by
  intro m hm
  obtain ⟨mss, hmss, h⟩ := Except.bind_eq_ok.1 h
  cases h
  obtain ⟨row, hrow, hm⟩ := List.mem_flatten.1 hm
  obtain ⟨a, ha, hrow'⟩ := Except.exists_of_mem_mapM hmss hrow
  obtain ⟨b, hb, hm'⟩ := Except.exists_of_mem_mapM hrow' hm
  exact (hl a ha).multiply (hr b hb) hm'

/-- The octets of a full matrix are read as that matrix. -/
theorem readSample_writeAll {m : Matrix Binary64} (hm : m.FullOf rows cols) :
    readSample rows cols (Binary64.writeAll m.entries) = .ok m := by
  obtain ⟨rfl, rfl, hlength⟩ := hm
  have hroom : ¬ (Binary64.writeAll m.entries).length < m.rows * m.cols * 8 := by
    rw [Binary64.length_writeAll]
    exact Nat.not_lt.2 (Nat.mul_le_mul_right 8 (Nat.le_of_eq hlength.symm))
  rw [readSample, if_neg hroom, Binary64.readAll_writeAll,
    List.take_of_length_le (Nat.le_of_eq hlength), Matrix.ofEntries, if_pos hlength]

theorem mapM_readSample (hms : ∀ m ∈ ms, m.FullOf rows cols) :
    (ms.map fun m => Binary64.writeAll m.entries).mapM (readSample rows cols) = .ok ms := by
  induction ms with
  | nil => rfl
  | cons m ms ih =>
    rw [List.map_cons, List.mapM_cons, readSample_writeAll (hms m List.mem_cons_self),
      ih fun m' hm' => hms m' (List.mem_cons_of_mem m hm')]
    rfl

/-- Samples that are written into a pack are read off it, if there are some and the product uses
them all. -/
theorem operand_eq {p : Product} {packs : List Pack} {position : UInt64}
    (hfind : packs.find? (·.position == position) =
      some ⟨position, ms.map fun m => Binary64.writeAll m.entries⟩)
    (hms : ∀ m ∈ ms, m.FullOf rows cols) (hpos : 0 < ms.length) (hroom : 0 < rows * cols)
    (hone : p.isLatency = true → ms.length = 1) :
    p.operand packs position rows cols = .ok ms := by
  let buffers := ms.map fun m => Binary64.writeAll m.entries
  have used : (if p.isLatency = true then buffers.take 1 else buffers) = buffers := by
    split
    · next hl =>
      exact List.take_of_length_le (Nat.le_of_eq ((List.length_map _).trans (hone hl)))
    · rfl
  have some_samples : buffers.isEmpty = false := by
    rw [List.isEmpty_eq_false_iff_exists_mem]
    obtain ⟨m, hm⟩ := List.exists_mem_of_length_pos hpos
    exact ⟨_, List.mem_map_of_mem hm⟩
  have none_empty : buffers.any (·.isEmpty) = false := by
    rw [List.any_eq_false]
    intro octets ho
    obtain ⟨m, hm, rfl⟩ := List.mem_map.1 ho
    have hlength := (hms m hm).entries
    rw [List.isEmpty_iff_length_eq_zero, Binary64.length_writeAll]
    omega
  have hpack : Pack.find packs position = .ok ⟨position, buffers⟩ := by
    rw [Pack.find, hfind]
  rw [operand, hpack]
  show (if (_ : Bool) then _ else _) = _
  dsimp only
  rw [used, some_samples, none_empty]
  exact mapM_readSample hms

end Product

/-! ### Operands and the product that gets them -/

namespace Operands

variable {o : Operands} {p : Product}

/-- The operands are what the product computes with. -/
structure Fits (o : Operands) (p : Product) : Prop where
  /-- The rows of the results. -/
  rows : o.rows = p.rows
  /-- The columns of the results. -/
  cols : o.cols = p.cols
  /-- The left factors. -/
  left : ∀ m ∈ o.left, m.FullOf p.rows p.inner
  /-- The right factors. -/
  right : ∀ m ∈ o.right, m.FullOf p.inner p.cols
  /-- There are left factors, as many as a word can count. -/
  lefts : 0 < o.left.length ∧ o.left.length < UInt64.size
  /-- There are right factors, as many as a word can count. -/
  rights : 0 < o.right.length ∧ o.right.length < UInt64.size
  /-- A product that feeds one sample at a time gets one. -/
  one : p.isLatency = true → o.left.length = 1 ∧ o.right.length = 1
  /-- None of the matrices is without entries. -/
  room : 0 < p.rows ∧ 0 < p.inner ∧ 0 < p.cols

/-- Generated operands fit the product of the same shape and category. -/
theorem fits_generate {d : Descriptor} {shape : ProductShape} (seed : UInt64)
    (hp : p = ⟨d, shape.rows.toNat, shape.inner.toNat, shape.cols.toNat⟩)
    (hroom : 0 < p.rows ∧ 0 < p.inner ∧ 0 < p.cols) : (generate d shape seed).Fits p := by
  subst hp
  have count : ∀ operand, 0 < sampleCount d operand ∧ sampleCount d operand < UInt64.size := by
    intro operand
    have hlt := (d.categoryParams.word operand).toNat_lt
    have hone : 1 < UInt64.size := by decide
    unfold sampleCount
    cases d.category with
    | latency => exact ⟨Nat.one_pos, hone⟩
    | offline =>
      exact ⟨Nat.lt_of_lt_of_le Nat.one_pos (Nat.le_max_right _ 1), Nat.max_lt.2 ⟨hlt, hone⟩⟩
  have full : ∀ {rows cols n : Nat} {f : Nat → Nat → Nat → Binary64} {m : Matrix Binary64},
      m ∈ (List.range n).map (fun sample => Matrix.ofFn rows cols (f sample)) →
        m.FullOf rows cols := by
    intro rows cols n f m hm
    obtain ⟨sample, -, rfl⟩ := List.mem_map.1 hm
    exact ⟨rfl, rfl, Matrix.isFull_ofFn rows cols (f sample)⟩
  constructor
  case rows => rfl
  case cols => rfl
  case left => exact fun m hm => full hm
  case right => exact fun m hm => full hm
  case lefts => simpa [generate] using count 0
  case rights => simpa [generate] using count 1
  case one =>
    intro hl
    have hc : d.category = .latency := by simpa [Product.isLatency] using hl
    simp [generate, sampleCount, hc]
  case room => exact hroom

variable (hf : o.Fits p)

include hf

/-- Encoding keeps the operands as they are. -/
theorem Fits.encoded : p.operands o.packs = .ok [o.left, o.right] := by
  obtain ⟨hrows, hinner, hcols⟩ := hf.room
  have hleft : p.operand o.packs 0 p.rows p.inner = .ok o.left :=
    Product.operand_eq rfl hf.left hf.lefts.1 (Nat.mul_pos hrows hinner) fun hl => (hf.one hl).1
  have hright : p.operand o.packs 1 p.inner p.cols = .ok o.right :=
    Product.operand_eq rfl hf.right hf.rights.1 (Nat.mul_pos hinner hcols) fun hl => (hf.one hl).2
  rw [Product.operands, hleft, hright]
  rfl

/-- The selections take all operands, and the product lets them through. -/
theorem Fits.selected : ∃ left right, p.selections o.selections = .ok (left, right) ∧
    Product.results [o.left, o.right] left right = o.expected := by
  have all : ∀ (ms : List (Matrix Binary64)) (operand : Nat), 0 < ms.length →
      ms.length < UInt64.size → Product.select ms ⟨0, .ofNat ms.length⟩ operand = .ok ms := by
    intro ms operand hpos hlt
    have hcount : (UInt64.ofNat ms.length).toNat = ms.length := UInt64.toNat_ofNat_of_lt' hlt
    have hwithin : Selection.Within ⟨0, .ofNat ms.length⟩ ms.length := by
      refine ⟨?_, ?_⟩
      · show 0 < (UInt64.ofNat ms.length).toNat
        omega
      · show (0 : UInt64).toNat + (UInt64.ofNat ms.length).toNat ≤ ms.length
        rw [hcount]
        exact Nat.le_of_eq (Nat.zero_add _)
    rw [Product.select_eq hwithin, Product.selected, hcount]
    exact congrArg Except.ok (List.take_length)
  refine ⟨_, _, Product.selections_eq_ok.2 ⟨[], rfl, fun hl => ?_⟩, ?_⟩
  · obtain ⟨hl, hr⟩ := hf.one hl
    rw [hl, hr]
    exact ⟨rfl, rfl⟩
  · rw [Product.results, all o.left 0 hf.lefts.1 hf.lefts.2, all o.right 1 hf.rights.1 hf.rights.2]
    rfl

/-- The host can compute what it expects: a full matrix for each pair. -/
theorem Fits.expected : ∃ ms, o.expected = .ok ms ∧ ms.length = o.resultCount ∧
    ∀ m ∈ ms, m.FullOf o.rows o.cols := by
  have meet : ∀ a ∈ o.left, ∀ b ∈ o.right, ∃ m, a.multiply b = .ok m := fun a ha b hb =>
    ⟨_, if_pos ((hf.left a ha).cols.trans (hf.right b hb).rows.symm)⟩
  obtain ⟨ms, hms, -, -⟩ := Product.allProducts_eq hf.rights.1 meet
  refine ⟨ms, hms, Product.length_of_allProducts hms, ?_⟩
  rw [hf.rows, hf.cols]
  exact Product.fullOf_of_allProducts hf.left hf.right hms

omit hf in
/-- Results that are full fill the buffers of the host. -/
theorem filled {ms : List (Matrix Binary64)} (hcount : ms.length = o.resultCount)
    (hms : ∀ m ∈ ms, m.FullOf o.rows o.cols) :
    (Product.writeFrom 0 [ms] [⟨0, o.blankResults⟩]).flatMap (·.buffers) =
      ms.map fun m => Binary64.writeAll m.entries := by
  have whole : ∀ m ∈ ms, Binary64.writeInto (List.replicate (o.rows * o.cols * 8) 0) m.entries =
      Binary64.writeAll m.entries := by
    intro m hm
    have hlength := (hms m hm).entries
    have hfit : Binary64.fitting (o.rows * o.cols * 8) m.entries = m.entries.length := by
      rw [Binary64.fitting, Nat.mul_div_cancel _ (by decide), hlength, Nat.min_self]
    rw [Binary64.writeInto_eq, List.length_replicate, hfit, List.take_length,
      List.drop_of_length_le, List.append_nil]
    rw [List.length_replicate]
    omega
  show List.flatMap Pack.buffers [⟨0, overwrite _ o.blankResults ms⟩] = _
  rw [List.flatMap_singleton, blankResults, ← hcount, overwrite_replicate]
  exact List.map_congr_left whole

end Operands

end HandleBench
