import HandleBench.Proofs.GenericShapes
import HandleBench.Proofs.ResultShapes

/-!
# Sound products

The dimensions of a matrix product are checked when a benchmark is created and never again. What the
checks leave is a *sound* product: no dimension is zero, and neither a factor nor a result has more
octets than a word can count. Wherever a host arrives, all products in the world are sound,
`Host.Reachable.soundProducts`, and so are those that have encoded what the host holds,
`Host.Reachable.soundNotes`. A payload of the pipeline then holds either the samples of both factors
of one sound product or results of its shape: `Origin.Stands.shapes`.
-/

namespace HandleBench

/-! ### What creating checks -/

theorem Param.bits_ne_zero_iff {q : Param} : q.bits ≠ 0 ↔ 0 < q.bits.toNat := by
  rw [Nat.pos_iff_ne_zero, ← UInt64.toNat_zero, Ne, Ne, UInt64.toNat_inj]

namespace Product

/-- No dimension is zero, and a word can count the octets of either factor and of the result. -/
structure Sound (p : Product) : Prop where
  /-- There are rows. -/
  rows : 0 < p.rows
  /-- There is something to add up. -/
  inner : 0 < p.inner
  /-- There are columns. -/
  cols : 0 < p.cols
  /-- The octets of the left factor can be counted. -/
  left : p.rows * p.inner * 8 < UInt64.size
  /-- Those of the right factor can be counted. -/
  right : p.inner * p.cols * 8 < UInt64.size
  /-- Those of the result can be counted. -/
  result : p.rows * p.cols * 8 < UInt64.size

/-- There are three parameters at least, the first three are unsigned and not zero, and a word can
count the octets of both factors and of the result that they are the dimensions of. -/
def Admits (params : List Param) : Prop :=
  ∃ rows inner cols more, params = rows :: inner :: cols :: more ∧
    (∀ q ∈ [rows, inner, cols], q.IsUnsigned ∧ q.bits ≠ 0) ∧
      rows.bits.toNat * inner.bits.toNat * 8 < UInt64.size ∧
        inner.bits.toNat * cols.bits.toNat * 8 < UInt64.size ∧
          rows.bits.toNat * cols.bits.toNat * 8 < UInt64.size

theorem dimension_eq_ok {name : String} {value : UInt64} {n : Nat} :
    dimension name value = .ok n ↔ n = value.toNat ∧ 0 < n := by
  unfold dimension
  split
  · next h0 =>
    refine ⟨fun h => (by cases h), fun ⟨hn, hpos⟩ => ?_⟩
    rw [hn, h0] at hpos
    exact absurd hpos (Nat.lt_irrefl 0)
  · next hne =>
    refine ⟨fun h => ?_, fun ⟨hn, _⟩ => by rw [hn]⟩
    cases h
    exact ⟨rfl, Nat.pos_of_ne_zero fun h0 => hne (UInt64.toNat_inj.1 h0)⟩

theorem requireAddressable_eq_ok {rows cols : Nat} :
    requireAddressable rows cols = .ok () ↔ rows * cols * 8 < UInt64.size := by
  unfold requireAddressable
  split
  · next h => exact ⟨fun _ => h, fun _ => rfl⟩
  · next h => exact ⟨fun h' => (by cases h'), fun h' => absurd h' h⟩

/-- The checks pass exactly if the dimensions are those of a sound product. -/
theorem ofParams_cons_eq_ok {descriptor : Descriptor} {rows inner cols : Param}
    (hrows : rows.IsUnsigned) (hinner : inner.IsUnsigned) (hcols : cols.IsUnsigned)
    (more : List Param) (p : Product) :
    ofParams descriptor (rows :: inner :: cols :: more) = .ok p ↔
      p = ⟨descriptor, rows.bits.toNat, inner.bits.toNat, cols.bits.toNat⟩ ∧ p.Sound := by
  have hu : requireUnsigned (rows :: inner :: cols :: more) 3 = .ok () := by
    refine requireUnsigned_eq_ok.2 ⟨by simp, ?_⟩
    simp [hrows, hinner, hcols]
  have hshape : ProductShape.ofParams (rows :: inner :: cols :: more) =
      .ok ⟨rows.bits, inner.bits, cols.bits⟩ := by
    rw [ProductShape.ofParams, hu]
    rfl
  rw [ofParams, hshape]
  show (dimension "rows_M0" rows.bits >>= _) = _ ↔ _
  constructor
  · intro h
    obtain ⟨r, hr, h⟩ := Except.bind_eq_ok.1 h
    obtain ⟨i, hi, h⟩ := Except.bind_eq_ok.1 h
    obtain ⟨c, hc, h⟩ := Except.bind_eq_ok.1 h
    obtain ⟨_, hleft, h⟩ := Except.bind_eq_ok.1 h
    obtain ⟨_, hright, h⟩ := Except.bind_eq_ok.1 h
    obtain ⟨_, hresult, h⟩ := Except.bind_eq_ok.1 h
    cases h
    obtain ⟨rfl, hr⟩ := dimension_eq_ok.1 hr
    obtain ⟨rfl, hi⟩ := dimension_eq_ok.1 hi
    obtain ⟨rfl, hc⟩ := dimension_eq_ok.1 hc
    exact ⟨rfl, hr, hi, hc, requireAddressable_eq_ok.1 hleft, requireAddressable_eq_ok.1 hright,
      requireAddressable_eq_ok.1 hresult⟩
  · rintro ⟨rfl, hsound⟩
    obtain ⟨hr, hi, hc, hleft, hright, hresult⟩ := hsound
    simp only [dimension_eq_ok.2 ⟨rfl, hr⟩, dimension_eq_ok.2 ⟨rfl, hi⟩,
      dimension_eq_ok.2 ⟨rfl, hc⟩, requireAddressable_eq_ok.2 hleft,
      requireAddressable_eq_ok.2 hright, requireAddressable_eq_ok.2 hresult, bind, Except.bind]
    rfl

/-- A list of parameters that is read has three unsigned ones at its front. -/
theorem unsigned_of_ofParams {descriptor : Descriptor} {params : List Param} {p : Product}
    (h : ofParams descriptor params = .ok p) :
    ∃ rows inner cols more, params = rows :: inner :: cols :: more ∧ rows.IsUnsigned ∧
      inner.IsUnsigned ∧ cols.IsUnsigned := by
  obtain ⟨shape, hshape, -⟩ := Except.bind_eq_ok.1 h
  obtain ⟨_, hu, -⟩ := Except.bind_eq_ok.1 hshape
  obtain ⟨hlength, hunsigned⟩ := requireUnsigned_eq_ok.1 hu
  match params with
  | rows :: inner :: cols :: more =>
    exact ⟨rows, inner, cols, more, rfl, hunsigned rows (by simp), hunsigned inner (by simp),
      hunsigned cols (by simp)⟩
  | [] | [_] | [_, _] => exact absurd hlength (by simp)

theorem sound_of_ofParams {descriptor : Descriptor} {params : List Param} {p : Product}
    (h : ofParams descriptor params = .ok p) : p.Sound := by
  obtain ⟨rows, inner, cols, more, rfl, hrows, hinner, hcols⟩ := unsigned_of_ofParams h
  exact ((ofParams_cons_eq_ok hrows hinner hcols more p).1 h).2

/-- The parameters that make a product are those that are admitted. -/
theorem exists_ofParams_iff (descriptor : Descriptor) (params : List Param) :
    (∃ p, ofParams descriptor params = .ok p) ↔ Admits params := by
  constructor
  · rintro ⟨p, h⟩
    obtain ⟨rows, inner, cols, more, rfl, hrows, hinner, hcols⟩ := unsigned_of_ofParams h
    obtain ⟨rfl, hsound⟩ := (ofParams_cons_eq_ok hrows hinner hcols more p).1 h
    refine ⟨rows, inner, cols, more, rfl, ?_, hsound.left, hsound.right, hsound.result⟩
    simp only [List.forall_mem_cons, List.not_mem_nil, false_imp_iff, implies_true, and_true]
    exact ⟨⟨hrows, Param.bits_ne_zero_iff.2 hsound.rows⟩,
      ⟨hinner, Param.bits_ne_zero_iff.2 hsound.inner⟩, hcols,
      Param.bits_ne_zero_iff.2 hsound.cols⟩
  · rintro ⟨rows, inner, cols, more, rfl, hall, hleft, hright, hresult⟩
    obtain ⟨hrows, hr⟩ := hall rows (by simp)
    obtain ⟨hinner, hi⟩ := hall inner (by simp)
    obtain ⟨hcols, hc⟩ := hall cols (by simp)
    exact ⟨_, (ofParams_cons_eq_ok hrows hinner hcols more _).2 ⟨rfl, Param.bits_ne_zero_iff.1 hr,
      Param.bits_ne_zero_iff.1 hi, Param.bits_ne_zero_iff.1 hc, hleft, hright, hresult⟩⟩

/-- Whether a product is sound is settled by its shape. -/
theorem Sound.of_bare {p q : Product} (hp : p.Sound) (h : q.bare = p.bare) : q.Sound := by
  obtain ⟨⟨hrows, hinner, hcols, -⟩, -⟩ := bare_eq_iff.1 h
  obtain ⟨hr, hi, hc, hleft, hright, hresult⟩ := hp
  constructor <;> simp only [hrows, hinner, hcols] <;> assumption

end Product

/-- A description of the backend makes sound products. -/
theorem Benchmark.sound_of_instantiate {d : Description} {params : Option (List Param)}
    {p : Product} (h : instantiate d params = .ok (.product p)) : p.Sound := by
  obtain ⟨inst, hi, h⟩ := Except.bind_eq_ok.1 h
  obtain ⟨_, _, h⟩ := Except.bind_eq_ok.1 h
  cases h
  unfold Description.instantiate at hi
  split at hi
  · cases params with
    | none => cases hi
    | some params =>
      simp only at hi
      cases hp : Product.ofParams d.descriptor params with
      | error failure =>
        rw [hp] at hi
        cases hi
      | ok q =>
        rw [hp] at hi
        cases hi
        exact Product.sound_of_ofParams hp
  · split at hi <;> cases hi

/-! ### Sound products in the world -/

namespace World

variable {w w' : World} {id : SessionId}

/-- All matrix products are sound. -/
def SoundProducts (w : World) : Prop :=
  ∀ pointer session p, w.benchmarkAt pointer = some ⟨session, .product p⟩ → p.Sound

/-- Deeds bring sound products, and a concrete descriptor leaves a product sound. -/
theorem Deed.soundProducts (hd : w.Deed id w') (hw : w.SoundProducts) : w'.SoundProducts := by
  intro pointer session p hb
  obtain ⟨a, rfl, hc⟩ := cell_of_benchmarkAt hb
  rcases hd.cell_new hc with hold | hnew
  · exact hw (.cell a) session p (benchmarkAt_of_cell hold)
  · cases hnew with
    | benchmark _ _ _ makes => exact Benchmark.sound_of_instantiate makes
    | @concretized b inst old own bare =>
      obtain ⟨session', inst⟩ := b
      cases inst with
      | product q =>
        exact (hw (.cell a) session' q (benchmarkAt_of_cell old)).of_bare
          (Instance.product.inj bare)
      | carrier config => cases bare

end World

namespace Host

variable {s : Host} {m : Move} {ms : List Move} {notes : Notes}

/-- Wherever a host arrives, the products are sound. -/
theorem Reachable.soundProducts (hs : s.Reachable) : s.world.SoundProducts := by
  induction hs with
  | initial =>
    intro pointer session p hb
    cases pointer <;> cases hb
  | after hs hm ih =>
    rcases hs.deed hm with hw | ⟨id, -, hd⟩
    · rwa [hw]
    · exact hd.soundProducts ih

end Host

/-! ### Sound origins -/

/-- The product that has encoded the samples is sound. -/
def Origin.Sound : Origin → Prop
  | encoded p _ => p.Sound
  | encrypted source | decrypted source | loaded source | stored source | operated source .. =>
    source.Sound

/-- Whatever is noted comes from a sound product. -/
def Notes.Sound (notes : Notes) : Prop := ∀ h o, notes h = some o → o.Sound

/-- What a job of a sound product makes of sound origins has a sound origin. -/
theorem Job.sound_origin {inst : Instance} {notes : Notes} {job : Job} {o : Origin}
    (hi : ∀ p, inst = .product p → p.Sound) (hn : notes.Sound)
    (ho : job.origin inst notes = some o) : o.Sound := by
  have shared : ∀ (step : Origin → Origin) {source : Handle},
      (∀ o, o.Sound → (step o).Sound) → (notes source).map step = some o → o.Sound := by
    intro step source keeps h
    obtain ⟨o', ho', rfl⟩ := Option.map_eq_some_iff.1 h
    exact keeps o' (hn source o' ho')
  cases job with
  | encode packs =>
    cases inst with
    | product p =>
      cases ho
      exact hi p rfl
    | carrier config => cases ho
  | encrypt source => exact shared .encrypted (fun _ h => h) ho
  | decrypt source => exact shared .decrypted (fun _ h => h) ho
  | store source slots => exact shared .stored (fun _ h => h) ho
  | load sources =>
    cases sources with
    | nil => cases ho
    | cons source more => exact shared .loaded (fun _ h => h) ho
  | operate source selections =>
    match selections with
    | [] | [_] => cases ho
    | left :: right :: more => exact shared (.operated · left right) (fun _ h => h) ho
  | concretize | decode => cases ho

/-- The benchmark behind a handle is there. -/
theorem World.benchmarkAt_of_benchmark? {w : World} {h : Handle} {b : Benchmark}
    (hb : w.benchmark? h = some b) : w.benchmarkAt h.pointer = some b := by
  unfold benchmark? at hb
  split at hb
  · cases hb
  · next a hp =>
    split at hb
    · next b' hc =>
      cases hb
      rw [hp]
      exact benchmarkAt_of_cell hc
    · cases hb

/-- The benchmark that a move gives a job to is there. -/
theorem Move.benchmarkAt_of_jobIn {w : World} {m : Move} {b : Benchmark} {job : Job}
    (hj : m.jobIn w = some (b, job)) : ∃ pointer, w.benchmarkAt pointer = some b := by
  cases m with
  | method engine method =>
    cases method with
    | give h given =>
      obtain ⟨b', hb, heq⟩ := Option.map_eq_some_iff.1 hj
      cases heq
      exact ⟨_, World.benchmarkAt_of_benchmark? hb⟩
    | _ => cases hj
  | call c =>
    obtain ⟨given, -, hj⟩ := Option.bind_eq_some_iff.1 hj
    obtain ⟨⟨k, h⟩, -, hj⟩ := Option.bind_eq_some_iff.1 hj
    obtain ⟨b', hb, heq⟩ := Option.bind_eq_some_iff.1 hj
    cases heq
    exact ⟨_, World.benchmarkAt_of_benchmark? hb⟩
  | _ => cases hj

namespace Host

variable {s : Host} {m : Move} {ms : List Move} {notes : Notes}

/-- A move leaves the notes sound. -/
theorem Reachable.soundNotes_after (hs : s.Reachable) (hn : notes.Sound) :
    (s.noted notes m).Sound := by
  unfold noted
  split
  · next event w b job _ hj =>
    split
    · next x hx =>
      intro h o ho
      obtain ⟨pointer, hb⟩ := Move.benchmarkAt_of_jobIn hj
      rw [Function.update_apply] at ho
      split at ho
      · refine Job.sound_origin (fun p hp => ?_) hn ho
        obtain ⟨session, inst⟩ := b
        obtain rfl : inst = .product p := hp
        exact hs.soundProducts pointer session p hb
      · exact hn h o ho
    · exact hn
  · exact hn

/-- So does a run. -/
theorem Reachable.soundNotes (hs : s.Reachable) (hp : s.PermitsAll ms) (hn : notes.Sound) :
    (s.notedAll notes ms).Sound := by
  induction ms generalizing s notes with
  | nil => exact hn
  | cons m ms ih => exact ih (hs.after hp.1) hp.2 (hs.soundNotes_after hn)

end Host

/-! ### Payloads -/

namespace Product

variable {p : Product} {packs : List Pack} {left right : Selection}

/-- The data is of the shape of the product: the samples of both factors, or results. -/
inductive Shapes (p : Product) : List (List (Matrix Binary64)) → Prop where
  /-- The samples of both factors. -/
  | operands {lefts rights : List (Matrix Binary64)} (left : ∀ m ∈ lefts, m.FullOf p.rows p.inner)
    (right : ∀ m ∈ rights, m.FullOf p.inner p.cols) : Shapes p [lefts, rights]
  /-- Results. -/
  | results {ms : List (Matrix Binary64)} (result : ∀ m ∈ ms, m.FullOf p.rows p.cols) :
    Shapes p [ms]

/-- Data of the shape of a sound product consists of full matrices, and a word can count the octets
of each. -/
theorem Shapes.full {components : List (List (Matrix Binary64))} (hs : p.Shapes components)
    (hp : p.Sound) : ∀ ms ∈ components, ∀ m ∈ ms, m.entries.length = m.rows * m.cols ∧
      m.rows * m.cols * 8 < UInt64.size := by
  have counted : ∀ {rows cols : Nat} {m : Matrix Binary64}, rows * cols * 8 < UInt64.size →
      m.FullOf rows cols →
        m.entries.length = m.rows * m.cols ∧ m.rows * m.cols * 8 < UInt64.size := by
    rintro rows cols m hsize ⟨rfl, rfl, hentries⟩
    exact ⟨hentries, hsize⟩
  cases hs with
  | operands hl hr =>
    refine List.forall_mem_cons.2 ⟨fun m hm => counted hp.left (hl m hm), ?_⟩
    exact List.forall_mem_singleton.2 fun m hm => counted hp.right (hr m hm)
  | results hms => exact List.forall_mem_singleton.2 fun m hm => counted hp.result (hms m hm)

/-- What is selected is among the samples. -/
theorem mem_of_select {samples chosen : List (Matrix Binary64)} {s : Selection} {operand : Nat}
    (h : select samples s operand = .ok chosen) : ∀ m ∈ chosen, m ∈ samples := by
  intro m hm
  unfold select at h
  split at h
  · cases h
    exact mem_of_mem_selected hm
  · cases h

/-- Results of samples of the shape are of the shape. -/
theorem Shapes.of_results {lefts rights ms : List (Matrix Binary64)}
    (hs : p.Shapes [lefts, rights]) (h : Product.results [lefts, rights] left right = .ok ms) :
    p.Shapes [ms] := by
  cases hs with
  | operands hl hr =>
    obtain ⟨ls, hls, h⟩ := Except.bind_eq_ok.1 h
    obtain ⟨rs, hrs, h⟩ := Except.bind_eq_ok.1 h
    exact .results (fullOf_of_allProducts (fun a ha => hl a (mem_of_select hls a ha))
      (fun b hb => hr b (mem_of_select hrs b hb)) h)

end Product

namespace Origin

variable {o : Origin} {h : Handle} {value : Payload}

/-- Data that has come through the pipeline in order is of the shape of a sound product. -/
theorem shapes_components {components : List (List (Matrix Binary64))} (ho : o.Ordered)
    (hs : o.Sound) (hc : o.components = .ok components) :
    ∃ p : Product, p.Sound ∧ p.Shapes components := by
  induction o generalizing components with
  | encoded p packs =>
    obtain rfl := components_encoded hc
    obtain ⟨hl, hr⟩ := Product.fullOf_of_operands hc
    exact ⟨p, hs, .operands hl hr⟩
  | encrypted source ih | decrypted source ih | loaded source ih | stored source ih =>
    exact ih ho.2 hs hc
  | operated source left right ih =>
    obtain ⟨given, hgiven, hc⟩ := Except.bind_eq_ok.1 hc
    obtain ⟨ms, hms, hc⟩ := Except.bind_eq_ok.1 hc
    cases hc
    obtain ⟨q, packs, rfl⟩ := ho.2.of_uploaded ho.1
    obtain ⟨p, hp, hshapes⟩ := ih ho.2 hs hgiven
    obtain rfl := components_encoded hgiven
    exact ⟨p, hp, hshapes.of_results hms⟩

/-- So is the payload that such an origin stands for. -/
theorem Stands.shapes (hst : o.Stands h value) (hs : o.Sound) :
    ∃ (p : Product) (components : List (List (Matrix Binary64))), p.Sound ∧
      p.Shapes components ∧ value = ⟨.matrices, components⟩ := by
  obtain ⟨components, hc, rfl⟩ := hst.value
  obtain ⟨p, hp, hshapes⟩ := shapes_components hst.ordered hs hc
  exact ⟨p, components, hp, hshapes, rfl⟩

end Origin

end HandleBench
