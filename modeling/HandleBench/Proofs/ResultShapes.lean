import HandleBench.Proofs.GeneratedOperands
import HandleBench.Proofs.PipelineOrder

/-!
# The shape of results

Encoding reads samples in the shape of the benchmark that encodes them, and from there on the
samples keep it. Operating looks at the selections, and it multiplies what it finds in the handle
that it is given; it does not compare the shape of the samples with that of the benchmark that
operates. All benchmarks of a session share its objects. So samples that one benchmark has encoded
can be multiplied by any other, and the results have the shape of the first:
`Host.Reachable.resultShapes`. They have the shape that the parameters of the second promise only
if the two shapes agree.
-/

namespace HandleBench

namespace Product

variable {p : Product} {packs : List Pack} {left right : Selection} {rows cols : Nat}

/-! ### From samples to results -/

/-- What is read off a sample fills the shape that it is read in. -/
theorem fullOf_of_readSample {octets : Octets} {m : Matrix Binary64}
    (h : readSample rows cols octets = .ok m) : m.FullOf rows cols := by
  unfold readSample at h
  split at h
  · cases h
  · unfold Matrix.ofEntries at h
    split at h
    · next hlength =>
      cases h
      exact ⟨rfl, rfl, hlength⟩
    · cases h

theorem fullOf_of_operand {position : UInt64} {component : List (Matrix Binary64)}
    (h : p.operand packs position rows cols = .ok component) :
    ∀ m ∈ component, m.FullOf rows cols := by
  intro m hm
  obtain ⟨pack, -, h⟩ := Except.bind_eq_ok.1 h
  dsimp only at h
  generalize (if p.isLatency = true then pack.buffers.take 1 else pack.buffers) = used at h
  split at h
  · cases h
  · obtain ⟨octets, -, hread⟩ := Except.exists_of_mem_mapM h hm
    exact fullOf_of_readSample hread

/-- Every sample that encoding has let through has the shape of its operand. -/
theorem fullOf_of_operands {components : List (List (Matrix Binary64))}
    (h : p.operands packs = .ok components) :
    (∀ m ∈ p.lefts packs, m.FullOf p.rows p.inner) ∧
      ∀ m ∈ p.rights packs, m.FullOf p.inner p.cols := by
  unfold operands at h
  split at h
  · cases h
  · obtain ⟨left, hleft, h⟩ := Except.bind_eq_ok.1 h
    obtain ⟨right, hright, -⟩ := Except.bind_eq_ok.1 h
    refine ⟨fun m hm => fullOf_of_operand hleft m ?_, fun m hm => fullOf_of_operand hright m ?_⟩
    · rwa [samples_of_operand hleft]
    · rwa [samples_of_operand hright]

/-- Results have the shape of the product that has encoded the samples, and there is one for each
selected pair. -/
theorem results_shape {components : List (List (Matrix Binary64))}
    (ho : p.operands packs = .ok components) (hleft : left.Within (p.lefts packs).length)
    (hright : right.Within (p.rights packs).length) :
    ∃ ms, results [p.lefts packs, p.rights packs] left right = .ok ms ∧
      ms.length = left.count.toNat * right.count.toNat ∧ ∀ m ∈ ms, m.FullOf p.rows p.cols := by
  obtain ⟨ms, hms, -, -⟩ := results_eq hleft hright
  obtain ⟨hl, hr⟩ := fullOf_of_operands ho
  refine ⟨ms, hms, ?_⟩
  rw [results, select_eq hleft, select_eq hright] at hms
  refine ⟨?_, fullOf_of_allProducts (fun a ha => hl a (mem_of_mem_selected ha))
    (fun b hb => hr b (mem_of_mem_selected hb)) hms⟩
  rw [length_of_allProducts hms, length_selected hleft, length_selected hright]

end Product

/-! ### Whoever operates -/

namespace Origin

/-- Operating on what the product `q` has encoded, and the host has encrypted and loaded, yields
results of the shape of `q`, whatever the product `p` is that operates. -/
theorem Stands.operate_shape {w : World} {id : SessionId} {h : Handle} {p q : Product}
    {packs : List Pack} {value : Payload} {left right : Selection} {more : List Selection}
    (hst : (loaded (encrypted (encoded q packs))).Stands h value)
    (hcarries : Object.Carries w id h (loaded (encrypted (encoded q packs))).bits value)
    (hs : p.selections (left :: right :: more) = .ok (left, right))
    (hleft : left.Within (q.lefts packs).length) (hright : right.Within (q.rights packs).length) :
    ∃ made w' ms, p.operate id h (left :: right :: more) w = (.ok made, w') ∧
      Object.Carries w' id made Product.operatedBit ⟨.matrices, [ms]⟩ ∧
        ms.length = left.count.toNat * right.count.toNat ∧ ∀ m ∈ ms, m.FullOf q.rows q.cols := by
  have hbit := (loaded (encrypted (encoded q packs))).told.loaded
  obtain ⟨components, hc, rfl⟩ := hst.value
  obtain rfl := components_encoded hc
  obtain ⟨ms, hms, hlength, hshape⟩ := Product.results_shape hc hleft hright
  obtain ⟨made, w', hmade, -, hcarries'⟩ := Object.create_carries w id Product.dataSize
    (show Product.operatedBit.touchesReserved = false by decide) ⟨.matrices, [ms]⟩
  refine ⟨made, w', ms, ?_, hcarries', hlength, hshape⟩
  rw [Product.operate_of_carries hs hbit hcarries, hms]
  exact hmade

end Origin

namespace Host

variable {s : Host} {ms : List Move} {h b x : Handle} {e : Engine} {root a : Nat} {p q : Product}
  {packs : List Pack} {left right : Selection}

/-- **Results have the shape of the benchmark that has encoded the samples.** A host that has an
engine of matrix products and no object of its session makes moves, any at all but those that only a
backend makes. Samples that one benchmark has encoded, and that were encrypted and loaded, can then
be operated on by every benchmark of the session, of whatever shape, within the counts of the
samples. Every result has the shape of the benchmark that has encoded the samples. It is the shape
of the benchmark that operates only if the two agree in their rows and columns. -/
theorem Reachable.resultShapes (hs : s.Reachable) (he : s.Has h e)
    (hproducts : ∀ d ∈ e.catalog, d.backend = .matrixProduct)
    (hnone : ∀ x root, (x, .object e.session root) ∉ s.ledger.held) (hp : s.PermitsAll ms)
    (hpiped : ∀ m ∈ ms, Piped e.session m)
    (hx : (x, .object e.session root) ∈ (s.afterAll ms).ledger.held)
    (hnote : s.notedAll (fun _ => none) ms x = some (.loaded (.encrypted (.encoded q packs))))
    (hb : Benchmark.Found (s.afterAll ms).world b (a, ⟨e.session, .product p⟩))
    (hleft : left.Within (q.lefts packs).length) (hright : right.Within (q.rights packs).length)
    (hlatency : p.isLatency = true → left = ⟨0, 1⟩ ∧ right = ⟨0, 1⟩) (more : List Selection) :
    ∃ made w' results,
      e.operate b x (left :: right :: more) (s.afterAll ms).world = (.ok made, w') ∧
        Object.Carries w' e.session made Product.operatedBit ⟨.matrices, [results]⟩ ∧
          results.length = left.count.toNat * right.count.toNat ∧
            (∀ m ∈ results, m.FullOf q.rows q.cols) ∧
              ((∀ m ∈ results, m.FullOf p.rows p.cols) ↔ q.rows = p.rows ∧ q.cols = p.cols) := by
  have hend := hs.afterAll hp
  have hbegin : s.Traced e.session fun _ => none := fun y root hy => absurd hy (hnone y root)
  obtain ⟨-, ht⟩ := hs.traced_afterAll hp hpiped (hs.productsOnly he hproducts) hbegin
  obtain ⟨o, value, ho, hv, hst⟩ := ht x root hx
  obtain rfl := Option.some.inj (hnote.symm.trans ho)
  obtain ⟨made, w', results, hmade, hcarries, hlength, hshape⟩ :=
    hst.operate_shape (hend.carries hx hv hst)
      (Product.selections_eq_ok.2 ⟨more, rfl, hlatency⟩) hleft hright
  refine ⟨made, w', results, (Engine.operate_eq hb x _).trans hmade, hcarries, hlength, hshape,
    fun hall => ?_, fun ⟨hrows, hcols⟩ => ?_⟩
  · -- a selection takes a sample at least, so there is a result to compare the shapes by
    have hpos : 0 < results.length := by
      rw [hlength]
      exact Nat.mul_pos hleft.1 hright.1
    obtain ⟨m, hm⟩ := List.exists_mem_of_length_pos hpos
    exact ⟨(hshape m hm).rows.symm.trans (hall m hm).rows,
      (hshape m hm).cols.symm.trans (hall m hm).cols⟩
  · intro m hm
    rw [← hrows, ← hcols]
    exact hshape m hm

/-- Creating a second benchmark of two rows and two columns beside one of numbers, and loading
numbers. -/
def loadingNumbers : List Move :=
  let give job := Move.method sampleEngine (.give multiplierBenchmark job)
  [.method sampleEngine (.create (.descriptor 1) (some (ProductShape.mk 2 2 2).toParams)),
    give (.encode multiplierPacks),
    give (.encrypt (dataHandle 3 (Product.encodedBit ||| Product.plainBit))),
    give (.load [dataHandle 4 Product.encryptedBit])]

/-- The second benchmark. -/
def squareBenchmark : Handle := ⟨.cell 2, 0, 0x1 ||| .instanceBits⟩

/-- What it is an instance of. -/
def squareProduct : Product := ⟨Description.offlineProduct.descriptor, 2, 2, 2⟩

/-- The numbers that were loaded. -/
def loadedNumbers : Handle := dataHandle 5 Product.loadedBit

theorem found_square : Benchmark.Found (multiplier.afterAll loadingNumbers).world squareBenchmark
    (2, ⟨multiplierEngine.session, .product squareProduct⟩) :=
  ⟨rfl, rfl, by decide⟩

theorem noted_loadedNumbers : multiplier.notedAll (fun _ => none) loadingNumbers loadedNumbers =
    some (.loaded (.encrypted (.encoded multiplierProduct multiplierPacks))) :=
  rfl

theorem held_loadedNumbers : (loadedNumbers, .object multiplierEngine.session 0) ∈
    (multiplier.afterAll loadingNumbers).ledger.held := by decide

/-- The benchmark of squares multiplies numbers to a number. -/
theorem resultShapes_square : ∃ made w' results,
    multiplierEngine.operate squareBenchmark loadedNumbers [⟨0, 1⟩, ⟨0, 1⟩]
      (multiplier.afterAll loadingNumbers).world = (.ok made, w') ∧
        Object.Carries w' multiplierEngine.session made Product.operatedBit
          ⟨.matrices, [results]⟩ ∧ ∀ m ∈ results, m.FullOf 1 1 := by
  have he : multiplier.Has sampleEngine multiplierEngine :=
    ⟨List.mem_cons_of_mem _ List.mem_cons_self, rfl⟩
  have hnone : ∀ x root, (x, .object multiplierEngine.session root) ∉ multiplier.ledger.held := by
    simp [held_multiplier]
  obtain ⟨made, w', results, hmade, hcarries, -, hshape, -⟩ :=
    reachable_multiplier.resultShapes he (by decide) hnone (by decide) (by decide)
      held_loadedNumbers noted_loadedNumbers found_square
      (show Selection.Within ⟨0, 1⟩ (multiplierProduct.lefts multiplierPacks).length by decide)
      (show Selection.Within ⟨0, 1⟩ (multiplierProduct.rights multiplierPacks).length by decide)
      (by decide) []
  exact ⟨made, w', results, hmade, hcarries, hshape⟩

/-- Two live benchmarks, a handle that was loaded through the pipeline of the first, and a result of
the second that is not of the shape it was created with. -/
theorem operate_strange : multiplier.Reachable ∧ multiplier.Has sampleEngine multiplierEngine ∧
    (∀ d ∈ multiplierEngine.catalog, d.backend = .matrixProduct) ∧
    multiplier.PermitsAll loadingNumbers ∧
    (∀ m ∈ loadingNumbers, Piped multiplierEngine.session m) ∧
    Benchmark.Found (multiplier.afterAll loadingNumbers).world multiplierBenchmark
      (1, ⟨multiplierEngine.session, .product multiplierProduct⟩) ∧
    Benchmark.Found (multiplier.afterAll loadingNumbers).world squareBenchmark
      (2, ⟨multiplierEngine.session, .product squareProduct⟩) ∧
    (loadedNumbers, .object multiplierEngine.session 0) ∈
      (multiplier.afterAll loadingNumbers).ledger.held ∧
    multiplier.notedAll (fun _ => none) loadingNumbers loadedNumbers =
      some (.loaded (.encrypted (.encoded multiplierProduct multiplierPacks))) ∧
    ∃ made w' m, multiplierEngine.operate squareBenchmark loadedNumbers [⟨0, 1⟩, ⟨0, 1⟩]
      (multiplier.afterAll loadingNumbers).world = (.ok made, w') ∧
        w'.value? made = some ⟨.matrices, [[m]]⟩ ∧
          ¬ (m.rows = squareProduct.rows ∧ m.cols = squareProduct.cols) := by
  refine ⟨reachable_multiplier, ⟨List.mem_cons_of_mem _ List.mem_cons_self, rfl⟩, by decide,
    by decide, by decide, ⟨rfl, rfl, by decide⟩, found_square, held_loadedNumbers,
    noted_loadedNumbers, ?_⟩
  exact ⟨_, _, _, rfl, rfl, by decide⟩

end Host

end HandleBench
