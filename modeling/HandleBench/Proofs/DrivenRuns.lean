import HandleBench.Proofs.CleanRuns
import HandleBench.Proofs.GeneratedOperands
import HandleBench.Proofs.ProductPipeline

/-!
# Driven runs reproduce the reference

A run takes the operands of a host through the whole pipeline of a product, and repeats the
benchmarked step, each result taking the place of the one before it. What carries the proof through
the iterations is that a result is an object of its own: releasing it leaves the loaded operands and
the next result alone (`Object.Sits.destroy`), so every iteration multiplies the same operands
(`Run.repeat_eq`). `Run.drive_reproduces` says that in the end the run has, octet for octet, the
products that the host computes on the side, and a time for each measured iteration.
-/

namespace HandleBench

/-! ### Objects at their places -/

namespace Object

/-- The handle leads to the object at the address, which holds the payload at the index, and
carries its value. -/
structure Sits (w : World) (session : SessionId) (h : Handle) (bits : Tag) (value : Payload)
    (address root : Nat) : Prop where
  /-- Its tag. -/
  tag : h.tag = .object ||| bits
  /-- The class bits claim an object. -/
  claims : h.tag.Claims .object
  /-- Its address. -/
  pointer : h.pointer = .cell address
  /-- The object. -/
  cell : w.cells[address]? = some (.object ⟨session, root⟩)
  /-- Its payload. -/
  payload : ∃ holders, w.payload? root = some ⟨value, holders⟩

variable {w w' : World} {session : SessionId} {h : Handle} {bits : Tag} {value : Payload}
  {address root : Nat}

theorem Sits.found (hs : Sits w session h bits value address root) :
    Found w session h (address, ⟨session, root⟩) :=
  ⟨hs.pointer, hs.cell, rfl, hs.claims⟩

theorem Sits.carries (hs : Sits w session h bits value address root) :
    Carries w session h bits value := by
  obtain ⟨holders, hp⟩ := hs.payload
  exact ⟨hs.tag, _, _, hs.found, hp, rfl⟩

theorem Carries.sits (hc : Carries w session h bits value) :
    ∃ address root, Sits w session h bits value address root := by
  obtain ⟨ht, ⟨address, object⟩, ⟨value, holders⟩, hf, hp, rfl⟩ := hc
  obtain ⟨session, root⟩ := object
  obtain ⟨hpointer, hcell, rfl, htag⟩ := hf
  exact ⟨address, root, ht, htag, hpointer, hcell, holders, hp⟩

/-- The payload of an object is one that has been made. -/
theorem Sits.root_lt (hs : Sits w session h bits value address root) :
    root < w.payloads.size := by
  obtain ⟨holders, hp⟩ := hs.payload
  exact (Array.getElem?_eq_some_iff.1 (Option.join_eq_some_iff.1 hp)).1

/-- Only its cell and its payload matter. -/
theorem Sits.congr (hs : Sits w session h bits value address root)
    (hc : w'.cells[address]? = w.cells[address]?) (hp : w'.payload? root = w.payload? root) :
    Sits w' session h bits value address root :=
  ⟨hs.tag, hs.claims, hs.pointer, hc.trans hs.cell, by rw [hp]; exact hs.payload⟩

/-- A new object is behind a new payload, and what was there before stays where it is. -/
theorem create_sits (size : UInt64) (hb : bits.touchesReserved = false) (value : Payload) :
    ∃ made w' address, create session size bits value w = (.ok made, w') ∧ w.Keeps w' ∧
      Sits w' session made bits value address w.payloads.size ∧
      ∀ root, root < w.payloads.size → w'.payload? root = w.payload? root := by
  obtain ⟨made, w', hmade, hk, hc⟩ := create_carries w session size hb value
  obtain ⟨address, root, hs⟩ := hc.sits
  cases (create_atomic w session size bits value True).of_ok hmade with
  | created _ gains payloads =>
    have hroot : w'.grantAt made.pointer = some (.object session w.payloads.size) :=
      (gains.grantAt _).trans (if_pos rfl)
    rw [hs.found.grant] at hroot
    cases hroot
    refine ⟨made, w', address, hmade, hk, hs, fun root hlt => ?_⟩
    rw [World.payload?_push payloads, if_neg (Nat.ne_of_lt hlt)]

/-- An object stays where it is while others are made. -/
theorem Sits.kept (hs : Sits w session h bits value address root) (hk : w.Keeps w')
    (hp : ∀ root, root < w.payloads.size → w'.payload? root = w.payload? root) :
    Sits w' session h bits value address root :=
  hs.congr ((hk _ _ hs.cell).trans hs.cell.symm) (hp root hs.root_lt)

/-- Releasing an object is nothing to a benchmark, nor to an object with another payload. -/
theorem Sits.destroy {e : Engine} (hs : Sits w e.session h bits value address root)
    (hb : bits.touchesReserved = false) :
    ∃ w', e.destroy h w = (.ok (), w') ∧
      (∀ {b : Handle} {found : Nat × Benchmark}, Benchmark.Found w b found →
        Benchmark.Found w' b found) ∧
      ∀ {h' : Handle} {bits' : Tag} {value' : Payload} {address' root' : Nat}, root' ≠ root →
        Sits w e.session h' bits' value' address' root' →
          Sits w' e.session h' bits' value' address' root' := by
  have hbench : ¬ h.tag.Claims .benchmark := by
    rw [hs.tag]
    exact fun hc => absurd (Tag.Claims.unique (Tag.classBits_or hb .object) hc) (by decide)
  have hcells : ∀ a, a ≠ address →
      (release w address ⟨e.session, root⟩).cells[a]? = w.cells[a]? := by
    intro a ha
    exact Array.getElem?_setIfInBounds_ne (Ne.symm ha)
  refine ⟨_, Engine.destroy_object hs.found hbench, ?_, ?_⟩
  · intro b found hf
    refine ⟨hf.pointer, ?_, hf.tag⟩
    refine (hcells _ ?_).trans hf.cell
    intro ha
    have hcell := hf.cell
    rw [ha, hs.cell] at hcell
    cases hcell
  · intro h' bits' value' address' root' hne hs'
    refine hs'.congr (hcells _ ?_) ?_
    · rintro rfl
      have hcell := hs'.cell
      rw [hs.cell] at hcell
      cases hcell
      exact hne rfl
    · exact (World.payload?_dropHolder (w.clear address) root root').trans (if_neg hne)

end Object

namespace Run

/-! ### Iterations -/

/-- The times of those of the next iterations that are measured. -/
def timesFrom (warmups : Nat) (elapsed : Nat → Binary64) (done left : Nat) : List Binary64 :=
  ((List.range' done left).filter (warmups ≤ ·)).map elapsed

/-- One more iteration adds its time, if it is measured. -/
theorem timesFrom_succ (warmups : Nat) (elapsed : Nat → Binary64) (done left : Nat)
    (times : List Binary64) :
    (if warmups ≤ done then elapsed done :: times else times).reverse ++
        timesFrom warmups elapsed (done + 1) left =
      times.reverse ++ timesFrom warmups elapsed done (left + 1) := by
  by_cases h : warmups ≤ done <;> simp [timesFrom, List.range'_succ, h]

/-- The warmups are not measured, all others are. -/
theorem timesFrom_all (warmups measured : Nat) (elapsed : Nat → Binary64) :
    timesFrom warmups elapsed 0 (warmups + measured) =
      (List.range measured).map fun i => elapsed (warmups + i) := by
  have hwarmups : (List.range' 0 warmups).filter (warmups ≤ ·) = [] := by
    rw [List.filter_eq_nil_iff]
    intro i hi
    rw [List.mem_range'_1] at hi
    simpa using hi.2
  have hmeasured : (List.range' warmups measured).filter (warmups ≤ ·) =
      List.range' warmups measured := by
    rw [List.filter_eq_self]
    intro i hi
    rw [List.mem_range'_1] at hi
    simpa using hi.1
  have hsplit : List.range' 0 (warmups + measured) =
      List.range' 0 warmups ++ List.range' warmups measured := by
    rw [← List.range'_append_1, Nat.zero_add]
  rw [timesFrom, hsplit, List.filter_append, hwarmups, hmeasured, List.nil_append,
    List.range'_eq_map_range, List.map_map]
  rfl

variable {e : Engine} {b loaded previous : Handle} {a : Nat} {p : Product} {st : State}
  {components : List (List (Matrix Binary64))} {ms : List (Matrix Binary64)}
  {selections : List Selection} {left right : Selection} {rest : List Handle}
  {address root address' root' : Nat}

/-- Operating on loaded data makes a result with a payload of its own. -/
theorem operate_sits {w : World} (hf : Benchmark.Found w b (a, ⟨e.session, .product p⟩))
    (hl : Object.Sits w e.session loaded Product.loadedBit ⟨.matrices, components⟩ address root)
    (hs : p.selections selections = .ok (left, right))
    (hms : Product.results components left right = .ok ms) :
    ∃ made w' address', e.operate b loaded selections w = (.ok made, w') ∧ w.Keeps w' ∧
      Object.Sits w' e.session made Product.operatedBit ⟨.matrices, [ms]⟩ address'
        w.payloads.size ∧
      ∀ root, root < w.payloads.size → w'.payload? root = w.payload? root := by
  have hb : Tag.touchesReserved Product.operatedBit = false := by decide
  rw [Engine.operate_eq hf, Product.operate_of_carries hs (by decide) hl.carries, hms]
  exact Object.create_sits Product.dataSize hb _

/-- While the step is repeated, each result makes way for the next one. -/
theorem repeat_eq (st : State) (hs : p.selections selections = .ok (left, right))
    (hms : Product.results components left right = .ok ms) (warmups : Nat)
    (elapsed : Nat → Binary64) (times : List Binary64) (done more : Nat)
    (hf : Benchmark.Found st.world b (a, ⟨e.session, .product p⟩))
    (hl : Object.Sits st.world e.session loaded Product.loadedBit ⟨.matrices, components⟩
      address root)
    (hp : Object.Sits st.world e.session previous Product.operatedBit ⟨.matrices, [ms]⟩
      address' root')
    (hne : root' ≠ root) (howned : st.owned = previous :: rest) :
    ∃ st' result, iterate e b loaded selections warmups elapsed (some previous) times done more st =
        (.ok (times.reverse ++ timesFrom warmups elapsed done more), st') ∧
      Benchmark.Found st'.world b (a, ⟨e.session, .product p⟩) ∧
      Object.Carries st'.world e.session result Product.operatedBit ⟨.matrices, [ms]⟩ ∧
      st'.owned = result :: rest := by
  induction more generalizing previous times done st address' root' with
  | zero =>
    refine ⟨st, previous, ?_, hf, hp.carries, howned⟩
    rw [timesFrom, List.range'_zero, List.filter_nil, List.map_nil, List.append_nil]
    rfl
  | succ more ih =>
    obtain ⟨result, w₁, address₁, h₁, hk₁, hr₁, hp₁⟩ := operate_sits hf hl hs hms
    -- the result before is released in a world where the new one is there already
    obtain ⟨w₂, h₂, benchmarks, objects⟩ := (hp.kept hk₁ hp₁).destroy (by decide)
    have hr₂ := objects (Nat.ne_of_gt hp.root_lt) hr₁
    have hl₂ := objects (Ne.symm hne) (hl.kept hk₁ hp₁)
    obtain ⟨st', last, hiterate, hf', hc', howned'⟩ :=
      ih ⟨w₂, result :: rest⟩ (if warmups ≤ done then elapsed done :: times else times)
        (done + 1) (benchmarks (hf.kept hk₁)) hl₂ hr₂ (Nat.ne_of_gt hl.root_lt) rfl
    refine ⟨st', last, ?_, hf', hc', howned'⟩
    rw [timesFrom_succ] at hiterate
    rw [← hiterate]
    have hoperate : onWorld (e.operate b loaded selections) st =
        (.ok result, ⟨w₁, previous :: rest⟩) := by
      rw [onWorld_apply, h₁, howned]
    have hdestroy : onWorld (e.destroy previous) ⟨w₁, rest⟩ = (.ok (), ⟨w₂, rest⟩) := by
      rw [onWorld_apply, h₂]
    rw [iterate, Act.bind_of_ok hoperate]
    show (onWorld (e.destroy previous) >>= _) ⟨w₁, rest⟩ = _
    rw [Act.bind_of_ok hdestroy]
    rfl

/-- However often the step is repeated, and it is at least once, the latest result is left, besides
what the run had before. -/
theorem iterate_eq (hs : p.selections selections = .ok (left, right))
    (hms : Product.results components left right = .ok ms) (warmups : Nat)
    (elapsed : Nat → Binary64) {n : Nat} (hn : 0 < n)
    (hf : Benchmark.Found st.world b (a, ⟨e.session, .product p⟩))
    (hl : Object.Carries st.world e.session loaded Product.loadedBit ⟨.matrices, components⟩) :
    ∃ st' result, iterate e b loaded selections warmups elapsed none [] 0 n st =
        (.ok (timesFrom warmups elapsed 0 n), st') ∧
      Benchmark.Found st'.world b (a, ⟨e.session, .product p⟩) ∧
      Object.Carries st'.world e.session result Product.operatedBit ⟨.matrices, [ms]⟩ ∧
      st'.owned = result :: st.owned := by
  obtain ⟨n, rfl⟩ := Nat.exists_eq_succ_of_ne_zero (Nat.ne_of_gt hn)
  obtain ⟨address, root, hl⟩ := hl.sits
  obtain ⟨result, w₁, address₁, h₁, hk₁, hr₁, hp₁⟩ := operate_sits hf hl hs hms
  obtain ⟨st', last, hiterate, hf', hc', howned'⟩ :=
    repeat_eq ⟨w₁, result :: st.owned⟩ hs hms warmups elapsed
      (if warmups ≤ 0 then elapsed 0 :: [] else []) 1 n (hf.kept hk₁) (hl.kept hk₁ hp₁) hr₁
      (Nat.ne_of_gt hl.root_lt) rfl
  refine ⟨st', last, ?_, hf', hc', howned'⟩
  rw [timesFrom_succ] at hiterate
  have hoperate : onWorld (e.operate b loaded selections) st =
      (.ok result, ⟨w₁, st.owned⟩) := by
    rw [onWorld_apply, h₁]
  rw [iterate, Act.bind_of_ok hoperate]
  exact hiterate

/-! ### Before and after -/

theorem acquire_eq (st : State) {act : Act World Handle} {made : Handle} {w' : World}
    (h : act st.world = (.ok made, w')) :
    acquire act st = (.ok made, ⟨w', made :: st.owned⟩) := by
  have hact : onWorld act st = (.ok made, ⟨w', st.owned⟩) := by rw [onWorld_apply, h]
  rw [acquire, Act.bind_of_ok hact]
  rfl

/-- A benchmark of a product takes a descriptor of its workload and category. -/
theorem concretize_eq {w : World} {d : Descriptor}
    (hf : Benchmark.Found w b (a, ⟨e.session, .product p⟩))
    (hworkload : d.workload = p.descriptor.workload)
    (hcategory : d.category = p.descriptor.category) :
    ∃ w', e.concretize b d w = (.ok (), w') ∧
      Benchmark.Found w' b (a, ⟨e.session, .product { p with descriptor := d }⟩) := by
  have hp : p.concretize d = .ok { p with descriptor := d } := if_pos ⟨hworkload, hcategory⟩
  have hlt : a < w.cells.size := (Array.getElem?_eq_some_iff.1 hf.cell).1
  let given : Benchmark := ⟨e.session, .product { p with descriptor := d }⟩
  let cells := w.cells.setIfInBounds a (.benchmark given)
  refine ⟨{ w with cells }, ?_, hf.pointer, ?_, hf.tag⟩
  · rw [Engine.concretize, Act.bind_of_ok (Engine.own_eq hf rfl)]
    simp only [Benchmark.concretize, Instance.concretize, hp]
    rfl
  · exact Array.getElem?_setIfInBounds_self_of_lt hlt

/-- Operands that fit are taken into the benchmark as they are. -/
theorem upload_eq (st : State) {d : Descriptor} {o : Operands}
    (hf : Benchmark.Found st.world b (a, ⟨e.session, .product p⟩))
    (hworkload : d.workload = p.descriptor.workload)
    (hcategory : d.category = p.descriptor.category)
    (ho : o.Fits { p with descriptor := d }) :
    ∃ st' loaded, upload e b d o st = (.ok loaded, st') ∧
      Benchmark.Found st'.world b (a, ⟨e.session, .product { p with descriptor := d }⟩) ∧
      Object.Carries st'.world e.session loaded Product.loadedBit
        ⟨.matrices, [o.left, o.right]⟩ := by
  obtain ⟨w₁, h₁, hf₁⟩ := concretize_eq hf hworkload hcategory
  have hb : (Product.encodedBit ||| Product.plainBit).touchesReserved = false := by decide
  obtain ⟨encoded, w₂, h₂, hk₂, hc₂⟩ := Object.create_carries w₁ e.session Product.dataSize
    hb ⟨.matrices, [o.left, o.right]⟩
  obtain ⟨encrypted, w₃, h₃, hk₃, hc₃⟩ := Product.encrypt_carries hc₂ (by decide)
  obtain ⟨loaded, w₄, h₄, hk₄, hc₄⟩ := Product.load_carries hc₃ (by decide)
  have hf₂ := hf₁.kept hk₂
  have hf₃ := hf₂.kept hk₃
  have hencode : e.encode b o.packs w₁ = (.ok encoded, w₂) := by
    rw [Engine.encode_eq hf₁, Product.encode, ho.encoded]
    exact h₂
  rw [← Engine.encrypt_eq hf₂] at h₃
  rw [← Engine.load_eq hf₃] at h₄
  refine ⟨⟨w₄, loaded :: encrypted :: encoded :: st.owned⟩, loaded, ?_, hf₃.kept hk₄, hc₄⟩
  have hconcretize : onWorld (e.concretize b d) st = (.ok (), ⟨w₁, st.owned⟩) := by
    rw [onWorld_apply, h₁]
  rw [upload, Act.bind_of_ok hconcretize, Act.bind_of_ok (acquire_eq _ hencode),
    Act.bind_of_ok (acquire_eq _ h₃)]
  exact acquire_eq _ h₄

/-- Results that fill the buffers of the host come out of the benchmark as they are. -/
theorem download_eq {o : Operands} {result : Handle}
    (hf : Benchmark.Found st.world b (a, ⟨e.session, .product p⟩))
    (hc : Object.Carries st.world e.session result Product.operatedBit ⟨.matrices, [ms]⟩)
    (howned : st.owned = result :: rest) (hcount : ms.length = o.resultCount)
    (hms : ∀ m ∈ ms, m.FullOf o.rows o.cols) :
    ∃ st', download e b o st = (.ok (ms.map fun m => Binary64.writeAll m.entries), st') := by
  obtain ⟨stored, others, w₁, h₁, hk₁, hc₁⟩ := Product.store_carries hc (by decide) .null []
  obtain ⟨decrypted, w₂, h₂, hk₂, hc₂⟩ := Product.decrypt_carries hc₁ (by decide)
  have h₃ := Product.decode_carries hc₂ (by decide) [⟨0, o.blankResults⟩]
  have hf₁ := hf.kept hk₁
  rw [← Engine.store_eq hf] at h₁
  rw [← Engine.decrypt_eq hf₁] at h₂
  rw [← Engine.decode_eq (hf₁.kept hk₂)] at h₃
  have hnull : stored.isNull = false := by
    obtain ⟨_, _, hs⟩ := hc₁.sits
    exact hs.found.not_null
  have hstore : onWorld (e.store b result [.null]) st =
      (.ok (stored :: others), ⟨w₁, st.owned⟩) := by
    rw [onWorld_apply, h₁]
  refine ⟨⟨w₂, decrypted :: stored :: st.owned⟩, ?_⟩
  have hdecode : onWorld (e.decode b decrypted [⟨0, o.blankResults⟩])
      ⟨w₂, decrypted :: stored :: st.owned⟩ =
        (.ok (Product.writeFrom 0 [ms] [⟨0, o.blankResults⟩]),
          ⟨w₂, decrypted :: stored :: st.owned⟩) := by
    rw [onWorld_apply, h₃]
  have hlook : (Act.look fun s : State => s.owned.head?) st = (.ok (some result), st) := by
    show (Except.ok st.owned.head?, st) = _
    rw [howned]
    rfl
  rw [download, Act.bind_of_ok hlook]
  dsimp only
  rw [Act.bind_of_ok hstore, List.headD_cons, hnull]
  have hdecrypt := acquire_eq ⟨w₁, stored :: st.owned⟩ h₂
  show (acquire (e.decrypt b stored) >>= _) ⟨w₁, stored :: st.owned⟩ = _
  rw [Act.bind_of_ok hdecrypt, Act.bind_of_ok hdecode, Operands.filled hcount hms]
  rfl

/-! ### The whole pipeline -/

/-- The run has got what its host expects. -/
structure Reproduces (o : Operands) (settings : RunSettings) (elapsed : Nat → Binary64)
    (output : Output) : Prop where
  /-- There is a buffer for each result. -/
  count : output.decoded.length = o.resultCount
  /-- The host can compute the results, and each buffer holds the octets of the one at its
  place. -/
  results : ∃ ms, o.expected = .ok ms ∧
    output.decoded = ms.map fun m => Binary64.writeAll m.entries
  /-- There is a time for each measured iteration. -/
  measured : output.times.length = settings.measured.toNat
  /-- The times are those of the iterations after the warmups. -/
  times : output.times = (List.range settings.measured.toNat).map fun i =>
    elapsed (settings.warmups.toNat + i)

/-- **A driven run reproduces the reference.** Operands that a host has generated for a benchmark of
a product, from whatever seed and with whatever counts, go through the whole pipeline, however often
the benchmarked step is repeated, and come out as the products that the host expects. -/
theorem drive_reproduces {w : World} {params : List Param} {shape : ProductShape}
    (hf : Benchmark.Found w b (a, ⟨e.session, .product p⟩))
    (hshape : ProductShape.ofParams params = .ok shape)
    (hp : Product.ofParams p.descriptor params = .ok p)
    (hkind : p.descriptor.workload = .matrixMultiply) {d : Descriptor}
    (hworkload : d.workload = .matrixMultiply) (hcategory : d.category = p.descriptor.category)
    (seed : UInt64) {settings : RunSettings} (hmeasured : 1 ≤ settings.measured.toNat)
    (elapsed : Nat → Binary64) (owned : List Handle) :
    ∃ output st, drive e b d (.generate d shape seed) settings elapsed ⟨w, owned⟩ =
        (.ok output, st) ∧
      Reproduces (.generate d shape seed) settings elapsed output := by
  obtain ⟨heq, hroom⟩ := Product.ofParams_eq_ok hshape hp
  have ho : (Operands.generate d shape seed).Fits { p with descriptor := d } := by
    refine Operands.fits_generate seed ?_ hroom
    rw [heq]
  obtain ⟨left, right, hselections, hresults⟩ := ho.selected
  obtain ⟨ms, hms, hcount, hfull⟩ := ho.expected
  rw [hms] at hresults
  obtain ⟨st₁, loaded, h₁, hf₁, hc₁⟩ :=
    upload_eq ⟨w, owned⟩ hf (hworkload.trans hkind.symm) hcategory ho
  obtain ⟨st₂, result, h₂, hf₂, hc₂, howned⟩ :=
    iterate_eq hselections hresults settings.warmups.toNat elapsed
      (Nat.lt_of_lt_of_le hmeasured (Nat.le_add_left _ _)) hf₁ hc₁
  obtain ⟨st₃, h₃⟩ := download_eq hf₂ hc₂ howned hcount hfull
  rw [timesFrom_all] at h₂
  let times := (List.range settings.measured.toNat).map fun i =>
    elapsed (settings.warmups.toNat + i)
  refine ⟨⟨times, ms.map fun m => Binary64.writeAll m.entries⟩, st₃, ?_, ?_⟩
  · rw [drive, Act.bind_of_ok h₁, Act.bind_of_ok h₂, Act.bind_of_ok h₃]
    rfl
  · constructor
    case count => exact (List.length_map _).trans hcount
    case results => exact ⟨ms, hms, rfl⟩
    case measured => exact (List.length_map _).trans List.length_range
    case times => rfl

end Run

namespace Host

/-- The host with the offline benchmark drives it with three left factors and one right one, which
is what a count of zero means, and measures one iteration after two warmups. -/
theorem drive_reproduces_multiplier : ∃ output st,
    Run.drive multiplierEngine multiplierBenchmark
        { Description.offlineProduct.descriptor with categoryParams := .offline [3, 0] }
        (.generate { Description.offlineProduct.descriptor with
          categoryParams := .offline [3, 0] } ⟨1, 1, 1⟩ 7)
        ⟨1, 0, 2, 1, 7⟩ (fun _ => .one) ⟨multiplier.world, []⟩ = (.ok output, st) ∧
      output.decoded.length = 3 ∧ output.times = [.one] := by
  have hf : Benchmark.Found multiplier.world multiplierBenchmark
      (1, ⟨multiplierEngine.session, .product multiplierProduct⟩) := ⟨rfl, rfl, by decide⟩
  obtain ⟨output, st, hdrive, hr⟩ := Run.drive_reproduces hf
    (show ProductShape.ofParams (ProductShape.mk 1 1 1).toParams = .ok ⟨1, 1, 1⟩ from rfl) rfl rfl
    (d := { Description.offlineProduct.descriptor with categoryParams := .offline [3, 0] }) rfl rfl
    7 (show 1 ≤ (⟨1, 0, 2, 1, 7⟩ : RunSettings).measured.toNat by decide) (fun _ => .one) []
  exact ⟨output, st, hdrive, hr.count.trans rfl, hr.times⟩

end Host

end HandleBench
