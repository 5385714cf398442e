import HandleBench.Proofs.Sessions
import HandleBench.Proofs.Samples

/-!
# Bare instances

A host may give an instance a concrete descriptor at any time. The instance keeps it, but the
pipeline looks at the category only, and the next concrete descriptor is compared by workload and
category. Both are those that the instance was created with, since no other descriptor is accepted.
What is left of an instance when all the rest of its descriptor is forgotten is its *bare* instance:
it is the same after every concrete descriptor, `Instance.bare_concretize`, and it settles what
every job does, `Benchmark.fulfil_congr`.
-/

namespace HandleBench

/-! ### Products -/

/-- The product with nothing in its descriptor but its workload and its category. -/
def Product.bare (p : Product) : Product :=
  { p with descriptor := { Descriptor.plain with
      workload := p.descriptor.workload
      category := p.descriptor.category } }

/-- The products are of the same shape and the same category. -/
structure Product.Akin (p q : Product) : Prop where
  /-- The left factors have as many rows. -/
  rows : p.rows = q.rows
  /-- The inner dimension is the same. -/
  inner : p.inner = q.inner
  /-- The right factors have as many columns. -/
  cols : p.cols = q.cols
  /-- Both are latency benchmarks, or both are offline benchmarks. -/
  category : p.descriptor.category = q.descriptor.category

namespace Product

variable {p q : Product}

/-- Products are the same when bare if they are akin and have the same workload. -/
theorem bare_eq_iff :
    p.bare = q.bare ↔ p.Akin q ∧ p.descriptor.workload = q.descriptor.workload := by
  constructor
  · intro h
    simp only [bare, mk.injEq, Descriptor.mk.injEq] at h
    obtain ⟨⟨hworkload, -, hcategory, -⟩, hrows, hinner, hcols⟩ := h
    exact ⟨⟨hrows, hinner, hcols, hcategory⟩, hworkload⟩
  · rintro ⟨⟨hrows, hinner, hcols, hcategory⟩, hworkload⟩
    rw [bare, bare, hrows, hinner, hcols, hcategory, hworkload]

namespace Akin

variable (h : p.Akin q)

include h

theorem isLatency : p.isLatency = q.isLatency := by
  rw [Product.isLatency, Product.isLatency, h.category]

theorem operands (packs : List Pack) : p.operands packs = q.operands packs := by
  simp only [Product.operands, operand, h.isLatency, h.rows, h.inner, h.cols]

theorem selections (selections : List Selection) :
    p.selections selections = q.selections selections := by
  cases selections with
  | nil => rfl
  | cons left more =>
    cases more with
    | nil => rfl
    | cons right more => rw [Product.selections, Product.selections, h.isLatency]

/-- Akin products encode the same samples to the same data. -/
theorem encode : p.encode = q.encode := by
  funext session packs
  rw [Product.encode, Product.encode, h.operands]

/-- They do the same with what was loaded, whoever has encoded it. -/
theorem operate : p.operate = q.operate := by
  funext session loaded selections
  rw [Product.operate, Product.operate, h.selections]

end Akin

/-- A concrete descriptor is accepted by its workload and its category only, and it leaves nothing
of the descriptor that it replaces. -/
theorem concretize_congr (h : p.bare = q.bare) : p.concretize = q.concretize := by
  obtain ⟨⟨hrows, hinner, hcols, hcategory⟩, hworkload⟩ := bare_eq_iff.1 h
  funext concrete
  rw [concretize, concretize, hcategory, hworkload, hrows, hinner, hcols]

theorem bare_concretize {concrete : Descriptor} (h : p.concretize concrete = .ok q) :
    q.bare = p.bare := by
  unfold concretize at h
  split at h
  · next hsame =>
    cases h
    exact bare_eq_iff.2 ⟨⟨rfl, rfl, rfl, hsame.2⟩, hsame.1⟩
  · cases h

end Product

/-! ### Instances -/

/-- The instance without what a concrete descriptor can change. -/
def Instance.bare : Instance → Instance
  | product p => product p.bare
  | carrier config => carrier config

namespace Instance

variable {i j : Instance}

/-- Instances that are the same when bare are two products, or they are the same carrier. -/
theorem cases_of_bare (h : i.bare = j.bare) :
    (∃ p q, i = product p ∧ j = product q ∧ p.bare = q.bare) ∨ ∃ config, i = carrier config ∧
      j = carrier config := by
  cases i with
  | product p =>
    cases j with
    | product q => exact .inl ⟨p, q, rfl, rfl, product.inj h⟩
    | carrier => cases h
  | carrier config =>
    cases j with
    | product => cases h
    | carrier => exact .inr ⟨config, rfl, h.symm⟩

theorem backend_of_bare (h : i.bare = j.bare) : i.backend = j.backend := by
  rcases cases_of_bare h with ⟨p, q, rfl, rfl, -⟩ | ⟨config, rfl, rfl⟩ <;> rfl

theorem concretize_congr (h : i.bare = j.bare) : i.concretize = j.concretize := by
  rcases cases_of_bare h with ⟨p, q, rfl, rfl, hpq⟩ | ⟨config, rfl, rfl⟩
  · funext concrete
    rw [concretize, concretize, Product.concretize_congr hpq]
  · rfl

/-- **A concrete descriptor leaves the bare instance as it is.** -/
theorem bare_concretize {concrete : Descriptor} (h : i.concretize concrete = .ok j) :
    j.bare = i.bare := by
  cases i with
  | product p =>
    rw [concretize] at h
    cases hp : p.concretize concrete with
    | error failure =>
      rw [hp] at h
      cases h
    | ok q =>
      rw [hp] at h
      cases h
      exact congrArg product (Product.bare_concretize hp)
  | carrier config =>
    cases h
    rfl

end Instance

/-! ### What the host gets -/

/-- What a host gets from an engine that does not refuse. -/
inductive Gift where
  /-- Nothing. -/
  | nothing
  /-- Handles. -/
  | handles (handles : List Handle)
  /-- Its packs, with what was written into them. -/
  | packs (packs : List Pack)
  /-- A number. -/
  | count (n : Nat)
  /-- A text. -/
  | text (text : String)
  /-- Its memory, with what was copied there, and whether all of it was. -/
  | outline (outcome : Except Failure Unit) (memory : Engine.Outline)

namespace Benchmark

/-- Does a job and yields what the host gets of it. -/
def fulfil (address : Nat) (b : Benchmark) : Job → Act World Gift
  | .concretize concrete => do
    b.concretize address concrete
    return .nothing
  | .encode packs => return .handles [← b.encode packs]
  | .decode encoded packs => return .packs (← b.decode encoded packs)
  | .encrypt encoded => return .handles [← b.encrypt encoded]
  | .decrypt encrypted => return .handles [← b.decrypt encrypted]
  | .load handles => return .handles [← b.load handles]
  | .store result slots => return .handles (← b.store result slots)
  | .operate loaded selections => return .handles [← b.operate loaded selections]

/-- The benchmark without what a concrete descriptor can change. -/
def bare (b : Benchmark) : Benchmark := { b with inst := b.inst.bare }

variable {b c : Benchmark}

theorem bare_eq_iff : b.bare = c.bare ↔ b.session = c.session ∧ b.inst.bare = c.inst.bare := by
  simp only [bare, mk.injEq]

/-- Benchmarks that are the same when bare do every job alike. -/
theorem fulfil_congr (address : Nat) (h : b.bare = c.bare) :
    b.fulfil address = c.fulfil address := by
  obtain ⟨session, i⟩ := b
  obtain ⟨session', j⟩ := c
  obtain ⟨rfl, hij⟩ := bare_eq_iff.1 h
  funext job
  cases job with
  | concretize concrete =>
    simp only [fulfil, concretize, Instance.concretize_congr hij]
  | _ =>
    rcases Instance.cases_of_bare hij with ⟨p, q, rfl, rfl, hpq⟩ | ⟨config, rfl, rfl⟩
    · have hakin := (Product.bare_eq_iff.1 hpq).1
      simp only [fulfil, encode, decode, encrypt, decrypt, load, store, operate, Instance.encode,
        Instance.decode, Instance.encrypt, Instance.decrypt, Instance.load, Instance.store,
        Instance.operate, hakin.encode, hakin.operate]
    · rfl

end Benchmark

end HandleBench
