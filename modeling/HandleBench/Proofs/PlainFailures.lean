import HandleBench.Engine

/-!
# Failures of the library's own

A failure has one of the two codes of the library, unless a backend has chosen a code for it. The
first kind is called *plain*. Every computation that can refuse something refuses it with a plain
failure, with one exception: a byte carrier can be told to fail with any code when a benchmark is
created, `instantiate_failure`.
-/

namespace HandleBench

/-- A backend has chosen the code. -/
def FailureKind.isBackend : FailureKind → Bool
  | .backend _ => true
  | _ => false

/-- The code of the failure is one of the library's own. -/
def Failure.Plain (failure : Failure) : Prop := failure.kind.isBackend = false

/-- A plain failure has one of the two codes of the library. -/
theorem Failure.Plain.code_eq {failure : Failure} (h : failure.Plain) :
    failure.code = .invalidArgs ∨ failure.code = .critical := by
  unfold Failure.Plain at h
  unfold Failure.code
  cases hk : failure.kind with
  | backend code =>
    rw [hk] at h
    cases h
  | invalidArgs => exact .inl rfl
  | settings => exact .inl rfl
  | critical => exact .inr rfl
  | other => exact .inr rfl

/-- Neither of them is that of success. -/
theorem Failure.Plain.code_ne_success {failure : Failure} (h : failure.Plain) :
    failure.code ≠ .success := by
  rcases h.code_eq with hc | hc
  · rw [hc]
    decide
  · rw [hc]
    decide

/-- The computation fails only with failures of which `allowed` holds. -/
def FailsOnly {α : Type} (allowed : Failure → Prop) (e : Except Failure α) : Prop :=
  ∀ failure, e = .error failure → allowed failure

/-- The computation fails only with plain failures. -/
abbrev FailsPlainly {α : Type} (e : Except Failure α) : Prop := FailsOnly Failure.Plain e

/-- The computation fails only with critical failures of the library's own. -/
abbrev FailsCritically {α : Type} (e : Except Failure α) : Prop :=
  FailsOnly (·.kind = .critical) e

section Rules

variable {α β : Type} {allowed allowed' : Failure → Prop} {failure : Failure} {e : Except Failure α}

theorem FailsOnly.mono (h : FailsOnly allowed e)
    (ha : ∀ failure, allowed failure → allowed' failure) : FailsOnly allowed' e := by
  intro failure he
  exact ha failure (h failure he)

theorem FailsOnly.plain (h : FailsCritically e) : FailsPlainly e := by
  refine h.mono fun failure hk => ?_
  rw [Failure.Plain, hk]
  rfl

theorem failsOnly_ok (a : α) : FailsOnly allowed (.ok a : Except Failure α) := by
  intro failure h
  cases h

theorem failsOnly_error (h : allowed failure) :
    FailsOnly allowed (.error failure : Except Failure α) := by
  intro failure' h'
  cases h'
  exact h

theorem failsOnly_bind {next : α → Except Failure β} (h : FailsOnly allowed e)
    (hn : ∀ a, e = .ok a → FailsOnly allowed (next a)) : FailsOnly allowed (e >>= next) := by
  cases e with
  | error failure => exact failsOnly_error (h failure rfl)
  | ok a => exact hn a rfl

theorem failsOnly_map {f : α → β} (h : FailsOnly allowed e) : FailsOnly allowed (e.map f) := by
  cases e with
  | error failure => exact failsOnly_error (h failure rfl)
  | ok a => exact failsOnly_ok (f a)

theorem failsOnly_mapM {f : β → Except Failure α} {xs : List β}
    (h : ∀ x, FailsOnly allowed (f x)) : FailsOnly allowed (xs.mapM f) := by
  induction xs with
  | nil => exact failsOnly_ok []
  | cons x xs ih =>
    rw [List.mapM_cons]
    refine failsOnly_bind (h x) ?_
    intro y _
    refine failsOnly_bind ih ?_
    intro ys _
    exact failsOnly_ok (y :: ys)

end Rules

/-! ### Host memory and parameters -/

theorem HostArray.read_plain {α : Type} (array : HostArray α) {refusal : Failure}
    (h : refusal.Plain) : FailsPlainly (array.read refusal) := by
  unfold HostArray.read
  split
  · exact failsOnly_ok []
  · split
    · exact failsOnly_error h
    · exact failsOnly_ok _

theorem HostPacks.read_plain (packs : HostPacks) : FailsPlainly packs.read := by
  unfold HostPacks.read
  refine failsOnly_bind (HostArray.read_plain packs rfl) ?_
  intro packs _
  refine failsOnly_mapM ?_
  intro pack
  unfold HostPack.read
  refine failsOnly_bind (HostArray.read_plain pack.buffers rfl) ?_
  intro buffers _
  exact failsOnly_ok _

theorem Param.type_plain (p : Param) : FailsPlainly p.type := by
  unfold Param.type ParamType.ofCode
  split
  · exact failsOnly_ok _
  split
  · exact failsOnly_ok _
  split
  · exact failsOnly_ok _
  · exact failsOnly_error rfl

theorem Descriptor.ofRaw_plain (raw : RawDescriptor) : FailsPlainly (Descriptor.ofRaw raw) := by
  unfold Descriptor.ofRaw
  refine failsOnly_bind ?_ ?_
  · unfold Workload.ofCode
    split
    · exact failsOnly_ok _
    · exact failsOnly_error rfl
  intro workload _
  refine failsOnly_bind ?_ ?_
  · unfold DataType.ofCode
    split
    · exact failsOnly_ok _
    · exact failsOnly_error rfl
  intro dataType _
  refine failsOnly_bind ?_ ?_
  · unfold Category.ofCode
    split
    · exact failsOnly_ok _
    · exact failsOnly_error rfl
  intro category _
  exact failsOnly_ok _

/-! ### Engines -/

namespace EngineSettings

theorem ofOctets_plain (octets : Octets) : FailsPlainly (ofOctets octets) := by
  unfold ofOctets
  split
  · unfold ofText
    simp only
    split
    · exact failsOnly_ok unset
    · split
      · exact failsOnly_ok _
      · exact failsOnly_error rfl
  · exact failsOnly_error rfl

theorem checkVersion_plain (s : EngineSettings) : FailsPlainly s.checkVersion := by
  unfold checkVersion
  split
  · exact failsOnly_ok ()
  · split
    · exact failsOnly_error rfl
    · split
      · exact failsOnly_ok ()
      · exact failsOnly_error rfl

end EngineSettings

namespace Engine

variable (e : Engine) (h : Handle)

theorem find_plain : FailsPlainly (e.find h) := by
  unfold find
  split
  · exact failsOnly_error rfl
  · split
    · exact failsOnly_ok _
    · exact failsOnly_error rfl

theorem arity_plain : FailsPlainly (e.arity h) :=
  failsOnly_bind (e.find_plain h) fun _ _ => failsOnly_ok _

theorem setCount_plain : FailsPlainly (e.setCount h) :=
  failsOnly_bind (e.find_plain h) fun _ _ => failsOnly_ok _

theorem text_plain (params : Option (List Param)) : FailsPlainly (e.text h params) :=
  failsOnly_bind (e.find_plain h) fun _ _ => failsOnly_ok _

theorem subscribe_plain (slots : List Handle) : FailsPlainly (e.subscribe slots) := by
  unfold subscribe
  split
  · exact failsOnly_ok _
  · exact failsOnly_error rfl

theorem schemeName_plain (id : Int32) : FailsPlainly (e.schemeName id) := by
  unfold schemeName
  split
  · exact failsOnly_ok _
  · exact failsOnly_error rfl

theorem securityName_plain (id : Int32) : FailsPlainly (e.securityName id) := by
  unfold securityName
  split
  · exact failsOnly_ok _
  · exact failsOnly_error rfl

/-- A slot that is too short is refused wherever it stands. -/
theorem fillSlots_plain (index : Nat) (slots sets : List (List Param)) :
    FailsPlainly (fillSlots index slots sets).1 := by
  fun_induction fillSlots index slots sets with
  | case1 => exact failsOnly_error rfl
  | case2 index slot slots set sets hlt outcome filled he ih =>
    rw [he] at ih
    exact ih
  | case3 => exact failsOnly_ok ()

theorem describe_plain (memory : Outline) : FailsPlainly (e.describe h memory).1 := by
  unfold describe
  split
  · next failure hf => exact failsOnly_error (e.find_plain h failure hf)
  · exact fillSlots_plain 0 memory.slots _

end Engine

/-! ### Handles of objects -/

theorem requireUnreserved_failure (bits : Tag) :
    FailsOnly (fun failure => ∃ tag, failure = .reservedTag tag) (requireUnreserved bits) := by
  unfold requireUnreserved
  split
  · exact failsOnly_error ⟨bits, rfl⟩
  · exact failsOnly_ok ()

theorem requireUnreserved_critical (bits : Tag) : FailsCritically (requireUnreserved bits) := by
  refine (requireUnreserved_failure bits).mono ?_
  rintro failure ⟨tag, rfl⟩
  rfl

theorem requireUnreserved_plain (bits : Tag) : FailsPlainly (requireUnreserved bits) :=
  (requireUnreserved_critical bits).plain

theorem Handle.checkObject_critical (h : Handle) (required : Tag) :
    FailsCritically (h.checkObject required) := by
  unfold Handle.checkObject
  refine failsOnly_bind (requireUnreserved_critical required) ?_
  intro _ _
  dsimp only
  split
  · exact failsOnly_error rfl
  · split
    · exact failsOnly_error rfl
    · exact failsOnly_ok ()

theorem Handle.checkObject_plain (h : Handle) (required : Tag) :
    FailsPlainly (h.checkObject required) :=
  (h.checkObject_critical required).plain

/-! ### Matrix products -/

/-- What is wrong with the parameters of a product. -/
def Failure.isOfShape : Failure → Bool
  | .tooFewParams .. | .paramNotUnsigned _ | .zeroDimension _ | .dimensionOverflow => true
  | _ => false

theorem Failure.plain_of_isOfShape {failure : Failure} (h : failure.isOfShape = true) :
    failure.Plain := by
  cases failure <;> first | rfl | cases h

theorem requireUnsigned_failure (params : List Param) (required : Nat) :
    FailsOnly (·.isOfShape = true) (requireUnsigned params required) := by
  unfold requireUnsigned
  split
  · exact failsOnly_error rfl
  · split
    · exact failsOnly_error rfl
    · exact failsOnly_ok ()

theorem ProductShape.ofParams_failure (params : List Param) :
    FailsOnly (·.isOfShape = true) (ProductShape.ofParams params) := by
  unfold ProductShape.ofParams
  refine failsOnly_bind (requireUnsigned_failure params 3) ?_
  intro _ _
  split
  · exact failsOnly_ok _
  · exact failsOnly_error rfl

namespace Product

theorem dimension_failure (name : String) (value : UInt64) :
    FailsOnly (·.isOfShape = true) (dimension name value) := by
  unfold dimension
  split
  · exact failsOnly_error rfl
  · exact failsOnly_ok _

theorem requireAddressable_failure (rows cols : Nat) :
    FailsOnly (·.isOfShape = true) (requireAddressable rows cols) := by
  unfold requireAddressable
  split
  · exact failsOnly_ok ()
  · exact failsOnly_error rfl

/-- Parameters are refused for the shape that they give and for nothing else. -/
theorem ofParams_failure (descriptor : Descriptor) (params : List Param) :
    FailsOnly (·.isOfShape = true) (ofParams descriptor params) := by
  unfold ofParams
  refine failsOnly_bind (ProductShape.ofParams_failure params) fun shape _ => ?_
  refine failsOnly_bind (dimension_failure _ _) fun rows _ => ?_
  refine failsOnly_bind (dimension_failure _ _) fun inner _ => ?_
  refine failsOnly_bind (dimension_failure _ _) fun cols _ => ?_
  refine failsOnly_bind (requireAddressable_failure _ _) fun _ _ => ?_
  refine failsOnly_bind (requireAddressable_failure _ _) fun _ _ => ?_
  refine failsOnly_bind (requireAddressable_failure _ _) fun _ _ => ?_
  exact failsOnly_ok _

theorem concretize_plain (p : Product) (concrete : Descriptor) :
    FailsPlainly (p.concretize concrete) := by
  unfold concretize
  split
  · exact failsOnly_ok _
  · exact failsOnly_error rfl

theorem readSample_invalid (rows cols : Nat) (octets : Octets) :
    FailsOnly (·.kind = .invalidArgs) (readSample rows cols octets) := by
  unfold readSample
  split
  · exact failsOnly_error rfl
  · unfold Matrix.ofEntries
    split
    · exact failsOnly_ok _
    · exact failsOnly_error rfl

theorem operand_invalid (p : Product) (packs : List Pack) (position : UInt64) (rows cols : Nat) :
    FailsOnly (·.kind = .invalidArgs) (p.operand packs position rows cols) := by
  unfold operand
  refine failsOnly_bind ?_ ?_
  · unfold Pack.find
    split
    · exact failsOnly_ok _
    · exact failsOnly_error rfl
  intro pack _
  generalize (if p.isLatency then pack.buffers.take 1 else pack.buffers) = used
  dsimp only
  split
  · exact failsOnly_error rfl
  · exact failsOnly_mapM (readSample_invalid rows cols)

/-- Packs that cannot be encoded are refused as invalid arguments. -/
theorem operands_invalid (p : Product) (packs : List Pack) :
    FailsOnly (·.kind = .invalidArgs) (p.operands packs) := by
  unfold operands
  dsimp only
  split
  · exact failsOnly_error rfl
  · refine failsOnly_bind (operand_invalid p packs 0 _ _) ?_
    intro left _
    refine failsOnly_bind (operand_invalid p packs 1 _ _) ?_
    intro right _
    exact failsOnly_ok _

theorem operands_plain (p : Product) (packs : List Pack) : FailsPlainly (p.operands packs) := by
  refine (p.operands_invalid packs).mono fun failure hkind => ?_
  rw [Failure.Plain, hkind]
  rfl

theorem selections_plain (p : Product) (given : List Selection) :
    FailsPlainly (p.selections given) := by
  unfold selections
  split
  · split
    · exact failsOnly_error rfl
    · exact failsOnly_ok _
  · exact failsOnly_error rfl

theorem select_plain (samples : List (Matrix Binary64)) (s : Selection) (operand : Nat) :
    FailsPlainly (select samples s operand) := by
  unfold select
  split
  · exact failsOnly_ok _
  · exact failsOnly_error rfl

theorem allProducts_plain (left right : List (Matrix Binary64)) :
    FailsPlainly (allProducts left right) := by
  unfold allProducts
  refine failsOnly_bind ?_ fun _ _ => failsOnly_ok _
  refine failsOnly_mapM fun a => failsOnly_mapM fun b => ?_
  unfold Matrix.multiply
  split
  · exact failsOnly_ok _
  · exact failsOnly_error rfl

theorem results_plain (components : List (List (Matrix Binary64))) (left right : Selection) :
    FailsPlainly (results components left right) := by
  unfold results
  split
  · refine failsOnly_bind (select_plain _ left 0) fun lefts _ => ?_
    exact failsOnly_bind (select_plain _ right 1) fun rights _ => allProducts_plain lefts rights
  · exact failsOnly_error rfl

end Product

/-! ### Instances -/

theorem Instance.concretize_plain (inst : Instance) (concrete : Descriptor) :
    FailsPlainly (inst.concretize concrete) := by
  cases inst with
  | product p => exact failsOnly_map (p.concretize_plain concrete)
  | carrier config => exact failsOnly_ok _

/-- Why a benchmark is not instantiated: its parameters are refused or missing, the bits of its tag
are reserved, or it is that of a byte carrier which was told to fail with a code. -/
theorem Benchmark.instantiate_failure {description : Description}
    {params : Option (List Param)} {failure : Failure}
    (h : instantiate description params = .error failure) :
    failure.isOfShape = true ∨ failure = .noParams ∨ (∃ tag, failure = .reservedTag tag) ∨
      ∃ config code, description.backend = .byteCarrier config ∧
        config.createFailsWith = some code ∧
        failure = .worded (.backend code) "mock create_benchmark failed" := by
  unfold instantiate at h
  cases hd : description.instantiate params with
  | ok inst =>
    rw [hd] at h
    have reserved : FailsOnly (fun failure => ∃ tag, failure = .reservedTag tag)
        (requireUnreserved inst.classTag >>= fun _ => .ok inst) :=
      failsOnly_bind (requireUnreserved_failure inst.classTag) fun _ _ => failsOnly_ok inst
    exact .inr (.inr (.inl (reserved failure h)))
  | error failure' =>
    rw [hd] at h
    obtain rfl : failure' = failure := Except.error.inj h
    unfold Description.instantiate at hd
    split at hd
    · split at hd
      · cases hd
        exact .inr (.inl rfl)
      · exact .inl (failsOnly_map (Product.ofParams_failure _ _) _ hd)
    · next config hb =>
      split at hd
      · next code hc =>
        cases hd
        exact .inr (.inr (.inr ⟨config, code, hb, hc, rfl⟩))
      · cases hd

end HandleBench
