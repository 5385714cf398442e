import HandleBench.Failure

/-!
# Descriptors

What a benchmark measures: the workload, the type of its data, the category of the measurement
with that category's parameters, and which operands are ciphertext under which scheme. A host
writes the enumerations as plain numbers; a descriptor from outside is *raw* until each of them has
been recognised. Descriptors become raw without loss, and exactly those raw ones that come from a
descriptor are recognised.
-/

namespace HandleBench

/-- The computation that a benchmark runs. -/
inductive Workload where
  /-- The product of two matrices. -/
  | matrixMultiply
  /-- The sum of two vectors, element by element. -/
  | eltwiseAdd
  /-- The product of two vectors, element by element. -/
  | eltwiseMultiply
  /-- The inner product of two vectors. -/
  | dotProduct
  /-- Logistic regression. -/
  | logisticRegression
  /-- Logistic regression by a polynomial of degree three. -/
  | logisticRegressionD3
  /-- Logistic regression by a polynomial of degree five. -/
  | logisticRegressionD5
  /-- Logistic regression by a polynomial of degree seven. -/
  | logisticRegressionD7
  /-- Any other computation. -/
  | generic
  deriving DecidableEq, Repr

namespace Workload

/-- Every workload, in the order of their codes. -/
def all : List Workload :=
  [matrixMultiply, eltwiseAdd, eltwiseMultiply, dotProduct, logisticRegression,
    logisticRegressionD3, logisticRegressionD5, logisticRegressionD7, generic]

/-- The number that stands for a workload. -/
def code : Workload → Int32
  | matrixMultiply => 0
  | eltwiseAdd => 1
  | eltwiseMultiply => 2
  | dotProduct => 3
  | logisticRegression => 4
  | logisticRegressionD3 => 5
  | logisticRegressionD5 => 6
  | logisticRegressionD7 => 7
  | generic => 8

/-- The short name of a workload. -/
def label : Workload → String
  | matrixMultiply => "MatrixMultiply"
  | eltwiseAdd => "EltwiseAdd"
  | eltwiseMultiply => "EltwiseMultiply"
  | dotProduct => "DotProduct"
  | logisticRegression => "LogisticRegression"
  | logisticRegressionD3 => "LogisticRegressionPolyD3"
  | logisticRegressionD5 => "LogisticRegressionPolyD5"
  | logisticRegressionD7 => "LogisticRegressionPolyD7"
  | generic => "Generic"

/-- The name of a workload in reports. -/
def title : Workload → String
  | matrixMultiply => "Matrix Multiplication"
  | eltwiseAdd => "Element-wise Vector Addition"
  | eltwiseMultiply => "Element-wise Vector Multiplication"
  | dotProduct => "Dot Product"
  | logisticRegression => "Logistic Regression"
  | logisticRegressionD3 => "Logistic Regression PolyD3"
  | logisticRegressionD5 => "Logistic Regression PolyD5"
  | logisticRegressionD7 => "Logistic Regression PolyD7"
  | generic => "Generic"

/-- The workload with the given number. -/
def ofCode (raw : Int32) : Except Failure Workload :=
  match all.find? (·.code == raw) with
  | some workload => .ok workload
  | none => .error (.unknownMember "Workload" raw)

/-- A number that is recognised is the code of what it is recognised as. -/
theorem code_of_ofCode {raw : Int32} {workload : Workload} (h : ofCode raw = .ok workload) :
    workload.code = raw := by
  unfold ofCode at h
  split at h
  · rename_i found
    obtain rfl := Except.ok.inj h
    simpa using List.find?_some found
  · cases h

end Workload

/-- The type of the elements that a workload computes on. -/
inductive DataType where
  /-- Signed 32-bit integers. -/
  | int32
  /-- Signed 64-bit integers. -/
  | int64
  /-- Single-precision numbers. -/
  | float32
  /-- Double-precision numbers. -/
  | float64
  deriving DecidableEq, Repr

namespace DataType

/-- Every data type, in the order of their codes. -/
def all : List DataType := [int32, int64, float32, float64]

/-- The number that stands for a data type. -/
def code : DataType → Int32
  | int32 => 0
  | int64 => 1
  | float32 => 2
  | float64 => 3

/-- The name of a data type. -/
def label : DataType → String
  | int32 => "Int32"
  | int64 => "Int64"
  | float32 => "Float32"
  | float64 => "Float64"

/-- The data type with the given number. -/
def ofCode (raw : Int32) : Except Failure DataType :=
  match all.find? (·.code == raw) with
  | some dataType => .ok dataType
  | none => .error (.unknownMember "DataType" raw)

/-- A number that is recognised is the code of what it is recognised as. -/
theorem code_of_ofCode {raw : Int32} {dataType : DataType} (h : ofCode raw = .ok dataType) :
    dataType.code = raw := by
  unfold ofCode at h
  split at h
  · rename_i found
    obtain rfl := Except.ok.inj h
    simpa using List.find?_some found
  · cases h

end DataType

/-- The way a benchmark feeds its samples. -/
inductive Category where
  /-- The same single sample is sent repeatedly. -/
  | latency
  /-- A whole dataset is loaded and processed in one operation. -/
  | offline
  deriving DecidableEq, Repr

namespace Category

/-- Every category, in the order of their codes. -/
def all : List Category := [latency, offline]

/-- The number that stands for a category. -/
def code : Category → Int32
  | latency => 0
  | offline => 1

/-- The name of a category. -/
def label : Category → String
  | latency => "Latency"
  | offline => "Offline"

/-- The category with the given number. -/
def ofCode (raw : Int32) : Except Failure Category :=
  match all.find? (·.code == raw) with
  | some category => .ok category
  | none => .error (.unknownMember "Category" raw)

/-- A number that is recognised is the code of what it is recognised as. -/
theorem code_of_ofCode {raw : Int32} {category : Category} (h : ofCode raw = .ok category) :
    category.code = raw := by
  unfold ofCode at h
  split at h
  · rename_i found
    obtain rfl := Except.ok.inj h
    simpa using List.find?_some found
  · cases h

end Category

/-- The greatest count of operands of an operation. -/
def maxOperands : Nat := 32

/-- The parameters of a category: 64 words whose meaning the category fixes. A latency benchmark
keeps its minimum test time and its count of warmups in the first two; an offline benchmark keeps a
sample count for each operand, where zero leaves the choice to the host. -/
structure CategoryParams where
  /-- The words. -/
  words : List UInt64
  /-- There are 64 of them. -/
  length_eq : words.length = 2 * maxOperands
  deriving DecidableEq, Repr

namespace CategoryParams

/-- The parameters whose first words are given, the others zero; of more than 64 words the
first 64. -/
def ofList (words : List UInt64) : CategoryParams :=
  ⟨(words ++ List.replicate (2 * maxOperands) 0).take (2 * maxOperands), by simp⟩

/-- All words zero. -/
def zeros : CategoryParams := ofList []

/-- The parameters of a latency benchmark. -/
def latency (minTestTimeMs warmups : UInt64) : CategoryParams := ofList [minTestTimeMs, warmups]

/-- The parameters of an offline benchmark; counts beyond the greatest operand are dropped. -/
def offline (counts : List UInt64) : CategoryParams := ofList (counts.take maxOperands)

/-- The word at an index; zero beyond the last. -/
def word (p : CategoryParams) (i : Nat) : UInt64 := p.words.getD i 0

/-- The least duration of a latency test, in milliseconds. -/
def minTestTimeMs (p : CategoryParams) : UInt64 := p.word 0

/-- The warmup iterations of a latency test. -/
def warmups (p : CategoryParams) : UInt64 := p.word 1

/-- The sample counts of an offline test, by operand. -/
def sampleCounts (p : CategoryParams) : List UInt64 := p.words.take maxOperands

end CategoryParams

/-- What a benchmark measures. -/
structure Descriptor where
  /-- The computation. -/
  workload : Workload
  /-- The type of its data. -/
  dataType : DataType
  /-- How samples are fed. -/
  category : Category
  /-- The parameters of the category. -/
  categoryParams : CategoryParams
  /-- Bit `i` is set if operand `i` is ciphertext. -/
  cipherMask : UInt32
  /-- The encryption scheme. -/
  scheme : Int32
  /-- The security level. -/
  security : Int32
  /-- A word that the backend uses as it likes. -/
  other : Int64
  deriving DecidableEq, Repr

/-- A descriptor as a host writes it, its enumerations not yet recognised. -/
structure RawDescriptor where
  /-- The number of the workload. -/
  workload : Int32
  /-- The number of the data type. -/
  dataType : Int32
  /-- The number of the category. -/
  category : Int32
  /-- The parameters of the category. -/
  categoryParams : CategoryParams
  /-- Bit `i` is set if operand `i` is ciphertext. -/
  cipherMask : UInt32
  /-- The encryption scheme. -/
  scheme : Int32
  /-- The security level. -/
  security : Int32
  /-- A word that the backend uses as it likes. -/
  other : Int64
  deriving DecidableEq, Repr

namespace Descriptor

/-- The product of two matrices in double precision, as a latency test in plaintext. -/
def plain : Descriptor where
  workload := .matrixMultiply
  dataType := .float64
  category := .latency
  categoryParams := .zeros
  cipherMask := 0
  scheme := 0
  security := 0
  other := 0

instance : Inhabited Descriptor := ⟨plain⟩

/-- The descriptor as a host reads it. -/
def raw (d : Descriptor) : RawDescriptor where
  workload := d.workload.code
  dataType := d.dataType.code
  category := d.category.code
  categoryParams := d.categoryParams
  cipherMask := d.cipherMask
  scheme := d.scheme
  security := d.security
  other := d.other

/-- The descriptor that a host has written; the workload is looked at first, then the data type,
then the category. -/
def ofRaw (r : RawDescriptor) : Except Failure Descriptor := do
  let workload ← Workload.ofCode r.workload
  let dataType ← DataType.ofCode r.dataType
  let category ← Category.ofCode r.category
  return {
    workload, dataType, category
    categoryParams := r.categoryParams
    cipherMask := r.cipherMask
    scheme := r.scheme
    security := r.security
    other := r.other }

/-- A descriptor comes back from its raw form. -/
theorem ofRaw_raw (d : Descriptor) : ofRaw d.raw = .ok d := by
  obtain ⟨w, t, c, _, _, _, _, _⟩ := d
  cases w <;> cases t <;> cases c <;> rfl

/-- A raw descriptor that is recognised is the raw form of what it is recognised as. -/
theorem raw_of_ofRaw {r : RawDescriptor} {d : Descriptor} (h : ofRaw r = .ok d) : d.raw = r := by
  unfold ofRaw at h
  cases hw : Workload.ofCode r.workload with
  | error => rw [hw] at h; cases h
  | ok w =>
    cases ht : DataType.ofCode r.dataType with
    | error => rw [hw, ht] at h; cases h
    | ok t =>
      cases hc : Category.ofCode r.category with
      | error => rw [hw, ht, hc] at h; cases h
      | ok c =>
        rw [hw, ht, hc] at h
        obtain rfl := Except.ok.inj h
        simp only [raw, Workload.code_of_ofCode hw, DataType.code_of_ofCode ht,
          Category.code_of_ofCode hc]

end Descriptor

end HandleBench
