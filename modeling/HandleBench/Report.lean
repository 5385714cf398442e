import HandleBench.Settings.Run
import HandleBench.Timing

/-!
# Reports

The record of one run: what was run, how long it took, whether the results were right, and on what
host. The parameters of the workload are kept by name, sorted, and a name has one value: of two
parameters of one name the later one stays.
-/

namespace HandleBench

/-- Values by name, in the order of the names. -/
structure NamedValues where
  /-- The names with their values. -/
  rows : List (String × UInt64)
  /-- The names are in order, and each has one value. -/
  sorted : rows.Pairwise fun a b => a.1 < b.1
  deriving DecidableEq, Repr

namespace NamedValues

/-- Nothing. -/
def empty : NamedValues := ⟨[], .nil⟩

/-- Sorted rows with one more, or with the value of its name replaced. -/
def putRow (name : String) (value : UInt64) : List (String × UInt64) → List (String × UInt64)
  | [] => [(name, value)]
  | row :: rows =>
    if name < row.1 then (name, value) :: row :: rows
    else if name = row.1 then (name, value) :: rows
    else row :: putRow name value rows

/-- The rows afterwards are the new one and some of those before. -/
theorem eq_or_mem_of_mem_putRow {name : String} {value : UInt64} {row : String × UInt64}
    {rows : List (String × UInt64)} (h : row ∈ putRow name value rows) :
    row = (name, value) ∨ row ∈ rows := by
  induction rows with
  | nil => simpa [putRow] using h
  | cons first rows ih =>
    simp only [putRow] at h
    split at h
    · simpa using h
    · split at h
      · rcases List.mem_cons.mp h with hnew | hold
        · exact .inl hnew
        · exact .inr (List.mem_cons_of_mem _ hold)
      · rcases List.mem_cons.mp h with hfirst | hlater
        · exact .inr (hfirst ▸ List.mem_cons_self)
        · exact (ih hlater).imp_right (List.mem_cons_of_mem _)

/-- Rows in order stay in order. -/
theorem pairwise_putRow (name : String) (value : UInt64) {rows : List (String × UInt64)}
    (h : rows.Pairwise fun a b => a.1 < b.1) :
    (putRow name value rows).Pairwise fun a b => a.1 < b.1 := by
  induction rows with
  | nil => simp [putRow]
  | cons first rows ih =>
    obtain ⟨hfirst, hrows⟩ := List.pairwise_cons.mp h
    simp only [putRow]
    split
    case isTrue hless =>
      refine List.pairwise_cons.mpr ⟨fun row hrow => ?_, h⟩
      cases hrow with
      | head => exact hless
      | tail _ hrow => exact String.lt_trans hless (hfirst row hrow)
    case isFalse hless =>
      split
      case isTrue heq => exact List.pairwise_cons.mpr ⟨heq ▸ hfirst, hrows⟩
      case isFalse hne =>
        refine List.pairwise_cons.mpr ⟨fun row hrow => ?_, ih hrows⟩
        rcases eq_or_mem_of_mem_putRow hrow with rfl | hold
        · exact String.not_le.mp fun hle => hne (String.le_antisymm hle (String.not_lt.mp hless))
        · exact hfirst row hold

/-- The values with one more, or with the value of its name replaced. -/
def put (values : NamedValues) (name : String) (value : UInt64) : NamedValues :=
  ⟨putRow name value values.rows, pairwise_putRow name value values.sorted⟩

/-- The values of a list, the later ones staying. -/
def ofList (rows : List (String × UInt64)) : NamedValues :=
  rows.foldl (fun values row => values.put row.1 row.2) empty

/-- The value of a name. -/
def find? (values : NamedValues) (name : String) : Option UInt64 := values.rows.lookup name

end NamedValues

/-- The outcome of comparing results with a reference. -/
structure Verification where
  /-- The results are as expected. -/
  passed : Bool
  /-- The count of results. -/
  samples : UInt64
  /-- The greatest difference between an entry and the expected one. -/
  maxError : Binary64
  deriving DecidableEq, Repr

/-- What is known of a host. -/
structure HostInfo where
  /-- The model of its processor. -/
  processor : Option String
  /-- The count of its cores. -/
  cores : Option UInt32
  /-- The octets of its memory. -/
  memory : Option UInt64
  /-- Its operating system. -/
  system : String
  /-- Its architecture. -/
  architecture : String
  /-- Its name. -/
  name : Option String
  deriving DecidableEq, Repr

/-- The record of one run. -/
structure Report where
  /-- The version of the record's layout. -/
  layoutVersion : UInt32
  /-- When the run was reported. -/
  timestamp : String
  /-- The name of the backend. -/
  backendName : String
  /-- The version of the backend. -/
  backendVersion : Option String
  /-- The workload. -/
  workload : String
  /-- The category. -/
  category : String
  /-- The encryption scheme. -/
  scheme : String
  /-- The security level. -/
  security : String
  /-- What the backend adds to the name of the workload. -/
  description : String
  /-- The parameters of the workload. -/
  params : NamedValues
  /-- The settings of the run. -/
  settings : RunSettings
  /-- The times of the benchmarked step. -/
  timing : Timing
  /-- The outcome of the comparison. -/
  verification : Verification
  /-- The host. -/
  host : HostInfo
  deriving DecidableEq, Repr

/-- The version of the layout that new records have. -/
def Report.currentLayout : UInt32 := 1

end HandleBench
