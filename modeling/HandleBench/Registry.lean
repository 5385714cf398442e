import HandleBench.Backend
import HandleBench.NameTable

/-!
# Registration

What an engine knows is registered with it: names of schemes, names of security levels, texts of
error codes, and workloads. A name or text is refused if its number is taken; what was registered
before a refusal stays registered. A backend registers its names first and its workloads then.
-/

namespace HandleBench

/-- Everything that has been registered with an engine. -/
structure Registry where
  /-- The workloads, in the order of their handles. -/
  catalog : List Description
  /-- The names of schemes. -/
  schemes : NameTable
  /-- The names of security levels. -/
  securities : NameTable
  /-- The texts of error codes. -/
  errors : NameTable
  deriving DecidableEq

namespace Registry

/-- The error texts that every session has from the start. -/
def builtinErrors : NameTable :=
  ⟨[(ReturnCode.success, "Success"), (ReturnCode.invalidArgs, "Invalid argument."),
    (ReturnCode.critical, "Critical error.")]⟩

/-- Nothing but the error texts that are always there. -/
def initial : Registry := ⟨[], .empty, .empty, builtinErrors⟩

/-- One registration. -/
inductive Item where
  /-- The name of a scheme. -/
  | scheme (id : Int32) (name : String)
  /-- The name of a security level. -/
  | security (id : Int32) (name : String)
  /-- The text of an error code. -/
  | error (code : Int32) (text : String)
  /-- A workload. -/
  | workload (description : Description)

/-- The registry with one more registration. A number that is taken is refused, a workload never. -/
def add (r : Registry) : Item → Except Failure Registry
  | .scheme id name =>
    match r.schemes.insert? id name with
    | some schemes => .ok { r with schemes }
    | none => .error (.schemeTaken id)
  | .security id name =>
    match r.securities.insert? id name with
    | some securities => .ok { r with securities }
    | none => .error (.securityTaken id)
  | .error code text =>
    match r.errors.insert? code text with
    | some errors => .ok { r with errors }
    | none => .error (.codeTaken code)
  | .workload description => .ok { r with catalog := r.catalog ++ [description] }

/-- The registry after registrations one after the other, up to the first that is refused; what
came before it stays. -/
def addAll (r : Registry) : List Item → Except Failure Unit × Registry
  | [] => (.ok (), r)
  | item :: items =>
    match r.add item with
    | .ok r => r.addAll items
    | .error failure => (.error failure, r)

end Registry

namespace Backend

/-- The registrations of a backend that name things. -/
def names : Backend → List Registry.Item
  | matrixProduct => [.scheme 0 "Plain", .security 0 "None"]
  | byteCarrier config =>
    [.scheme 0 "Plain", .security 0 "None"] ++
      config.errorCodes.map fun (code, text) => .error code text

/-- The workloads of a backend. -/
def workloads : Backend → Except Failure (List Description)
  | matrixProduct => .ok [.latencyProduct, .offlineProduct]
  | byteCarrier config => do
    let description ←
      (Description.bare config.descriptor (.byteCarrier config)).addDefaultSets config.defaultSets
    return [description]

/-- The registry after the backend has registered its names and then its workloads. -/
def register (b : Backend) (r : Registry) : Except Failure Unit × Registry :=
  match r.addAll b.names with
  | (.error failure, r) => (.error failure, r)
  | (.ok (), r) =>
    match b.workloads with
    | .error failure => (.error failure, r)
    | .ok workloads => r.addAll (workloads.map .workload)

end Backend

end HandleBench
