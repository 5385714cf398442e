import HandleBench.Decimal.Parts

/-!
# Interchange values

Values of the interchange format of reports (JSON). A number is kept as it is written, because what
it is worth depends on who asks for it. A text is kept only if it is one: half of a surrogate pair
may be written, and does no harm where nobody reads it. Members of an object are in the order in
which they are written and may repeat a name.
-/

namespace HandleBench

/-- A value of the interchange format. -/
inductive Json where
  /-- The value `null`. -/
  | null
  /-- A truth value. -/
  | bool (value : Bool)
  /-- A number. -/
  | number (parts : Decimal.Parts)
  /-- A text, or nothing where half of a surrogate pair is written. -/
  | string (content : Option String)
  /-- Values in order. -/
  | array (elements : List Json)
  /-- Values by name, in order. -/
  | object (members : List (Option String × Json))
  deriving Repr, Inhabited

namespace Json

/-- A truth value. -/
def bool? : Json → Option Bool
  | bool value => some value
  | _ => none

/-- A text. -/
def string? : Json → Option String
  | string content => content
  | _ => none

/-- The members of a record: by name from an object, or by position from an array. -/
structure Record where
  /-- The members that are present, with their names. -/
  members : List (String × Json)
  /-- The members come from an object. -/
  byName : Bool

/-- The value as a record with the given names. An object must not repeat one of them, and other
names do not count unless the record is `closed`. An array lists the members in the order of the
names and must not be longer than they are. -/
def record? (names : List String) (closed : Bool) : Json → Option Record
  | object members => do
    let members ← members.mapM fun (name, value) => return (← name, value)
    let known := members.filter fun member => names.contains member.1
    if closed && known.length != members.length then none
    else if !(known.map (·.1)).Nodup then none
    else some ⟨known, true⟩
  | array elements =>
    if elements.length ≤ names.length then some ⟨names.zip elements, false⟩ else none
  | _ => none

namespace Record

variable {α : Type}

/-- A member that must be there. -/
def required (r : Record) (name : String) (read : Json → Option α) : Option α :=
  r.members.lookup name >>= read

/-- A member that may be `null`, or left out of an object. -/
def optional (r : Record) (name : String) (read : Json → Option α) : Option (Option α) :=
  match r.members.lookup name with
  | none => if r.byName then some none else none
  | some .null => some none
  | some value => (read value).map some

/-- A member that has a default when it is left out. -/
def defaulted (r : Record) (name : String) (default : α) (read : Json → Option α) : Option α :=
  match r.members.lookup name with
  | none => some default
  | some value => read value

end Record

end Json

end HandleBench
