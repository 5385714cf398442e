import HandleBench.Proofs.Descriptions
import HandleBench.Proofs.PipelineOrder
import Mathlib.Data.List.Induction

/-!
# Registrations

An engine has three tables of texts by number and a catalog. Whatever is registered with a new
engine in whatever order, with refusals in between: each table holds for each number the first text
that was asked for, and the catalog holds all workloads in their order, duplicates included,
`Registry.records_keepAll`. So what a lookup gives is settled by the list of registrations alone,
and a registration is refused exactly if its own table has the number: `Engine.RegistrationLaw`. The
table of error texts lives in the session of the engine and is not empty at the start.
-/

namespace HandleBench

/-- After a registration its number has the text that it had before, or else the new one. -/
theorem NameTable.find?_insert?_getD (t : NameTable) (id : Int32) (text : String) (i : Int32) :
    ((t.insert? id text).getD t).find? i =
      (t.find? i).or (if i = id then some text else none) := by
  cases hu : t.insert? id text with
  | none =>
    have htaken := insert?_eq_none_iff.1 hu
    rw [Option.getD_none]
    split
    · next hi =>
      subst hi
      rw [Option.or_of_isSome htaken]
    · rw [Option.or_none]
  | some u =>
    have hfree : t.find? id = none := by
      have hne : t.insert? id text ≠ none := by
        rw [hu]
        simp
      rwa [Ne, insert?_eq_none_iff, Option.not_isSome_iff_eq_none] at hne
    rw [Option.getD_some, find?_insert? hu]
    split
    · next hi =>
      subst hi
      rw [hfree, Option.none_or]
    · rw [Option.or_none]

/-- What comes last in an array can be changed. -/
theorem Array.modify_push_size {α : Type} (xs : Array α) (x : α) (f : α → α) :
    (xs.push x).modify xs.size f = xs.push (f x) := by
  apply Array.ext_getElem?
  intro i
  rw [Array.getElem?_modify, Array.getElem?_push, Array.getElem?_push]
  by_cases hi : i = xs.size
  · simp [hi]
  · simp [hi, Ne.symm hi]

theorem Array.setIfInBounds_push_size {α : Type} (xs : Array α) (x y : α) :
    (xs.push x).setIfInBounds xs.size y = xs.push y := by
  apply Array.ext_getElem?
  intro i
  rw [Array.getElem?_setIfInBounds, Array.getElem?_push, Array.getElem?_push]
  by_cases hi : i = xs.size
  · simp [hi]
  · simp [hi, Ne.symm hi]

namespace Registry

/-- The tables of texts by number. -/
inductive Table where
  /-- The names of schemes. -/
  | schemes
  /-- The names of security levels. -/
  | securities
  /-- The texts of error codes. -/
  | errors
  deriving DecidableEq, Repr

/-- What a table holds before anything is registered. -/
def Table.seed : Table → List (Int32 × String)
  | schemes | securities => []
  | errors => builtinErrors.rows

/-- One of the tables of a registry. -/
def table (r : Registry) : Table → NameTable
  | .schemes => r.schemes
  | .securities => r.securities
  | .errors => r.errors

/-- The number and the text that a registration asks a table to hold. -/
def Item.row? : Item → Table → Option (Int32 × String)
  | scheme id name, .schemes => some (id, name)
  | security id name, .securities => some (id, name)
  | error code text, .errors => some (code, text)
  | _, _ => none

/-- The workload that is registered. -/
def Item.workload? : Item → Option Description
  | workload description => some description
  | _ => none

/-- The registry with other texts in one of its tables. -/
def withTable (r : Registry) (t : Table) (texts : NameTable) : Registry :=
  match t with
  | .schemes => { r with schemes := texts }
  | .securities => { r with securities := texts }
  | .errors => { r with errors := texts }

/-- The failure of a registration whose number is taken. -/
def Table.taken : Table → Int32 → Failure
  | schemes, id => .schemeTaken id
  | securities, id => .securityTaken id
  | errors, code => .codeTaken code

/-- The text that a table was first asked to hold for a number. -/
def first (t : Table) (items : List Item) (id : Int32) : Option String :=
  (t.seed ++ items.filterMap (·.row? t)).lookup id

/-- The number of the registration was registered before, in the same table. -/
def Item.Taken (item : Item) (items : List Item) : Prop :=
  ∃ t id text, item.row? t = some (id, text) ∧ (first t items id).isSome

/-- The registry after one registration, the same as before if it is refused. -/
def keep (r : Registry) (item : Item) : Registry :=
  match r.add item with
  | .ok after => after
  | .error _ => r

/-- The registry after registrations one after the other, of which some may be refused. -/
def keepAll (r : Registry) (items : List Item) : Registry := items.foldl keep r

/-! ### One registration -/

variable {r : Registry} {items : List Item} {item : Item}

@[simp] theorem table_withTable (r : Registry) (t : Table) (texts : NameTable) (t' : Table) :
    (r.withTable t texts).table t' = if t' = t then texts else r.table t' := by
  cases t <;> cases t' <;> rfl

@[simp] theorem catalog_withTable (r : Registry) (t : Table) (texts : NameTable) :
    (r.withTable t texts).catalog = r.catalog := by
  cases t <;> rfl

theorem Table.kind_taken (t : Table) (id : Int32) : (t.taken id).kind = .critical := by
  cases t <;> rfl

/-- A registration is that of a workload, or it asks one table to hold one text. -/
theorem add_cases (r : Registry) (item : Item) : (∃ description, item = .workload description) ∨
    ∃ t id text, (∀ t', item.row? t' = if t' = t then some (id, text) else none) ∧
      item.workload? = none ∧ r.add item = match (r.table t).insert? id text with
        | some texts => .ok (r.withTable t texts)
        | none => .error (t.taken id) := by
  cases item with
  | workload description => exact .inl ⟨description, rfl⟩
  | scheme id text =>
    exact .inr ⟨.schemes, id, text, fun t' => (by cases t' <;> rfl), rfl, rfl⟩
  | security id text =>
    exact .inr ⟨.securities, id, text, fun t' => (by cases t' <;> rfl), rfl, rfl⟩
  | error code text =>
    exact .inr ⟨.errors, code, text, fun t' => (by cases t' <;> rfl), rfl, rfl⟩

/-- A registration is refused as critical only. -/
theorem add_critical (r : Registry) (item : Item) : FailsCritically (r.add item) := by
  obtain ⟨description, rfl⟩ | ⟨t, id, text, -, -, hadd⟩ := r.add_cases item
  · exact failsOnly_ok _
  · rw [hadd]
    cases (r.table t).insert? id text with
    | some texts => exact failsOnly_ok _
    | none => exact failsOnly_error (t.kind_taken id)

/-- A registration is done unless its table has the number. -/
theorem exists_add_iff : (∃ after, r.add item = .ok after) ↔
    ∀ t id text, item.row? t = some (id, text) → (r.table t).find? id = none := by
  obtain ⟨description, rfl⟩ | ⟨t, id, text, hrow, -, hadd⟩ := r.add_cases item
  · exact ⟨fun _ t _ _ hrow => (by cases t <;> cases hrow), fun _ => ⟨_, rfl⟩⟩
  · have hrows : (∀ t' id' text', item.row? t' = some (id', text') →
        (r.table t').find? id' = none) ↔ (r.table t).find? id = none := by
      refine ⟨fun h => h t id text (by rw [hrow, if_pos rfl]), fun h t' id' text' hrow' => ?_⟩
      rw [hrow] at hrow'
      split at hrow'
      · next ht =>
        subst ht
        cases hrow'
        exact h
      · cases hrow'
    have hfree : (r.table t).find? id = none ↔ (r.table t).insert? id text ≠ none := by
      rw [Ne, NameTable.insert?_eq_none_iff, Option.not_isSome_iff_eq_none]
    rw [hadd, hrows, hfree]
    cases (r.table t).insert? id text <;> simp

/-- It changes its own table, unless the number is taken, and no other. -/
theorem table_keep (r : Registry) (item : Item) (t : Table) :
    (r.keep item).table t = match item.row? t with
      | some (id, text) => ((r.table t).insert? id text).getD (r.table t)
      | none => r.table t := by
  obtain ⟨description, rfl⟩ | ⟨t', id, text, hrow, -, hadd⟩ := r.add_cases item
  · cases t <;> rfl
  · rw [keep, hadd, hrow]
    by_cases ht : t = t'
    · subst ht
      simp only [if_true]
      cases (r.table t).insert? id text <;> simp
    · cases (r.table t').insert? id text <;> simp [ht]

theorem catalog_keep (r : Registry) (item : Item) :
    (r.keep item).catalog = r.catalog ++ item.workload?.toList := by
  obtain ⟨description, rfl⟩ | ⟨t, id, text, -, hworkload, hadd⟩ := r.add_cases item
  · rfl
  · rw [keep, hadd, hworkload]
    cases (r.table t).insert? id text <;> simp

/-! ### What a registry holds -/

/-- The registry holds what the registrations have asked for. -/
structure Records (r : Registry) (items : List Item) : Prop where
  /-- For each number a table has the text that was asked for first. -/
  texts : ∀ t id, (r.table t).find? id = first t items id
  /-- The catalog has all workloads in their order. -/
  catalog : r.catalog = items.filterMap (·.workload?)

theorem first_concat (t : Table) (items : List Item) (item : Item) (id : Int32) :
    first t (items ++ [item]) id = (first t items id).or
      ((item.row? t).bind fun (number, text) => if id = number then some text else none) := by
  unfold first
  rw [List.filterMap_append, ← List.append_assoc, List.lookup_append]
  cases hrow : item.row? t with
  | none => simp [hrow]
  | some row =>
    obtain ⟨number, text⟩ := row
    simp only [List.filterMap_cons, hrow, List.filterMap_nil, List.lookup_cons, List.lookup_nil]
    by_cases hi : id = number
    · simp [hi]
    · have hne : (id == number) = false := beq_eq_false_iff_ne.2 hi
      simp [hi, hne]

theorem isSome_first_nil (t : Table) (id : Int32) : (first t [] id).isSome ↔
    t = .errors ∧ (id = 0 ∨ id = 0x7FFFFFFE ∨ id = 0x7FFFFFFF) := by
  unfold first
  cases t with
  | schemes | securities => simp [Table.seed]
  | errors =>
    simp [Table.seed, builtinErrors, ReturnCode.success, ReturnCode.invalidArgs,
      ReturnCode.critical]

theorem Records.keep (h : r.Records items) (item : Item) :
    (r.keep item).Records (items ++ [item]) := by
  constructor
  case texts =>
    intro t id
    rw [table_keep, first_concat, ← h.texts]
    cases item.row? t with
    | none => simp
    | some row => exact NameTable.find?_insert?_getD _ _ _ _
  case catalog =>
    rw [catalog_keep, h.catalog, List.filterMap_append]
    cases hw : item.workload? <;> simp [hw]

/-- Registered one after the other from the start on, all are recorded. -/
theorem records_keepAll (items : List Item) : (initial.keepAll items).Records items := by
  induction items using List.reverseRecOn with
  | nil =>
    constructor
    case texts =>
      intro t id
      cases t <;> rfl
    case catalog => rfl
  | append_singleton items item ih =>
    rw [keepAll, List.foldl_append]
    exact ih.keep item

-- zero is taken among the error texts from the start, which is nothing to the schemes
example : ((initial.keepAll [.error 0 "None", .scheme 0 "Plain", .scheme 0 "Other"]).table
    .errors).find? 0 = some "Success" ∧
    (initial.keepAll [.error 0 "None", .scheme 0 "Plain", .scheme 0 "Other"]).table .schemes =
      ⟨[(0, "Plain")]⟩ := by decide

end Registry

/-! ### Registrations with an engine -/

/-- The world with a new engine that knows what has been registered. -/
def World.withEngine (w : World) (settings : EngineSettings) (r : Registry) : World :=
  { w with
    sessions := w.sessions.push ⟨⟨.success, "Success"⟩, r.errors, 0⟩
    cells := w.cells.push
      (.engine ⟨w.sessions.size, settings, r.catalog, r.schemes, r.securities⟩) }

namespace Engine

variable {w : World} {settings : EngineSettings} {r : Registry} {items : List Registry.Item}

/-- Registers one thing more with the engine that a handle stands for. -/
def registerBy (h : Handle) (item : Registry.Item) : Act World Unit := do
  let (address, e) ← resolve h
  e.register address item

/-- The world after registrations one after the other, of which some may be refused. -/
def afterAll (h : Handle) (items : List Registry.Item) (w : World) : World :=
  items.foldl (fun w item => (registerBy h item w).2) w

/-- The handle of the next engine. -/
def nextHandle (w : World) : Handle := ⟨.cell w.cells.size, 0, .engine⟩

theorem make_eq (w : World) (settings : EngineSettings) (r : Registry) :
    make settings r w = (.ok (nextHandle w), w.withEngine settings r) := rfl

theorem found_withEngine : Found (w.withEngine settings r) (nextHandle w)
    (w.cells.size, ⟨w.sessions.size, settings, r.catalog, r.schemes, r.securities⟩) :=
  ⟨rfl, Array.getElem?_push_size, rfl⟩

/-- The world in which the new engine knows more, if that has been accepted. -/
def outcome (w : World) (settings : EngineSettings) (r : Registry) :
    Except Failure Registry → Except Stop Unit × World
  | .ok after => (.ok (), w.withEngine settings after)
  | .error failure => (.error (.refused failure), w.withEngine settings r)

theorem addErrorText_withEngine (code : Int32) (text : String) :
    World.addErrorText w.sessions.size code text (w.withEngine settings r) =
      outcome w settings r (r.add (.error code text)) := by
  have hsession : (w.withEngine settings r).sessions[w.sessions.size]? =
      some ⟨⟨.success, "Success"⟩, r.errors, 0⟩ := Array.getElem?_push_size
  rw [World.addErrorText, hsession, Registry.add, Option.bind_some]
  cases r.errors.insert? code text with
  | none => rfl
  | some errors =>
    simp only [outcome, World.changeSession, World.withEngine, Array.modify_push_size]

/-- The cell of the new engine is replaced, its session stays. -/
theorem set_withEngine (w : World) (settings : EngineSettings) (r after : Registry) :
    { w.withEngine settings r with
      cells := (w.withEngine settings r).cells.setIfInBounds w.cells.size (.engine
        ⟨w.sessions.size, settings, after.catalog, after.schemes, after.securities⟩) } =
      w.withEngine settings { after with errors := r.errors } := by
  simp only [World.withEngine, Array.setIfInBounds_push_size]

/-- Registering with the engine is registering, and its session has the texts of error codes. -/
theorem registerBy_eq (w : World) (settings : EngineSettings) (r : Registry)
    (item : Registry.Item) :
    registerBy (nextHandle w) item (w.withEngine settings r) =
      outcome w settings r (r.add item) := by
  have done := fun after => congrArg (Prod.mk (.ok () : Except Stop Unit))
    (set_withEngine w settings r after)
  rw [registerBy, Act.bind_of_ok (resolve_eq_ok found_withEngine)]
  cases item with
  | error code text => exact addErrorText_withEngine code text
  | workload description =>
    exact done ⟨r.catalog ++ [description], r.schemes, r.securities, .empty⟩
  | scheme id name =>
    unfold register Registry.add
    dsimp only
    cases r.schemes.insert? id name with
    | none => rfl
    | some schemes => exact done ⟨r.catalog, schemes, r.securities, .empty⟩
  | security id name =>
    unfold register Registry.add
    dsimp only
    cases r.securities.insert? id name with
    | none => rfl
    | some securities => exact done ⟨r.catalog, r.schemes, securities, .empty⟩

theorem registerBy_keep (w : World) (settings : EngineSettings) (r : Registry)
    (item : Registry.Item) :
    (registerBy (nextHandle w) item (w.withEngine settings r)).2 =
      w.withEngine settings (r.keep item) := by
  rw [registerBy_eq, Registry.keep]
  cases r.add item <;> rfl

/-- The registrations may as well be collected before the engine is made. -/
theorem afterAll_eq (w : World) (settings : EngineSettings) (r : Registry)
    (items : List Registry.Item) :
    afterAll (nextHandle w) items (w.withEngine settings r) =
      w.withEngine settings (r.keepAll items) := by
  induction items generalizing r with
  | nil => rfl
  | cons item items ih =>
    rw [afterAll, List.foldl_cons, registerBy_keep]
    exact ih (r.keep item)

/-! ### What the engine answers -/

/-- The answer is what has been found. If that is nothing, it is a failure with the given code. -/
def Finds {α : Type} (answer : Except Failure α) (found : Option α) (code : ReturnCode) : Prop :=
  match found with
  | some a => answer = .ok a
  | none => ∃ failure, answer = .error failure ∧ failure.code = code

/-- An engine and its session answer as the registrations say. -/
structure Answers (e : Engine) (s : Session) (items : List Registry.Item) : Prop where
  /-- The name of a scheme is the first one that was registered. -/
  schemes : ∀ id, Finds (e.schemeName id) (Registry.first .schemes items id) .invalidArgs
  /-- So is that of a security level. -/
  securities : ∀ id, Finds (e.securityName id) (Registry.first .securities items id) .invalidArgs
  /-- The text of an error code is the first one, or the one for unknown codes. -/
  errors : ∀ code, s.errorText code = (Registry.first .errors items code).getD "Unknown Error"
  /-- The handle of a catalog entry stands for the workload that was registered at its place. -/
  entries : ∀ k : UInt64, Finds (e.find (.descriptor k.toNat))
    (items.filterMap (·.workload?))[k.toNat]? .critical

/-- What registrations with a new engine have come to. -/
structure RegistrationLaw (h : Handle) (w : World) (items : List Registry.Item) : Prop where
  /-- The engine is there, with its session, and they answer as the registrations say. The texts of
  error codes can be registered through the session as well. -/
  answers : ∃ address e s, resolve h w = (.ok (address, e), w) ∧
    w.sessions[e.session]? = some s ∧ e.Answers s items ∧
    ∀ code text, World.addErrorText e.session code text w = registerBy h (.error code text) w
  /-- From the start on the table of error texts has three codes, and the others are empty. -/
  seeded : ∀ t id, (Registry.first t [] id).isSome ↔
    t = .errors ∧ (id = 0 ∨ id = 0x7FFFFFFE ∨ id = 0x7FFFFFFF)
  /-- One more registration is refused if its own table has the number, and then nothing has
  changed. Otherwise it is done. -/
  next : ∀ item, (registerBy h item).Gated w (¬ item.Taken items)

theorem finds_schemeName (e : Engine) (id : Int32) :
    Finds (e.schemeName id) (e.schemes.find? id) .invalidArgs := by
  unfold schemeName
  cases e.schemes.find? id with
  | some name => rfl
  | none => exact ⟨_, rfl, rfl⟩

theorem finds_securityName (e : Engine) (id : Int32) :
    Finds (e.securityName id) (e.securities.find? id) .invalidArgs := by
  unfold securityName
  cases e.securities.find? id with
  | some name => rfl
  | none => exact ⟨_, rfl, rfl⟩

theorem finds_entry (e : Engine) (k : UInt64) :
    Finds (e.find (.descriptor k.toNat)) e.catalog[k.toNat]? .critical := by
  rw [find_descriptor_eq]
  cases e.catalog[k.toNat]? with
  | some description => rfl
  | none => exact ⟨_, rfl, rfl⟩

theorem answers_of_records (h : r.Records items) :
    Answers ⟨w.sessions.size, settings, r.catalog, r.schemes, r.securities⟩
      ⟨⟨.success, "Success"⟩, r.errors, 0⟩ items where
  schemes id := by
    rw [← h.texts]
    exact finds_schemeName _ id
  securities id := by
    rw [← h.texts]
    exact finds_securityName _ id
  errors code := by
    rw [← h.texts]
    rfl
  entries k := by
    rw [← h.catalog]
    exact finds_entry _ k

/-- One more registration is refused exactly if its own table has the number. -/
theorem registerBy_gated (h : r.Records items) (item : Registry.Item) :
    (registerBy (nextHandle w) item).Gated (w.withEngine settings r) (¬ item.Taken items) := by
  have hact := registerBy_eq w settings r item
  have hgated : (registerBy (nextHandle w) item).Gated (w.withEngine settings r)
      (∃ after, r.add item = .ok after) := by
    refine Act.gated_of_except (fun after hadd => ?_) (fun failure hadd => ?_)
      (r.add_critical item)
    · exact ⟨(), w.withEngine settings after, by rw [hact, hadd]; rfl⟩
    · rw [hact, hadd]
      rfl
  refine hgated.of_iff (Registry.exists_add_iff.trans ⟨?_, fun hn t id text hrow => ?_⟩)
  · rintro hfree ⟨t, id, text, hrow, htaken⟩
    rw [← h.texts, hfree t id text hrow] at htaken
    cases htaken
  · rw [h.texts, ← Option.not_isSome_iff_eq_none]
    exact fun htaken => hn ⟨t, id, text, hrow, htaken⟩

/-- **Registrations never overwrite.** Whatever is registered with a new engine in a world, the
first text of each number and every workload stay, and a refusal changes nothing. An engine that is
made of the registrations collected before is the same. -/
theorem registrationLaw (w : World) (settings : EngineSettings) (items : List Registry.Item) :
    ∃ h made, make settings .initial w = (.ok h, made) ∧
      RegistrationLaw h (afterAll h items made) items ∧
      make settings (Registry.initial.keepAll items) w = (.ok h, afterAll h items made) := by
  have hrecords := Registry.records_keepAll items
  refine ⟨nextHandle w, _, make_eq w settings .initial, ?_⟩
  rw [afterAll_eq]
  refine ⟨⟨?_, Registry.isSome_first_nil, registerBy_gated hrecords⟩, make_eq w settings _⟩
  refine ⟨_, _, _, resolve_eq_ok found_withEngine, Array.getElem?_push_size,
    answers_of_records hrecords, fun code text => ?_⟩
  rw [registerBy_eq]
  exact addErrorText_withEngine code text

end Engine

end HandleBench
