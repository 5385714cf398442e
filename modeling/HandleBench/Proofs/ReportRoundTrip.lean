import HandleBench.Proofs.Encodings
import HandleBench.Proofs.WrittenValues
import HandleBench.Program

/-!
# Reports are read back

A report is written as an object, the object as a text, and the text as the octets of a file; each
step is undone by reading (`Report.ofJson?_toJson`, `Json.read?_write`, `Text.Utf8.decode_encode`).
The first of them is where writer and reader have to agree fact by fact. Both go by the names of the
members: the writer lists some of the names that the reader expects, in their order
(`HostInfo.sublist_names` and its likes), which makes its object a record
(`Json.record?_ofMembers`). From there a fact that is always written is found by its name
(`Json.Record.required_of_mem`), and one that may be left out is found or missed as it was known or
not (`Json.Record.optional_of_lookup`).

What a written number is worth is a parameter. Nothing is asked of it but that it is finite and that
the numbers of the report come back from how they are written. The main result is
`Report.round_trip`.
-/

namespace HandleBench

/-! ### Objects as records -/

namespace Json

theorem proper_ofMembers {members : List (String × Json)} (h : ∀ m ∈ members, Proper m.2) :
    Proper (ofMembers members) := by
  refine .object (fun m hm => ?_) (fun m hm => ?_)
  · obtain ⟨_, _, rfl⟩ := List.mem_map.mp hm
    rfl
  · obtain ⟨_, hmem, rfl⟩ := List.mem_map.mp hm
    exact h _ hmem

/-- The members of an object are a record if their names are some of the expected ones, in order. -/
theorem record?_ofMembers {members : List (String × Json)} {names : List String}
    (hnames : (members.map (·.1)).Sublist names) (hnodup : names.Nodup) (closed : Bool) :
    (ofMembers members).record? names closed = some ⟨members, true⟩ := by
  have hknown : (members.filter fun member => names.contains member.1) = members := by
    refine List.filter_eq_self.mpr fun m hm => ?_
    rw [List.contains_iff_mem]
    exact hnames.subset (List.mem_map_of_mem hm)
  have honce : ((members.map (·.1)).Nodup) := hnames.nodup hnodup
  rw [ofMembers, record?, mapM_map_eq_some (by intro; rfl)]
  simp only [Option.bind_eq_bind, Option.bind_some, hknown, bne_self_eq_false, Bool.and_false,
    Bool.false_eq_true, if_false, honce, decide_true, Bool.not_true]

namespace Record

variable {α : Type} {r : Record} {name : String} {read : Json → Option α}

/-- A member of a record whose names do not repeat is the one that its name finds. -/
theorem required_of_mem {members : List (String × Json)} (hnames : (members.map (·.1)).Nodup)
    (value : Json) (h : (name, value) ∈ members) :
    Record.required ⟨members, true⟩ name read = read value := by
  have hlookup : members.lookup name = some value := by
    obtain ⟨before, after, rfl⟩ := List.append_of_mem h
    refine List.lookup_eq_some_iff.mpr ⟨before, after, rfl, fun m hm => bne_iff_ne.mpr ?_⟩
    rw [List.map_append, List.map_cons, List.nodup_append] at hnames
    exact (hnames.2.2 m.1 (List.mem_map_of_mem hm) name List.mem_cons_self).symm
  rw [required, hlookup]
  rfl

/-- A member that is left out when its value is not known is read back. -/
theorem optional_of_lookup (write : α → Json) {value : Option α} (hr : r.byName = true)
    (h : r.members.lookup name = value.map write) (hnull : read .null = none)
    (hread : ∀ v ∈ value, read (write v) = some v) : r.optional name read = some value := by
  rw [optional, h]
  cases value with
  | none => simp [hr]
  | some v =>
    have hv := hread v rfl
    rw [Option.map_some]
    split
    case h_1 heq => cases heq
    case h_2 heq =>
      rw [Option.some.inj heq, hnull] at hv
      cases hv
    case h_3 heq => rw [← Option.some.inj heq, hv, Option.map_some]

end Record

section OptionalMembers

variable {α : Type} (name : String) (write : α → Json) (value : Option α)

@[simp] theorem lookup_optionalMember (sought : String) :
    (optionalMember name write value).lookup sought =
      if sought == name then value.map write else none := by
  cases value with
  | none => simp [optionalMember]
  | some v => cases h : sought == name <;> simp [optionalMember, List.lookup_cons, h]

theorem sublist_optionalMember :
    ((optionalMember name write value).map (·.1)).Sublist [name] := by
  cases value with
  | none => exact List.nil_sublist _
  | some v => exact List.Sublist.refl _

end OptionalMembers

end Json

/-! ### The parts of a report -/

open Json (ofBinary64 ofNat ofString ofMembers optionalMember)
open Json.Record (required_of_mem optional_of_lookup)

namespace RunSettings

variable (s : RunSettings)

theorem ofRecord?_members : ofRecord? ⟨s.members, true⟩ = some s := by
  simp [ofRecord?, members, Json.Record.defaulted, List.lookup_cons, Json.word64?_ofNat,
    Json.word32?_ofNat]

/-- **Settings are read back.** -/
theorem ofJson?_toJson : ofJson? s.toJson = some s := by
  have hnames : (s.members.map (·.1)).Sublist names := .refl names
  rw [ofJson?, toJson, Json.record?_ofMembers hnames (by decide)]
  exact s.ofRecord?_members

end RunSettings

namespace HostInfo

variable (h : HostInfo)

theorem sublist_names : (h.members.map (·.1)).Sublist names := by
  simp only [members, List.map_append]
  exact ((((Json.sublist_optionalMember ..).append (Json.sublist_optionalMember ..)).append
    (Json.sublist_optionalMember ..)).append (.refl ["os", "arch"])).append
      (Json.sublist_optionalMember ..)

theorem ofRecord?_members : ofRecord? ⟨h.members, true⟩ = some h := by
  have hnodup := h.sublist_names.nodup (by decide)
  have hprocessor : Json.Record.optional ⟨h.members, true⟩ "cpu_model" Json.string? =
      some h.processor :=
    optional_of_lookup ofString rfl (by simp [members, List.lookup_append, List.lookup_cons]) rfl
      fun _ _ => rfl
  have hcores : Json.Record.optional ⟨h.members, true⟩ "cpu_cores" Json.word32? = some h.cores :=
    optional_of_lookup (fun n => ofNat n.toNat) rfl
      (by simp [members, List.lookup_append, List.lookup_cons]) rfl fun n _ => Json.word32?_ofNat n
  have hmemory : Json.Record.optional ⟨h.members, true⟩ "total_ram_bytes" Json.word64? =
      some h.memory :=
    optional_of_lookup (fun n => ofNat n.toNat) rfl
      (by simp [members, List.lookup_append, List.lookup_cons]) rfl fun n _ => Json.word64?_ofNat n
  have hsystem : Json.Record.required ⟨h.members, true⟩ "os" Json.string? = some h.system :=
    required_of_mem hnodup (ofString h.system) (by simp [members])
  have harchitecture : Json.Record.required ⟨h.members, true⟩ "arch" Json.string? =
      some h.architecture :=
    required_of_mem hnodup (ofString h.architecture) (by simp [members])
  have hname : Json.Record.optional ⟨h.members, true⟩ "hostname" Json.string? = some h.name :=
    optional_of_lookup ofString rfl (by simp [members, List.lookup_append, List.lookup_cons]) rfl
      fun _ _ => rfl
  simp only [ofRecord?, hprocessor, hcores, hmemory, hsystem, harchitecture, hname]
  rfl

/-- **What is known of a host is read back.** -/
theorem ofJson?_toJson : ofJson? h.toJson = some h := by
  rw [ofJson?, toJson, Json.record?_ofMembers h.sublist_names (by decide)]
  exact h.ofRecord?_members

end HostInfo

namespace NamedValues

/-- A name behind all others goes to the end. -/
theorem putRow_append {name : String} (value : UInt64) {rows : List (String × UInt64)}
    (h : ∀ row ∈ rows, row.1 < name) : putRow name value rows = rows ++ [(name, value)] := by
  induction rows with
  | nil => rfl
  | cons row rows ih =>
    have hrow := h row List.mem_cons_self
    have hne : name ≠ row.1 := fun heq => String.lt_irrefl _ (heq ▸ hrow)
    rw [putRow, if_neg (String.lt_asymm hrow), if_neg hne,
      ih fun r hr => h r (List.mem_cons_of_mem _ hr), List.cons_append]

/-- Values in order are put one behind the other. -/
theorem foldl_put (values : NamedValues) {rows : List (String × UInt64)}
    (h : (values.rows ++ rows).Pairwise fun a b => a.1 < b.1) :
    (rows.foldl (fun values row => values.put row.1 row.2) values).rows = values.rows ++ rows := by
  induction rows generalizing values with
  | nil => exact (List.append_nil _).symm
  | cons row rows ih =>
    have hbefore : ∀ r ∈ values.rows, r.1 < row.1 := fun r hr =>
      (List.pairwise_append.mp h).2.2 r hr row List.mem_cons_self
    have hput : (values.put row.1 row.2).rows = values.rows ++ [row] := putRow_append _ hbefore
    have hsplit : values.rows ++ row :: rows = (values.put row.1 row.2).rows ++ rows := by
      rw [hput, List.append_assoc, List.singleton_append]
    rw [List.foldl_cons, ih _ (hsplit ▸ h), hsplit]

/-- Values that are listed in order are found in that order again. -/
theorem ofList_rows (values : NamedValues) : ofList values.rows = values := by
  have hrows : (ofList values.rows).rows = values.rows := foldl_put empty values.sorted
  obtain ⟨rows, sorted⟩ := values
  generalize ofList rows = again at hrows ⊢
  obtain ⟨rows', sorted'⟩ := again
  cases hrows
  rfl

/-- **Named values are read back.** -/
theorem ofJson?_toJson (values : NamedValues) : ofJson? values.toJson = some values := by
  rw [toJson, ofMembers, ofJson?, List.map_map, Json.mapM_map_eq_some]
  · exact congrArg some (ofList_rows values)
  · intro row
    simp [Json.word64?_ofNat]

end NamedValues

/-- The number comes back from how it is written. -/
def Json.Returns (worth : Decimal.Parts → Option Binary64) (x : Binary64) : Prop :=
  x.isFinite = true ∧ worth (Decimal.Layout.interchange.parts x) = some x

theorem Json.Returns.read {worth : Decimal.Parts → Option Binary64} {x : Binary64}
    (h : Returns worth x) : (ofBinary64 x).binary64? worth = some x := by
  rw [ofBinary64, if_pos h.1]
  exact h.2

section Numbers

variable {worth : Decimal.Parts → Option Binary64}

namespace Timing

variable (t : Timing)

/-- The numbers of times. -/
def numbers : List Binary64 :=
  [t.mean] ++ t.median.toList ++ t.deviation.toList ++ [t.least, t.greatest] ++
    t.percentile95.toList

theorem sublist_names : (t.members.map (·.1)).Sublist names := by
  simp only [members, List.map_append]
  exact ((((List.Sublist.refl ["iterations", "mean_ms"]).append
    (Json.sublist_optionalMember ..)).append (Json.sublist_optionalMember ..)).append
      (.refl ["min_ms", "max_ms"])).append (Json.sublist_optionalMember ..)

variable {t}

theorem ofRecord?_members (h : ∀ x ∈ t.numbers, Json.Returns worth x) :
    ofRecord? worth ⟨t.members, true⟩ = some t := by
  simp only [numbers, List.forall_mem_append, List.forall_mem_cons, Option.mem_toList] at h
  obtain ⟨⟨⟨⟨⟨hmean', -⟩, hmedian'⟩, hdeviation'⟩, hleast', hgreatest', -⟩, hpercentile'⟩ := h
  have hnodup := t.sublist_names.nodup (by decide)
  have hiterations : Json.Record.required ⟨t.members, true⟩ "iterations" Json.word32? =
      some t.iterations :=
    (required_of_mem hnodup (ofNat t.iterations.toNat) (by simp [members])).trans
      (Json.word32?_ofNat _)
  have hmean : Json.Record.required ⟨t.members, true⟩ "mean_ms" (Json.binary64? worth) =
      some t.mean :=
    (required_of_mem hnodup (ofBinary64 t.mean) (by simp [members])).trans hmean'.read
  have hmedian : Json.Record.optional ⟨t.members, true⟩ "median_ms" (Json.binary64? worth) =
      some t.median :=
    optional_of_lookup ofBinary64 rfl (by simp [members, List.lookup_append, List.lookup_cons]) rfl
      fun x hx => (hmedian' x hx).read
  have hdeviation : Json.Record.optional ⟨t.members, true⟩ "stddev_ms" (Json.binary64? worth) =
      some t.deviation :=
    optional_of_lookup ofBinary64 rfl (by simp [members, List.lookup_append, List.lookup_cons]) rfl
      fun x hx => (hdeviation' x hx).read
  have hleast : Json.Record.required ⟨t.members, true⟩ "min_ms" (Json.binary64? worth) =
      some t.least :=
    (required_of_mem hnodup (ofBinary64 t.least) (by simp [members])).trans hleast'.read
  have hgreatest : Json.Record.required ⟨t.members, true⟩ "max_ms" (Json.binary64? worth) =
      some t.greatest :=
    (required_of_mem hnodup (ofBinary64 t.greatest) (by simp [members])).trans hgreatest'.read
  have hpercentile : Json.Record.optional ⟨t.members, true⟩ "p95_ms" (Json.binary64? worth) =
      some t.percentile95 :=
    optional_of_lookup ofBinary64 rfl (by simp [members, List.lookup_append, List.lookup_cons]) rfl
      fun x hx => (hpercentile' x hx).read
  simp only [ofRecord?, hiterations, hmean, hmedian, hdeviation, hleast, hgreatest, hpercentile]
  rfl

/-- **Times are read back.** -/
theorem ofJson?_toJson (h : ∀ x ∈ t.numbers, Json.Returns worth x) :
    ofJson? worth t.toJson = some t := by
  rw [ofJson?, toJson, Json.record?_ofMembers t.sublist_names (by decide)]
  exact ofRecord?_members h

end Timing

namespace Verification

variable (v : Verification)

/-- **The outcome of a comparison is read back.** -/
theorem ofJson?_toJson (h : Json.Returns worth v.maxError) :
    ofJson? worth v.toJson = some v := by
  have hnames : (v.members.map (·.1)).Sublist names := .refl names
  rw [ofJson?, toJson, Json.record?_ofMembers hnames (by decide)]
  simp [ofRecord?, members, Json.Record.required, List.lookup_cons, Json.word64?_ofNat, h.read,
    Json.bool?]

end Verification

namespace Report

variable (r : Report)

/-- The numbers of a report. -/
def numbers : List Binary64 := r.timing.numbers ++ [r.verification.maxError]

theorem backendOfJson?_ofMembers : backendOfJson? (ofMembers r.backendMembers) =
    some (r.backendName, r.backendVersion) := by
  have hnames : (r.backendMembers.map (·.1)).Sublist backendNames := by
    rw [backendMembers, List.map_cons]
    exact (Json.sublist_optionalMember ..).cons_cons "name"
  have hname : Json.Record.required ⟨r.backendMembers, true⟩ "name" Json.string? =
      some r.backendName :=
    required_of_mem (hnames.nodup (by decide)) (ofString r.backendName) (by simp [backendMembers])
  have hversion : Json.Record.optional ⟨r.backendMembers, true⟩ "version" Json.string? =
      some r.backendVersion :=
    optional_of_lookup ofString rfl (by simp [backendMembers, List.lookup_cons]) rfl fun _ _ => rfl
  rw [backendOfJson?, Json.record?_ofMembers hnames (by decide)]
  simp only [Option.bind_eq_bind, Option.bind_some, hname, hversion]
  rfl

theorem sublist_names : (r.members.map (·.1)).Sublist names := by
  have hdescription : ((if r.description = "" then []
      else [("description", ofString r.description)]).map (·.1)).Sublist ["description"] := by
    split
    · exact List.nil_sublist _
    · exact .refl _
  simp only [members, List.map_append]
  exact ((List.Sublist.refl ["schema_version", "timestamp", "backend", "workload", "category",
    "scheme", "security"]).append hdescription).append
      (.refl ["workload_params", "config", "operate", "verification", "env"])

/-- An empty description is left out, and that is what a missing one counts as. -/
theorem defaulted_description :
    Json.Record.defaulted ⟨r.members, true⟩ "description" "" Json.string? = some r.description := by
  by_cases h : r.description = ""
  · simp [Json.Record.defaulted, members, List.lookup_cons, h]
  · simp [Json.Record.defaulted, members, List.lookup_cons, h, ofString, Json.string?]

variable {r}

theorem ofRecord?_members (h : ∀ x ∈ r.numbers, Json.Returns worth x) :
    ofRecord? worth ⟨r.members, true⟩ = some r := by
  simp only [numbers, List.forall_mem_append, List.forall_mem_singleton] at h
  have hnodup := r.sublist_names.nodup (by decide)
  have hlayout : Json.Record.required ⟨r.members, true⟩ "schema_version" Json.word32? =
      some r.layoutVersion :=
    (required_of_mem hnodup (ofNat r.layoutVersion.toNat) (by simp [members])).trans
      (Json.word32?_ofNat _)
  have htimestamp : Json.Record.required ⟨r.members, true⟩ "timestamp" Json.string? =
      some r.timestamp :=
    required_of_mem hnodup (ofString r.timestamp) (by simp [members])
  have hbackend : Json.Record.required ⟨r.members, true⟩ "backend" backendOfJson? =
      some (r.backendName, r.backendVersion) :=
    (required_of_mem hnodup (ofMembers r.backendMembers) (by simp [members])).trans
      r.backendOfJson?_ofMembers
  have hworkload : Json.Record.required ⟨r.members, true⟩ "workload" Json.string? =
      some r.workload :=
    required_of_mem hnodup (ofString r.workload) (by simp [members])
  have hcategory : Json.Record.required ⟨r.members, true⟩ "category" Json.string? =
      some r.category :=
    required_of_mem hnodup (ofString r.category) (by simp [members])
  have hscheme : Json.Record.required ⟨r.members, true⟩ "scheme" Json.string? = some r.scheme :=
    required_of_mem hnodup (ofString r.scheme) (by simp [members])
  have hsecurity : Json.Record.required ⟨r.members, true⟩ "security" Json.string? =
      some r.security :=
    required_of_mem hnodup (ofString r.security) (by simp [members])
  have hparams : Json.Record.required ⟨r.members, true⟩ "workload_params" NamedValues.ofJson? =
      some r.params :=
    (required_of_mem hnodup r.params.toJson (by simp [members])).trans r.params.ofJson?_toJson
  have hsettings : Json.Record.required ⟨r.members, true⟩ "config" RunSettings.ofJson? =
      some r.settings :=
    (required_of_mem hnodup r.settings.toJson (by simp [members])).trans r.settings.ofJson?_toJson
  have htiming : Json.Record.required ⟨r.members, true⟩ "operate" (Timing.ofJson? worth) =
      some r.timing :=
    (required_of_mem hnodup r.timing.toJson (by simp [members])).trans (Timing.ofJson?_toJson h.1)
  have hverification : Json.Record.required ⟨r.members, true⟩ "verification"
      (Verification.ofJson? worth) = some r.verification :=
    (required_of_mem hnodup r.verification.toJson (by simp [members])).trans
      (r.verification.ofJson?_toJson h.2)
  have hhost : Json.Record.required ⟨r.members, true⟩ "env" HostInfo.ofJson? = some r.host :=
    (required_of_mem hnodup r.host.toJson (by simp [members])).trans r.host.ofJson?_toJson
  simp only [ofRecord?, hlayout, htimestamp, hbackend, hworkload, hcategory, hscheme, hsecurity,
    r.defaulted_description, hparams, hsettings, htiming, hverification, hhost]
  rfl

/-- **A report is read back from its object.** -/
theorem ofJson?_toJson (h : ∀ x ∈ r.numbers, Json.Returns worth x) :
    ofJson? worth r.toJson = some r := by
  rw [ofJson?, toJson, Json.record?_ofMembers r.sublist_names (by decide)]
  exact ofRecord?_members h

end Report

end Numbers

/-! ### Texts of reports -/

namespace Json

theorem proper_ofNat (n : Nat) : Proper (ofNat n) := .number (Decimal.Parts.grammatical_ofNat n)

theorem proper_ofString (content : String) : Proper (ofString content) := .string content

theorem proper_ofBinary64 (x : Binary64) : Proper (ofBinary64 x) := by
  rw [ofBinary64]
  split
  · exact .number (Decimal.Layout.grammatical_parts _ x)
  · exact .null

theorem proper_optionalMember {α : Type} {name : String} {write : α → Json} {value : Option α}
    (h : ∀ v, Proper (write v)) : ∀ m ∈ optionalMember name write value, Proper m.2 := by
  cases value with
  | none => exact nofun
  | some v => simpa [optionalMember] using h v

end Json

open Json (proper_ofNat proper_ofString proper_ofBinary64 proper_optionalMember proper_ofMembers)

theorem RunSettings.proper_toJson (s : RunSettings) : s.toJson.Proper := by
  refine proper_ofMembers ?_
  simp [members, proper_ofNat]

theorem Timing.proper_toJson (t : Timing) : t.toJson.Proper := by
  refine proper_ofMembers ?_
  simp only [members, List.forall_mem_append]
  refine ⟨⟨⟨⟨?_, proper_optionalMember proper_ofBinary64⟩,
    proper_optionalMember proper_ofBinary64⟩, ?_⟩, proper_optionalMember proper_ofBinary64⟩
  · simp [proper_ofNat, proper_ofBinary64]
  · simp [proper_ofBinary64]

theorem Verification.proper_toJson (v : Verification) : v.toJson.Proper := by
  refine proper_ofMembers ?_
  simp [members, proper_ofNat, proper_ofBinary64, Json.Proper.bool]

theorem HostInfo.proper_toJson (h : HostInfo) : h.toJson.Proper := by
  refine proper_ofMembers ?_
  simp only [members, List.forall_mem_append]
  refine ⟨⟨⟨⟨proper_optionalMember proper_ofString,
    proper_optionalMember fun n => proper_ofNat n.toNat⟩,
    proper_optionalMember fun n => proper_ofNat n.toNat⟩, ?_⟩,
    proper_optionalMember proper_ofString⟩
  simp [proper_ofString]

theorem NamedValues.proper_toJson (values : NamedValues) : values.toJson.Proper := by
  refine proper_ofMembers fun m hm => ?_
  obtain ⟨row, -, rfl⟩ := List.mem_map.mp hm
  exact proper_ofNat _

theorem Report.proper_toJson (r : Report) : r.toJson.Proper := by
  have hbackend : (ofMembers r.backendMembers).Proper := by
    refine proper_ofMembers ?_
    rw [backendMembers, List.forall_mem_cons]
    exact ⟨proper_ofString _, proper_optionalMember proper_ofString⟩
  refine proper_ofMembers ?_
  simp only [members, List.forall_mem_append]
  refine ⟨⟨?_, ?_⟩, ?_⟩
  · simp [proper_ofNat, proper_ofString, hbackend]
  · split <;> simp [proper_ofString]
  · simp [r.params.proper_toJson, r.settings.proper_toJson, r.timing.proper_toJson,
      r.verification.proper_toJson, r.host.proper_toJson]

namespace Report

variable {worth : Decimal.Parts → Option Binary64} {r : Report}

/-- **The text of a report is read as that report.** -/
theorem readBy_write (h : ∀ x ∈ r.numbers, Json.Returns worth x) :
    readBy worth r.write = .ok r := by
  have hread : (Json.read? r.write >>= ofJson? worth) = some r := by
    rw [write, Json.read?_write r.proper_toJson]
    exact ofJson?_toJson h
  rw [readBy, hread]

/-- A file that holds a text is read as the text is. -/
theorem ofFileBy_encode (path text : String) (h : readBy worth text = .ok r) :
    ofFileBy worth path (some (Text.Utf8.encode text)) = .ok r := by
  rw [ofFileBy, Option.map_some, Text.Utf8.decode_encode]
  exact h

end Report

/-! ### Numbers of reports that have been read -/

section Numbers

variable {worth : Decimal.Parts → Option Binary64}

/-- The number is what some written number is worth. -/
def Json.IsRead (worth : Decimal.Parts → Option Binary64) (x : Binary64) : Prop :=
  ∃ n, worth n = some x

theorem Json.isRead_of_binary64? {v : Json} {x : Binary64} (h : v.binary64? worth = some x) :
    IsRead worth x := by
  cases v with
  | number n => exact ⟨n, h⟩
  | _ => cases h

theorem Json.Record.isRead_of_required {r : Record} {name : String} {x : Binary64}
    (h : r.required name (binary64? worth) = some x) : IsRead worth x := by
  obtain ⟨v, -, hv⟩ := Option.bind_eq_some_iff.mp h
  exact isRead_of_binary64? hv

theorem Json.Record.isRead_of_optional {r : Record} {name : String} {value : Option Binary64}
    (h : r.optional name (binary64? worth) = some value) : ∀ x ∈ value, IsRead worth x := by
  rintro x rfl
  rw [optional] at h
  split at h
  case h_1 => split at h <;> cases h
  case h_2 => cases h
  case h_3 v _ _ =>
    obtain ⟨y, hy, heq⟩ := Option.map_eq_some_iff.mp h
    cases heq
    exact isRead_of_binary64? hy

theorem Timing.isRead_of_ofJson? {v : Json} {t : Timing} (h : ofJson? worth v = some t) :
    ∀ x ∈ t.numbers, Json.IsRead worth x := by
  simp only [ofJson?, ofRecord?, Option.bind_eq_bind, Option.bind_eq_some_iff, Option.pure_def,
    Option.some.injEq] at h
  obtain ⟨r, -, iterations, -, mean, hmean, median, hmedian, deviation, hdeviation, least, hleast,
    greatest, hgreatest, percentile, hpercentile, rfl⟩ := h
  simp only [numbers, List.forall_mem_append, List.forall_mem_cons, Option.mem_toList]
  exact ⟨⟨⟨⟨⟨Json.Record.isRead_of_required hmean, nofun⟩,
    Json.Record.isRead_of_optional hmedian⟩, Json.Record.isRead_of_optional hdeviation⟩,
    Json.Record.isRead_of_required hleast, Json.Record.isRead_of_required hgreatest, nofun⟩,
    Json.Record.isRead_of_optional hpercentile⟩

theorem Verification.isRead_of_ofJson? {v : Json} {o : Verification}
    (h : ofJson? worth v = some o) : Json.IsRead worth o.maxError := by
  simp only [ofJson?, ofRecord?, Option.bind_eq_bind, Option.bind_eq_some_iff, Option.pure_def,
    Option.some.injEq] at h
  obtain ⟨r, -, passed, -, samples, -, error, herror, rfl⟩ := h
  exact Json.Record.isRead_of_required herror

/-- The numbers of a report that has been read are what written numbers are worth. -/
theorem Report.isRead_of_readBy {text : String} {r : Report} (h : readBy worth text = .ok r) :
    ∀ x ∈ r.numbers, Json.IsRead worth x := by
  rw [readBy] at h
  split at h
  case h_2 => cases h
  case h_1 report hreport =>
    cases h
    obtain ⟨_, -, hreport⟩ := Option.bind_eq_some_iff.mp hreport
    obtain ⟨record, -, hrecord⟩ := Option.bind_eq_some_iff.mp hreport
    obtain ⟨backend, -, hrest⟩ := Option.bind_eq_some_iff.mp hrecord
    -- the nine facts between the backend and the times
    iterate 9 obtain ⟨_, -, hrest⟩ := Option.bind_eq_some_iff.mp hrest
    obtain ⟨timing, htiming, hrest⟩ := Option.bind_eq_some_iff.mp hrest
    obtain ⟨verification, hverification, hrest⟩ := Option.bind_eq_some_iff.mp hrest
    obtain ⟨host, -, hrest⟩ := Option.bind_eq_some_iff.mp hrest
    cases hrest
    obtain ⟨_, -, htiming⟩ := Option.bind_eq_some_iff.mp htiming
    obtain ⟨_, -, hverification⟩ := Option.bind_eq_some_iff.mp hverification
    simp only [numbers, List.forall_mem_append, List.forall_mem_singleton]
    exact ⟨Timing.isRead_of_ofJson? htiming, Verification.isRead_of_ofJson? hverification⟩

end Numbers

namespace Report

/-- What has been saved in a file is read from there. -/
theorem read_of_saveIn {t u : FileTree} {path text : String}
    (h : Program.saveIn t path text = .ok u) : u.read path = .ok (Text.Utf8.encode text) := by
  obtain ⟨made, hwrite⟩ : ∃ made : FileTree,
      (made.write path (Text.Utf8.encode text)).mapError (fun _ => Failure.reportNotWritten path) =
        .ok u := by
    rw [Program.saveIn] at h
    split at h
    case h_1 => exact ⟨t, h⟩
    case h_2 directory _ =>
      cases hmade : t.makeDirectories directory with
      | error => rw [hmade] at h; cases h
      | ok made => rw [hmade] at h; exact ⟨made, h⟩
  cases hfile : made.write path (Text.Utf8.encode text) with
  | error => rw [hfile] at hwrite; cases hwrite
  | ok v =>
    rw [hfile] at hwrite
    cases hwrite
    exact FileTree.read_of_write hfile

/-- **Reports go through the interchange format unchanged**, if finite numbers are worth what they
are written for. A report whose numbers are finite is read back from its text, and from a file in
which the text has been saved. A report that has been read, from whatever text, is written as a text
that is read as the same report, and is written as the same text again. -/
theorem round_trip (worth : Decimal.Parts → Option Binary64)
    (hworth : ∀ n x, worth n = some x → x.isFinite = true) :
    (∀ r : Report, (∀ x ∈ r.numbers, x.isFinite = true) →
      (∀ x ∈ r.numbers, worth (Decimal.Layout.interchange.parts x) = some x) →
      readBy worth r.write = .ok r ∧
        ∀ (t u : FileTree) (path : String), Program.saveIn t path r.write = .ok u →
          ofFileBy worth path (u.read path).toOption = .ok r) ∧
      ∀ (text : String) (r : Report), readBy worth text = .ok r →
        (∀ x ∈ r.numbers, worth (Decimal.Layout.interchange.parts x) = some x) →
        ∃ again, readBy worth r.write = .ok again ∧ again = r ∧ again.write = r.write := by
  refine ⟨fun r hfinite hback => ?_, fun text r hread hback => ?_⟩
  · have htext : readBy worth r.write = .ok r :=
      readBy_write fun x hx => ⟨hfinite x hx, hback x hx⟩
    refine ⟨htext, fun t u path hsave => ?_⟩
    rw [read_of_saveIn hsave]
    exact ofFileBy_encode path _ htext
  · have hreturns : ∀ x ∈ r.numbers, Json.Returns worth x := fun x hx => by
      obtain ⟨n, hn⟩ := isRead_of_readBy hread x hx
      exact ⟨hworth n x hn, hback x hx⟩
    exact ⟨r, readBy_write hreturns, rfl, rfl⟩

/-- The numbers of the sample below, with how they are written there or written again. -/
def sampleNumbers : List (Decimal.Parts × Binary64) :=
  [(⟨false, [0], some [0], none⟩, .zero), (⟨false, [1], none, none⟩, .one),
    (⟨false, [1], some [0], none⟩, .one),
    (⟨false, [1], some [5], some (true, [7])⟩, ⟨0x3E8421F5F40D8376⟩)]

/-- What they are worth. -/
def sampleWorth (n : Decimal.Parts) : Option Binary64 := sampleNumbers.lookup n

/-- A report written by someone else: in another order, with facts of their own, with facts that
are left out or `null`, and with a whole number for a time. -/
def sampleValue : Json := ofMembers [
  ("env", ofMembers [("arch", ofString "x86_64"), ("os", ofString "linux"), ("hostname", .null),
    ("extra", .array [.bool true, .null])]),
  ("verification", ofMembers [
    ("max_abs_error", ofBinary64 ⟨0x3E8421F5F40D8376⟩), ("passed", .bool true),
    ("result_samples", ofNat 4)]),
  ("operate", ofMembers [("iterations", ofNat 2), ("mean_ms", ofNat 1),
    ("min_ms", ofBinary64 .zero), ("max_ms", ofNat 1)]),
  ("config", ofMembers [("seed", ofNat 7)]),
  ("workload_params", ofMembers [("rows", ofNat 3), ("cols", ofNat 2)]),
  ("security", ofString "128"), ("scheme", ofString "bfv"), ("category", ofString "Offline"),
  ("workload", ofString "Product\n"), ("backend", ofMembers [("name", ofString "\"")]),
  ("timestamp", ofString "2026"), ("schema_version", ofNat 1)]

/-- The report that is read from it. -/
def sample : Report where
  layoutVersion := 1
  timestamp := "2026"
  backendName := "\""
  backendVersion := none
  workload := "Product\n"
  category := "Offline"
  scheme := "bfv"
  security := "128"
  description := ""
  params := .ofList [("cols", 2), ("rows", 3)]
  settings := { RunSettings.standard with seed := 7 }
  timing := ⟨2, .one, none, none, .zero, .one, none⟩
  verification := ⟨true, 4, ⟨0x3E8421F5F40D8376⟩⟩
  host := ⟨none, none, none, "linux", "x86_64", none⟩

/-- The report of the sample is read from its text, whatever its order, and goes through the
interchange format unchanged, by way of a file too. -/
theorem round_trip_sample :
    (readBy sampleWorth sampleValue.write = .ok sample ∧
      ∃ again, readBy sampleWorth sample.write = .ok again ∧ again = sample ∧
        again.write = sample.write) ∧
      ∃ u : FileTree, Program.saveIn ⟨[], []⟩ "report.json" sample.write = .ok u ∧
        ofFileBy sampleWorth "report.json" (u.read "report.json").toOption =
          .ok sample := by
  have hworth : ∀ n x, sampleWorth n = some x → x.isFinite = true := by
    intro n x h
    obtain ⟨before, after, hsplit, -⟩ := List.lookup_eq_some_iff.mp h
    have hall : ∀ row ∈ sampleNumbers, row.2.isFinite = true := by decide
    exact hall (n, x) (hsplit ▸ List.mem_append_right before List.mem_cons_self)
  have hfinite : ∀ x ∈ sample.numbers, x.isFinite = true := by decide
  have hback : ∀ x ∈ sample.numbers,
      sampleWorth (Decimal.Layout.interchange.parts x) = some x := by decide +kernel
  have hproper : sampleValue.Proper := by
    have hextra : (Json.array [.bool true, .null]).Proper :=
      .array (by simp [Json.Proper.bool, Json.Proper.null])
    simp [sampleValue, proper_ofMembers, proper_ofNat, proper_ofString, proper_ofBinary64, hextra,
      Json.Proper.bool, Json.Proper.null]
  have hread : readBy sampleWorth sampleValue.write = .ok sample := by
    have hvalue : ofJson? sampleWorth sampleValue = some sample := by decide +kernel
    have htext : (Json.read? sampleValue.write >>= ofJson? sampleWorth) = some sample := by
      rw [Json.read?_write hproper]
      exact hvalue
    rw [readBy, htext]
  have hsave : Program.saveIn ⟨[], []⟩ "report.json" sample.write =
      .ok ⟨[(["report.json"], .file (Text.Utf8.encode sample.write))], []⟩ := by
    have hdirectory : Path.directory? "report.json" = none := by cbv
    simp only [Program.saveIn, hdirectory]
    rfl
  obtain ⟨hwritten, hagain⟩ := round_trip sampleWorth hworth
  exact ⟨⟨hread, hagain _ sample hread hback⟩, _, hsave,
    (hwritten sample hfinite hback).2 _ _ _ hsave⟩

end Report

end HandleBench
