import HandleBench.Proofs.CleanRuns
import HandleBench.Proofs.Descriptions
import HandleBench.Proofs.NameFields
import Mathlib.Data.List.Dedup
import Mathlib.Data.List.Induction

/-!
# Parameters in reports

A workload takes its parameters by their places, a report keeps them by their names. So a report
has an entry for each name, and of several parameters of one name it tells the last:
`NamedValues.Keeps`. None is lost exactly if all names differ, as those of the built-in workloads
do; a name is what has been left of it in its field, so long names may differ in vain.
-/

namespace HandleBench

/-! ### Values by name -/

namespace NamedValues

variable {name : String} {value : UInt64} {rows before after : List (String × UInt64)}

theorem lookup_cons_eq (row : String × UInt64) (name : String) :
    (row :: rows).lookup name = if name = row.1 then some row.2 else rows.lookup name := by
  rw [List.lookup_cons]
  by_cases h : name = row.1
  · rw [if_pos h, beq_iff_eq.2 h]
  · rw [if_neg h, beq_eq_false_iff_ne.2 h]

theorem lookup_putRow (other : String) :
    (putRow name value rows).lookup other =
      if other = name then some value else rows.lookup other := by
  induction rows with
  | nil => exact lookup_cons_eq _ other
  | cons row rows ih =>
    rw [putRow]
    split
    case isTrue => exact lookup_cons_eq _ other
    case isFalse =>
      split
      case isTrue hsame =>
        subst hsame
        grind [lookup_cons_eq]
      case isFalse hother => grind [lookup_cons_eq]

theorem find?_put (values : NamedValues) (other : String) :
    (values.put name value).find? other = if other = name then some value else values.find? other :=
  lookup_putRow other

theorem ofList_concat (row : String × UInt64) :
    ofList (rows ++ [row]) = (ofList rows).put row.1 row.2 := by
  rw [ofList, List.foldl_append]
  rfl

/-- The names of a list are those that have a value. -/
theorem isSome_find?_ofList : ((ofList rows).find? name).isSome ↔ name ∈ rows.map Prod.fst := by
  induction rows using List.reverseRecOn with
  | nil => simp [ofList, empty, find?]
  | append_singleton rows row ih =>
    rw [ofList_concat, find?_put, List.map_append, List.mem_append, ← ih]
    by_cases h : name = row.1 <;> simp [h]

/-- The value of a name is the last one in the list. -/
theorem find?_ofList_append (h : ∀ row ∈ after, row.1 ≠ name) :
    (ofList (before ++ (name, value) :: after)).find? name = some value := by
  induction after using List.reverseRecOn with
  | nil => rw [ofList_concat, find?_put, if_pos rfl]
  | append_singleton after row ih =>
    have hrow : name ≠ row.1 := (h row (by simp)).symm
    rw [← List.cons_append, ← List.append_assoc, ofList_concat, find?_put, if_neg hrow]
    exact ih fun r hr => h r (List.mem_append_left _ hr)

theorem mem_names_iff (values : NamedValues) :
    name ∈ values.rows.map Prod.fst ↔ (values.find? name).isSome := by
  rw [find?]
  induction values.rows with
  | nil => simp
  | cons row rows ih =>
    rw [lookup_cons_eq, List.map_cons, List.mem_cons, ih]
    by_cases h : name = row.1 <;> simp [h]

/-- Each name has one entry. -/
theorem nodup_names (values : NamedValues) : (values.rows.map Prod.fst).Nodup := by
  refine List.pairwise_map.2 (values.sorted.imp fun h he => ?_)
  rw [he] at h
  exact String.lt_irrefl _ h

/-- There are as many entries as there are names in the list. -/
theorem length_ofList : (ofList rows).rows.length = (rows.map Prod.fst).dedup.length := by
  have hperm : ((ofList rows).rows.map Prod.fst).Perm (rows.map Prod.fst).dedup := by
    refine (List.perm_ext_iff_of_nodup (ofList rows).nodup_names (List.nodup_dedup _)).2 ?_
    intro name
    rw [mem_names_iff, isSome_find?_ofList, List.mem_dedup]
  rw [← hperm.length_eq, List.length_map]

/-- What values by name keep of parameters. -/
structure Keeps (values : NamedValues) (params : List Param) : Prop where
  /-- The names are those of the parameters. -/
  names : ∀ name, (values.find? name).isSome ↔ ∃ p ∈ params, p.nameText = name
  /-- There is one entry for each of them. -/
  count : values.rows.length = (params.map Param.nameText).dedup.length
  /-- A parameter that no other of its name follows is there with its value. -/
  latest : ∀ before p after, params = before ++ p :: after →
    (∀ q ∈ after, q.nameText ≠ p.nameText) → values.find? p.nameText = some p.bits
  /-- There are as many entries as parameters exactly if all names differ. -/
  all_iff : values.rows.length = params.length ↔ (params.map Param.nameText).Nodup
  /-- In that case every parameter is there with its value. -/
  each : (params.map Param.nameText).Nodup → ∀ p ∈ params, values.find? p.nameText = some p.bits

theorem keeps_ofList (params : List Param) :
    (ofList (params.map fun p => (p.nameText, p.bits))).Keeps params := by
  have hnames : (params.map fun p => (p.nameText, p.bits)).map Prod.fst =
      params.map Param.nameText := List.map_map
  have hcount : (ofList (params.map fun p => (p.nameText, p.bits))).rows.length =
      (params.map Param.nameText).dedup.length := by rw [length_ofList, hnames]
  have hlatest : ∀ before p after, params = before ++ p :: after →
      (∀ q ∈ after, q.nameText ≠ p.nameText) →
        (ofList (params.map fun p => (p.nameText, p.bits))).find? p.nameText = some p.bits := by
    rintro before p after rfl hafter
    rw [List.map_append, List.map_cons]
    refine find?_ofList_append fun row hrow => ?_
    obtain ⟨q, hq, rfl⟩ := List.mem_map.1 hrow
    exact hafter q hq
  constructor
  case names =>
    intro name
    rw [isSome_find?_ofList, hnames, List.mem_map]
  case count => exact hcount
  case latest => exact hlatest
  case all_iff =>
    rw [hcount, ← List.length_map Param.nameText, ← List.dedup_eq_self]
    exact ⟨(List.dedup_sublist _).eq_of_length, congrArg List.length⟩
  case each =>
    intro hnodup p hp
    obtain ⟨before, after, rfl⟩ := List.append_of_mem hp
    refine hlatest before p after rfl fun q hq => ?_
    rw [List.map_append, List.map_cons] at hnodup
    have hnot : p.nameText ∉ after.map Param.nameText :=
      (List.nodup_cons.1 (List.nodup_append.1 hnodup).2.1).1
    exact fun he => hnot (he ▸ List.mem_map_of_mem hq)

end NamedValues

/-! ### Built-in workloads -/

/-- A name that its field has room for is the name of the parameter. -/
theorem Param.nameText_ofUInt64 {name : String} (value : UInt64) (h : '\x00' ∉ name.toList)
    (hle : (Text.Utf8.encode name).length ≤ 255) : (Param.ofUInt64 name value).nameText = name :=
  Text.NameField.text_ofText_of_le h hle

theorem ProductShape.names_toParams (s : ProductShape) :
    s.toParams.map Param.nameText = ["rows_M0", "cols_M0", "cols_M1"] := by
  simp only [toParams, List.map_cons, List.map_nil]
  rw [Param.nameText_ofUInt64 _ (by decide) (by decide),
    Param.nameText_ofUInt64 _ (by decide) (by decide),
    Param.nameText_ofUInt64 _ (by decide) (by decide)]

/-- The names in the default sets of the built-in backend differ. -/
theorem Backend.nodup_names_matrixProduct {workloads : List Description} {d : Description}
    {params : List Param} (hw : Backend.matrixProduct.workloads = .ok workloads)
    (hd : d ∈ workloads) (hp : params ∈ d.defaultSets) :
    (params.map Param.nameText).Nodup := by
  have shaped : ∃ s : ProductShape, params = s.toParams := by
    cases hw
    simp only [List.mem_cons, List.not_mem_nil, or_false] at hd
    rcases hd with rfl | rfl
    · simp only [Description.latencyProduct, List.mem_cons, List.not_mem_nil, or_false] at hp
      rcases hp with rfl | rfl
      · exact ⟨_, rfl⟩
      · exact ⟨_, rfl⟩
    · exact ⟨_, List.mem_singleton.1 hp⟩
  obtain ⟨s, rfl⟩ := shaped
  rw [s.names_toParams]
  decide

/-! ### Runs -/

namespace Run

variable {e : Engine} {backend : Backend} {settings : RunSettings} {around : Surroundings}
  {w w' : World} {report : Report}

/-- A plan takes one of the default sets that the catalog has. -/
theorem chosen_of_plan {p : Plan} (hp : plan e settings = .ok p) :
    ∃ d, e.catalog[settings.descriptor.toNat]? = some d ∧
      d.defaultSets[settings.defaultSet.toNat]? = some p.params := by
  obtain ⟨sets, hdescribed, hsets⟩ := describeAt_of_plan hp
  cases hd : e.catalog[settings.descriptor.toNat]? with
  | none =>
    rw [Engine.describeAt_eq_error (List.getElem?_eq_none_iff.1 hd)] at hdescribed
    cases hdescribed
  | some d =>
    rw [Engine.describeAt_eq hd] at hdescribed
    obtain rfl : d.defaultSets = sets := congrArg (·.2.2) (Except.ok.inj hdescribed)
    exact ⟨d, rfl, hsets⟩

/-- A report has the parameters of the plan by name. -/
theorem params_of_run (hr : run e backend settings around w = (.ok report, w')) :
    ∃ p, plan e settings = .ok p ∧
      report.params = .ofList (p.params.map fun q => (q.nameText, q.bits)) := by
  have hends : (run e backend settings around).Ends w (fun report _ => ∃ p,
      plan e settings = .ok p ∧
        report.params = .ofList (p.params.map fun q => (q.nameText, q.bits)))
      fun _ _ => True := by
    refine Act.ends_bind.2 (Act.ends_ofExcept (fun p hp => ?_) fun _ _ => trivial)
    refine Act.ends_bind_of_last fun bench w₁ => ?_
    refine Act.ends_bind_of_last fun output w₂ => ?_
    refine Act.ends_bind_of_last fun verification w₃ => ?_
    exact Act.ends_bind_of_last fun description w₄ => ⟨p, hp, rfl⟩
  exact hends.of_ok hr

/-- **Reports keep parameters by name.** The report of any run has one entry for each name in the
default set that the settings choose, with the value of the last parameter of that name. So it has
all parameters exactly if their names differ, and those of the built-in backend do. -/
theorem report_keeps_params (hr : run e backend settings around w = (.ok report, w')) :
    ∃ d params, e.catalog[settings.descriptor.toNat]? = some d ∧
      d.defaultSets[settings.defaultSet.toNat]? = some params ∧ report.params.Keeps params ∧
      ∀ workloads, Backend.matrixProduct.workloads = .ok workloads → d ∈ workloads →
        (params.map Param.nameText).Nodup := by
  obtain ⟨p, hp, hparams⟩ := params_of_run hr
  obtain ⟨d, hd, hsets⟩ := chosen_of_plan hp
  refine ⟨d, p.params, hd, hsets, ?_, fun workloads hw hmem => ?_⟩
  · rw [hparams]
    exact NamedValues.keeps_ofList p.params
  · exact Backend.nodup_names_matrixProduct hw hmem (List.mem_of_getElem? hsets)

/-! ### Two runs -/

/-- The first engine of a world, started by a backend with these workloads. -/
def firstEngine (workloads : List Description) : Engine :=
  ⟨0, .unset, workloads, ⟨[(0, "Plain")]⟩, ⟨[(0, "None")]⟩⟩

/-- The world in which it has been started. -/
def started (backend : Backend) : World := (Engine.start backend .unset .empty).2

/-- The standard settings, but for the workload at the index. -/
def choosing (index : UInt64) : RunSettings := { RunSettings.standard with descriptor := index }

/-- Nothing is known of the surroundings. -/
def nowhere : Surroundings := ⟨fun _ => .zero, "", ⟨none, none, none, "", "", none⟩⟩

theorem exists_report (h : (run e backend settings around w).1.toBool = true) :
    ∃ report w', run e backend settings around w = (.ok report, w') := by
  cases hr : run e backend settings around w with
  | mk result w' =>
    cases result with
    | ok report => exact ⟨report, w', rfl⟩
    | error reason =>
      rw [hr] at h
      cases h

/-- The report of the built-in offline product has all three of its parameters. -/
theorem report_keeps_params_offline : ∃ report w',
    run (firstEngine [.latencyProduct, .offlineProduct]) .matrixProduct (choosing 1) nowhere
      (started .matrixProduct) = (.ok report, w') ∧
    report.params.rows.length = 3 ∧ report.params.find? "cols_M1" = some 10 := by
  obtain ⟨report, w', hr⟩ := exists_report
    (show (run (firstEngine [.latencyProduct, .offlineProduct]) .matrixProduct (choosing 1) nowhere
      (started .matrixProduct)).1.toBool = true by decide +kernel)
  obtain ⟨d, params, hd, hparams, hkeeps, hbuiltin⟩ := report_keeps_params hr
  obtain rfl : Description.offlineProduct = d := Option.some.inj hd
  obtain rfl : (ProductShape.mk 10 10 10).toParams = params := Option.some.inj hparams
  have hnodup := hbuiltin _ rfl (by simp)
  have hname : (Param.ofUInt64 "cols_M1" 10).nameText = "cols_M1" :=
    Param.nameText_ofUInt64 _ (by decide) (by decide)
  refine ⟨report, w', hr, hkeeps.all_iff.2 hnodup, ?_⟩
  rw [← hname]
  exact hkeeps.each hnodup _ (by simp [ProductShape.toParams])

/-- Parameters of a matrix product, of which the first two have one name. -/
def crowdedParams : List Param := [.ofUInt64 "n" 1, .ofUInt64 "n" 2, .ofUInt64 "m" 1]

/-- A byte carrier that is registered as a matrix product with these parameters. -/
def crowded : CarrierConfig :=
  { CarrierConfig.named "mock" with descriptor := .plain, defaultSets := [crowdedParams] }

/-- Its workload. -/
def crowdedProduct : Description :=
  ⟨.plain, [crowdedParams], .byteCarrier crowded, by simp [arityOf]⟩

/-- The report of a run with these parameters has two entries for the three of them, and the value
of the first one is in neither. -/
theorem report_drops_param :
    (started (.byteCarrier crowded)).engine? (.cell 0) = some (firstEngine [crowdedProduct]) ∧
    ∃ report w', run (firstEngine [crowdedProduct]) (.byteCarrier crowded) (choosing 0) nowhere
        (started (.byteCarrier crowded)) = (.ok report, w') ∧
      report.params.rows.length ≠ crowdedParams.length ∧
      ∃ p ∈ crowdedParams, report.params.find? p.nameText ≠ some p.bits := by
  refine ⟨by decide +kernel, ?_⟩
  obtain ⟨report, w', hr⟩ := exists_report
    (show (run (firstEngine [crowdedProduct]) (.byteCarrier crowded) (choosing 0) nowhere
      (started (.byteCarrier crowded))).1.toBool = true by decide +kernel)
  obtain ⟨plan, hplan, hparams⟩ := params_of_run hr
  obtain ⟨d, hd, hset⟩ := chosen_of_plan hplan
  obtain rfl : crowdedProduct = d := Option.some.inj hd
  obtain hcrowded : crowdedParams = plan.params := Option.some.inj hset
  have named : ∀ value, (Param.ofUInt64 "n" value).nameText = "n" ∧
      (Param.ofUInt64 "m" value).nameText = "m" := fun value =>
    ⟨Param.nameText_ofUInt64 _ (by decide) (by decide),
      Param.nameText_ofUInt64 _ (by decide) (by decide)⟩
  have hrows : report.params = .ofList [("n", 1), ("n", 2), ("m", 1)] := by
    rw [hparams, ← hcrowded]
    simp only [crowdedParams, List.map_cons, List.map_nil, named]
    rfl
  refine ⟨report, w', hr, ?_, .ofUInt64 "n" 1, List.mem_cons_self, ?_⟩
  · rw [hrows]
    decide
  · rw [hrows, (named 1).1]
    decide

end Run

end HandleBench
