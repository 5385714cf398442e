import HandleBench.Proofs.MachineWords
import HandleBench.Proofs.PlainFailures
import HandleBench.Proofs.Samples

/-!
# Reading and writing generic shapes

A generic shape is written as two counts followed by as many lengths. Whoever passes a parameter
list chooses the counts, and they say how much of the list is read, so a reader has to be careful
with them: their sum may not fit a word, and the list may be too short for it. The lists that are
read are those that begin with a layout, `GenericShape.Laid`; whatever is behind the layout and
whatever the parameters are called makes no difference. Reading undoes writing, writing undoes
reading as far as types and values go, and a machine that reads by slices of the list never leaves
it: `GenericShape.ofParams_reading`.
-/

namespace HandleBench

/-! ### Unsigned parameters -/

namespace Param

/-- The parameter carries the number of the unsigned type. -/
def IsUnsigned (p : Param) : Prop := p.typeCode = ParamType.uint64.code

instance (p : Param) : Decidable p.IsUnsigned := inferInstanceAs (Decidable (_ = _))

/-- What a parameter says apart from its name. -/
def content (p : Param) : Int32 × UInt64 := (p.typeCode, p.bits)

theorem asUInt64?_isNone_iff {p : Param} : p.asUInt64?.isNone = true ↔ ¬ p.IsUnsigned := by
  unfold asUInt64? IsUnsigned
  split <;> simp_all

end Param

/-- As many parameters as required are there and unsigned. -/
theorem requireUnsigned_eq_ok {params : List Param} {required : Nat} :
    requireUnsigned params required = .ok () ↔
      required ≤ params.length ∧ ∀ p ∈ params.take required, p.IsUnsigned := by
  unfold requireUnsigned
  split
  · next hlt =>
    exact ⟨fun h => (by cases h), fun ⟨hle, _⟩ => absurd hlt (Nat.not_lt.2 hle)⟩
  · next hle =>
    have hall : (params.take required).findIdx? (·.asUInt64?.isNone) = none ↔
        ∀ p ∈ params.take required, p.IsUnsigned := by
      rw [List.findIdx?_eq_none_iff]
      refine forall₂_congr fun p _ => ?_
      rw [← Bool.not_eq_true, Param.asUInt64?_isNone_iff, Decidable.not_not]
    split
    · next index hindex =>
      refine ⟨fun h => (by cases h), fun ⟨_, hu⟩ => ?_⟩
      rw [hall.2 hu] at hindex
      cases hindex
    · next hnone => exact ⟨fun _ => ⟨Nat.le_of_not_lt hle, hall.1 hnone⟩, fun _ => rfl⟩

theorem Failure.code_of_isOfShape {failure : Failure} (h : failure.isOfShape = true) :
    failure.code = .invalidArgs := by
  cases failure <;> first | rfl | cases h

namespace GenericShape

variable {params others : List Param} {n m : UInt64} {s : GenericShape}

/-! ### The layout -/

/-- How many parameters a shape of `n` inputs and `m` result components takes. -/
def size (n m : UInt64) : Nat := n.toNat + m.toNat + 2

/-- The parameters begin with the layout of a shape of `n` inputs and `m` result components. -/
structure Laid (n m : UInt64) (params : List Param) : Prop where
  /-- The first value is the count of the inputs. -/
  inputs : params[0]?.map Param.bits = some n
  /-- The second is that of the result's components. -/
  results : params[1]?.map Param.bits = some m
  /-- The size of the layout fits a word. -/
  word : size n m < UInt64.size
  /-- All of the layout is there. -/
  there : size n m ≤ params.length
  /-- All of it is unsigned. -/
  unsigned : ∀ p ∈ params.take (size n m), p.IsUnsigned

/-- The shape that the values behind the two counts give. -/
def laidOut (n m : UInt64) (params : List Param) : GenericShape where
  inputs := ((params.drop 2).take n.toNat).map Param.bits
  results := ((params.drop (2 + n.toNat)).take m.toNat).map Param.bits

theorem Laid.length_inputs (h : Laid n m params) :
    (laidOut n m params).inputs.length = n.toNat := by
  have hle := h.there
  unfold size at hle
  simp only [laidOut, List.length_map, List.length_take, List.length_drop]
  omega

theorem Laid.length_results (h : Laid n m params) :
    (laidOut n m params).results.length = m.toNat := by
  have hle := h.there
  unfold size at hle
  simp only [laidOut, List.length_map, List.length_take, List.length_drop]
  omega

/-- Two counts stand at the front of a layout. -/
theorem Laid.cons (h : Laid n m params) :
    ∃ p q lengths, params = p :: q :: lengths ∧ p.bits = n ∧ q.bits = m := by
  obtain ⟨hn, hm, -, -, -⟩ := h
  match params with
  | [] => cases hn
  | [_] => cases hm
  | p :: q :: lengths => exact ⟨p, q, lengths, rfl, Option.some.inj hn, Option.some.inj hm⟩

/-! ### Reading -/

/-- A list that begins with two unsigned parameters is read as far as they say. -/
theorem ofParams_cons {p q : Param} {lengths : List Param} (hp : p.IsUnsigned)
    (hq : q.IsUnsigned) :
    ofParams (p :: q :: lengths) =
      if UInt64.size ≤ size p.bits q.bits then .error .arityOverflow
      else do
        requireUnsigned (p :: q :: lengths) (size p.bits q.bits)
        return laidOut p.bits q.bits (p :: q :: lengths) := by
  have hfront : requireUnsigned (p :: q :: lengths) 2 = .ok () :=
    requireUnsigned_eq_ok.2 ⟨by simp, by simp [hp, hq]⟩
  rw [ofParams, hfront]
  show (if UInt64.size ≤ size p.bits q.bits then _ else _) = _
  split
  · rfl
  · have hdrop : (p :: q :: lengths).drop (2 + p.bits.toNat) = lengths.drop p.bits.toNat := by
      rw [Nat.add_comm]
      rfl
    simp only [laidOut, hdrop, List.drop_succ_cons, List.drop_zero, List.map_take, List.map_drop]
    rfl

/-- A layout is read. -/
theorem ofParams_laid (h : Laid n m params) : ofParams params = .ok (laidOut n m params) := by
  obtain ⟨p, q, lengths, rfl, rfl, rfl⟩ := h.cons
  have hp : p.IsUnsigned := h.unsigned p (by simp [size])
  have hq : q.IsUnsigned := h.unsigned q (by simp [size])
  rw [ofParams_cons hp hq, if_neg (Nat.not_le.2 h.word),
    requireUnsigned_eq_ok.2 ⟨h.there, h.unsigned⟩]
  rfl

/-- Whatever is read is a layout. -/
theorem laid_of_ofParams (h : ofParams params = .ok s) : ∃ n m, Laid n m params := by
  have hfront : requireUnsigned params 2 = .ok () := by
    obtain ⟨⟨⟩, hr, -⟩ := Except.bind_eq_ok.1 h
    exact hr
  obtain ⟨hlength, hunsigned⟩ := requireUnsigned_eq_ok.1 hfront
  match params with
  | [] => simp at hlength
  | [_] => simp at hlength
  | p :: q :: lengths =>
    have hp : p.IsUnsigned := hunsigned p (by simp)
    have hq : q.IsUnsigned := hunsigned q (by simp)
    rw [ofParams_cons hp hq] at h
    split at h
    · cases h
    · next hword =>
      obtain ⟨⟨⟩, hr, -⟩ := Except.bind_eq_ok.1 h
      obtain ⟨hthere, hall⟩ := requireUnsigned_eq_ok.1 hr
      exact ⟨p.bits, q.bits, rfl, rfl, Nat.lt_of_not_le hword, hthere, hall⟩

/-- Whatever is refused is an invalid argument. -/
theorem ofParams_failure (params : List Param) :
    FailsOnly (·.code = .invalidArgs) (ofParams params) := by
  have refused : ∀ required,
      FailsOnly (·.code = .invalidArgs) (requireUnsigned params required) := fun required =>
    (requireUnsigned_failure params required).mono fun _ => Failure.code_of_isOfShape
  unfold ofParams
  refine failsOnly_bind (refused 2) fun _ _ => ?_
  split
  · dsimp only
    split
    · exact failsOnly_error rfl
    · exact failsOnly_bind (refused _) fun _ _ => failsOnly_ok _
  · exact failsOnly_error rfl

/-! ### Names and what is behind the layout -/

/-- Where contents agree, values do. -/
theorem bits_of_content {i k : Nat} (hi : i < k)
    (h : (others.take k).map Param.content = (params.take k).map Param.content) :
    others[i]?.map Param.bits = params[i]?.map Param.bits := by
  have hat := congrArg (fun contents : List (Int32 × UInt64) => contents[i]?.map Prod.snd) h
  simp only [List.getElem?_map, List.getElem?_take_of_lt hi, Option.map_map] at hat
  exact hat

/-- A list whose contents agree with a layout is one. -/
theorem Laid.congr (h : Laid n m params)
    (hc : (others.take (size n m)).map Param.content =
      (params.take (size n m)).map Param.content) : Laid n m others := by
  have two : 1 < size n m := by
    unfold size
    omega
  refine ⟨?_, ?_, h.word, ?_, ?_⟩
  · rw [bits_of_content (by omega) hc, h.inputs]
  · rw [bits_of_content two hc, h.results]
  · have hlength := congrArg List.length hc
    simp only [List.length_map, List.length_take] at hlength
    have hthere := h.there
    omega
  · intro p hp
    have hmem : p.content ∈ (params.take (size n m)).map Param.content := by
      rw [← hc]
      exact List.mem_map_of_mem hp
    obtain ⟨q, hq, hcontent⟩ := List.mem_map.1 hmem
    exact (congrArg Prod.fst hcontent).symm.trans (h.unsigned q hq)

theorem laidOut_congr (hc : (others.take (size n m)).map Param.content =
    (params.take (size n m)).map Param.content) : laidOut n m others = laidOut n m params := by
  have hbits : (others.take (size n m)).map Param.bits =
      (params.take (size n m)).map Param.bits := by
    have hsnd := congrArg (List.map Prod.snd) hc
    rwa [List.map_map, List.map_map] at hsnd
  -- both lists of lengths are cut from what is behind the counts of a layout
  have cut : ∀ {start count : Nat}, start + count ≤ size n m → ∀ list : List Param,
      ((list.drop start).take count).map Param.bits =
        (((list.take (size n m)).map Param.bits).drop start).take count := by
    intro start count hle list
    rw [← List.map_drop, ← List.map_take, List.drop_take, List.take_take,
      Nat.min_eq_left (by omega)]
  have hn : 2 + n.toNat ≤ size n m := by
    unfold size
    omega
  have hm : 2 + n.toNat + m.toNat ≤ size n m := by
    unfold size
    omega
  simp only [laidOut, cut hn, cut hm, hbits]

/-! ### Writing -/

theorem map_content_lengthParams (stem : String) (start : Nat) (lengths : List UInt64) :
    (lengthParams stem start lengths).map Param.content =
      lengths.map fun length => (ParamType.uint64.code, length) := by
  induction lengths generalizing start with
  | nil => rfl
  | cons length lengths ih =>
    rw [lengthParams, List.map_cons, ih]
    rfl

/-- What is written is unsigned, and its values are the counts and the lengths. -/
theorem map_content_toParams (s : GenericShape) :
    s.toParams.map Param.content =
      (.ofNat s.inputs.length :: .ofNat s.results.length :: (s.inputs ++ s.results)).map
        fun word => (ParamType.uint64.code, word) := by
  rw [toParams, List.map_cons, List.map_cons, List.map_append, map_content_lengthParams,
    map_content_lengthParams]
  simp only [List.map_cons, List.map_append]
  rfl

/-- A shape whose counts fit a word is written as a layout of itself. -/
theorem laid_toParams (hs : s.inputs.length + s.results.length < UInt64.size - 2) :
    Laid (.ofNat s.inputs.length) (.ofNat s.results.length) s.toParams ∧
      laidOut (.ofNat s.inputs.length) (.ofNat s.results.length) s.toParams = s := by
  have hn : (UInt64.ofNat s.inputs.length).toNat = s.inputs.length :=
    UInt64.toNat_ofNat_of_lt' (by omega)
  have hm : (UInt64.ofNat s.results.length).toNat = s.results.length :=
    UInt64.toNat_ofNat_of_lt' (by omega)
  have hcontent := map_content_toParams s
  have hlength : s.toParams.length = s.inputs.length + s.results.length + 2 := by
    have := congrArg List.length hcontent
    simpa using this
  have hbits : s.toParams.map Param.bits =
      .ofNat s.inputs.length :: .ofNat s.results.length :: (s.inputs ++ s.results) := by
    have := congrArg (List.map Prod.snd) hcontent
    simpa [Function.comp_def, Param.content] using this
  refine ⟨⟨rfl, rfl, ?_, ?_, ?_⟩, ?_⟩
  · rw [size, hn, hm]
    omega
  · refine Nat.le_of_eq ?_
    rw [size, hn, hm, hlength]
  · intro p hp
    have hmem : p.content ∈ s.toParams.map Param.content :=
      List.mem_map_of_mem (List.mem_of_mem_take hp)
    rw [hcontent] at hmem
    obtain ⟨word, -, hword⟩ := List.mem_map.1 hmem
    exact (congrArg Prod.fst hword).symm
  · rw [laidOut, hn, hm]
    simp only [List.map_take, List.map_drop, hbits]
    rw [Nat.add_comm]
    simp

/-- What was read is written with the same types and values. -/
theorem Laid.toParams (h : Laid n m params) :
    (laidOut n m params).toParams.map Param.content =
      (params.take (size n m)).map Param.content := by
  have hn := h.length_inputs
  have hm := h.length_results
  have hall : (params.take (size n m)).map Param.content =
      ((params.take (size n m)).map Param.bits).map fun word => (ParamType.uint64.code, word) := by
    rw [List.map_map]
    exact List.map_congr_left fun p hp => Prod.ext (h.unsigned p hp) rfl
  rw [map_content_toParams, hall, hn, hm, UInt64.ofNat_toNat, UInt64.ofNat_toNat]
  obtain ⟨p, q, lengths, rfl, rfl, rfl⟩ := h.cons
  refine congrArg (List.map _) ?_
  have hdrop : (p :: q :: lengths).drop (2 + p.bits.toNat) = lengths.drop p.bits.toNat := by
    rw [Nat.add_comm]
    rfl
  simp only [laidOut, size, hdrop, List.drop_succ_cons, List.drop_zero, List.take_succ_cons,
    List.map_cons]
  rw [← List.map_append, List.take_add]

/-! ### Reading on a machine -/

/-- The size of a layout as a word, nothing if it does not fit one. -/
def sizeWord? (n m : UInt64) : Option UInt64 := (Machine.sum? n m).bind (Machine.sum? · 2)

theorem sizeWord?_eq_none (h : UInt64.size ≤ size n m) : sizeWord? n m = none := by
  have hsize : n.toNat + m.toNat + 2 = size n m := rfl
  unfold sizeWord?
  by_cases hsum : n.toNat + m.toNat < UInt64.size
  · obtain ⟨hs, hn⟩ := Machine.sum?_eq_some hsum
    rw [hs, Option.bind_some]
    refine Machine.sum?_eq_none ?_
    rw [hn]
    exact h
  · rw [Machine.sum?_eq_none (Nat.le_of_not_lt hsum)]
    rfl

theorem sizeWord?_eq_some (h : size n m < UInt64.size) :
    ∃ word, sizeWord? n m = some word ∧ word.toNat = size n m := by
  have hsize : n.toNat + m.toNat + 2 = size n m := rfl
  obtain ⟨hs, hn⟩ := Machine.sum?_eq_some (a := n) (b := m) (by omega)
  obtain ⟨hs', hn'⟩ := Machine.sum?_eq_some (a := n + m) (b := 2) (by rw [hn]; exact h)
  refine ⟨n + m + 2, ?_, ?_⟩
  · rw [sizeWord?, hs, Option.bind_some, hs']
  · rw [hn', hn]
    rfl

/-- The shape in a parameter list, read in words: the two counts are added with a check, and both
lists of lengths are slices of the list. -/
def ofParamsInWords (params : List Param) : Machine GenericShape := do
  Machine.ofExcept (requireUnsigned params 2)
  let n ← Machine.element 0 params
  let m ← Machine.element 1 params
  match sizeWord? n.bits m.bits with
  | none => Machine.ofExcept (.error .arityOverflow)
  | some required => do
    Machine.ofExcept (requireUnsigned params required.toNat)
    let inputs ← Machine.slice 2 (2 + n.bits).toNat params
    let results ← Machine.slice (2 + n.bits).toNat required.toNat params
    return ⟨inputs.map Param.bits, results.map Param.bits⟩

/-- The slices of a layout are in the list, and they are its lengths. -/
theorem Laid.slices (h : Laid n m params) :
    ∃ inputs results, Machine.slice 2 (2 + n).toNat params = .ok inputs ∧
      Machine.slice (2 + n).toNat (size n m) params = .ok results ∧
      laidOut n m params = ⟨inputs.map Param.bits, results.map Param.bits⟩ := by
  have hword := h.word
  have hthere := h.there
  have hn : (2 + n).toNat = 2 + n.toNat :=
    (Machine.sum?_eq_some (a := 2) (b := n) (by unfold size at hword; simp; omega)).2
  unfold size at hthere ⊢
  refine ⟨_, _, Machine.slice_eq (by omega) (by omega), Machine.slice_eq (by omega) hthere, ?_⟩
  rw [hn, laidOut, Nat.add_sub_cancel_left, show n.toNat + m.toNat + 2 - (2 + n.toNat) = m.toNat by
    omega]

/-- Reading never leaves the list, whatever the counts are. -/
theorem ofParamsInWords_eq (params : List Param) :
    ofParamsInWords params = Machine.ofExcept (ofParams params) := by
  cases hfront : requireUnsigned params 2 with
  | error failure =>
    unfold ofParamsInWords ofParams
    rw [hfront]
    rfl
  | ok =>
    obtain ⟨hlength, hunsigned⟩ := requireUnsigned_eq_ok.1 hfront
    match params with
    | [] => simp at hlength
    | [_] => simp at hlength
    | p :: q :: lengths =>
      rw [ofParams_cons (hunsigned p (by simp)) (hunsigned q (by simp)), ofParamsInWords, hfront]
      show (match sizeWord? p.bits q.bits with
        | none => _
        | some required => _) = _
      by_cases hword : UInt64.size ≤ size p.bits q.bits
      · rw [sizeWord?_eq_none hword, if_pos hword]
      · have hfits := Nat.lt_of_not_le hword
        obtain ⟨required, hrequired, hsize⟩ := sizeWord?_eq_some hfits
        simp only [hrequired, if_neg hword, hsize]
        cases hr : requireUnsigned (p :: q :: lengths) (size p.bits q.bits) with
        | error failure => rfl
        | ok =>
          obtain ⟨hthere, hall⟩ := requireUnsigned_eq_ok.1 hr
          have hlaid : Laid p.bits q.bits (p :: q :: lengths) := ⟨rfl, rfl, hfits, hthere, hall⟩
          obtain ⟨inputs, results, hin, hres, hshape⟩ := hlaid.slices
          simp only [hin, hres, hshape]
          rfl

/-! ### The law of reading -/

/-- What comes of reading a parameter list. -/
structure Reading (params : List Param) : Prop where
  /-- Exactly the lists that begin with a layout are read. -/
  accepts : (∃ s, ofParams params = .ok s) ↔ ∃ n m, Laid n m params
  /-- The shape has as many lengths as the counts say, the values behind them. -/
  yields : ∀ n m, Laid n m params → ofParams params = .ok (laidOut n m params) ∧
    (laidOut n m params).inputs.length = n.toNat ∧ (laidOut n m params).results.length = m.toNat
  /-- Neither names nor what is behind the layout make a difference. -/
  ignores : ∀ n m others, Laid n m params →
    (others.take (size n m)).map Param.content = (params.take (size n m)).map Param.content →
      ofParams others = ofParams params
  /-- Written again, the shape has the types and the values of the layout. -/
  rewrites : ∀ n m, Laid n m params →
    (laidOut n m params).toParams.map Param.content = (params.take (size n m)).map Param.content
  /-- Any other list is refused as an invalid argument. -/
  refuses : (∀ n m, ¬ Laid n m params) →
    ∃ failure, ofParams params = .error failure ∧ failure.code = .invalidArgs
  /-- Read in words, no slice leaves the list, whether it is accepted or not. -/
  inWords : ofParamsInWords params = Machine.ofExcept (ofParams params)

/-- **Reading accepts exactly the layouts and undoes writing.** Every parameter list is read as the
layout at its front says or refused, and every shape whose lengths a word can count is read back
from what it is written as. -/
theorem ofParams_reading (params : List Param) :
    Reading params ∧ ∀ s : GenericShape,
      s.inputs.length + s.results.length < UInt64.size - 2 → ofParams s.toParams = .ok s := by
  constructor
  case left =>
    constructor
    case accepts =>
      exact ⟨fun ⟨s, hs⟩ => laid_of_ofParams hs, fun ⟨n, m, h⟩ => ⟨_, ofParams_laid h⟩⟩
    case yields => exact fun n m h => ⟨ofParams_laid h, h.length_inputs, h.length_results⟩
    case ignores =>
      intro n m others h hc
      rw [ofParams_laid (h.congr hc), ofParams_laid h, laidOut_congr hc]
    case rewrites => exact fun n m h => h.toParams
    case refuses =>
      intro hn
      cases hs : ofParams params with
      | ok s =>
        obtain ⟨n, m, h⟩ := laid_of_ofParams hs
        exact absurd h (hn n m)
      | error failure => exact ⟨failure, rfl, ofParams_failure params failure hs⟩
    case inWords => exact ofParamsInWords_eq params
  case right =>
    intro s hs
    obtain ⟨hlaid, hshape⟩ := laid_toParams hs
    rw [ofParams_laid hlaid, hshape]

/-- Two inputs and one component of the result, named differently and with a parameter too many. -/
def renamed : List Param :=
  [.ofUInt64 "inputs" 2, .ofUInt64 "" 1, .ofUInt64 "m" 7, .ofUInt64 "m" 0, .ofUInt64 "n" 9,
    .ofInt64 "rest" (-1)]

/-- They are read by place, and the shape of no inputs but a component is read back. -/
theorem ofParams_reading_renamed : ofParams renamed = .ok ⟨[7, 0], [9]⟩ ∧
    ofParams (GenericShape.mk [] [5]).toParams = .ok ⟨[], [5]⟩ := by
  obtain ⟨reading, back⟩ := ofParams_reading renamed
  have hlaid : Laid 2 1 renamed := ⟨by decide, by decide, by decide, by decide, by decide⟩
  exact ⟨(reading.yields 2 1 hlaid).1, back ⟨[], [5]⟩ (by decide)⟩

end GenericShape

end HandleBench
