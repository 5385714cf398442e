import HandleBench.Proofs.Moves
import Mathlib.Data.List.Nodup

/-!
# Ledgers

A host can keep books: which handles it holds and what they grant, which handles of catalog entries
it was given, and which values were put into payloads. It enters what it sees, so a shared handle is
booked under the payload of its source. The books and the world agree at all times: what is booked
is there, and each payload has as many holders as handles are booked under it.
-/

namespace HandleBench

/-- What a host knows of its handles. -/
structure Ledger where
  /-- The handles that were made and not released, each with what it grants. -/
  held : List (Handle × Grant)
  /-- The handles of catalog entries. -/
  entries : List Handle
  /-- The values put into payloads, in the order in which the payloads were made. -/
  values : List Payload

namespace Ledger

/-- The ledger before anything has happened. -/
def empty : Ledger := ⟨[], [], []⟩

/-- What a handle was booked under. -/
def grant? (l : Ledger) (h : Handle) : Option Grant := l.held.lookup h

/-- One more handle. -/
def gain (l : Ledger) (h : Handle) (g : Grant) : Ledger := { l with held := (h, g) :: l.held }

/-- A handle less. -/
def lose (l : Ledger) (h : Handle) : Ledger := { l with held := l.held.filter (·.1 != h) }

/-- How many handles are booked under the payload of a root: they descend from its first handle. -/
def heirs (l : Ledger) (root : Nat) : Nat := l.held.countP (·.2.root? == some root)

/-- The ledger after an event. The root of a new payload is the count of those made before. -/
def enter (l : Ledger) : Event → Ledger
  | .nothing => l
  | .entries hs => { l with entries := l.entries ++ hs }
  | .engine h session => l.gain h (.engine session)
  | .benchmark h session => l.gain h (.benchmark session)
  | .created h session value =>
    { l.gain h (.object session l.values.length) with values := l.values ++ [value] }
  | .shared h source =>
    match l.grant? source with
    | some g => l.gain h g
    | none => l
  | .released h => l.lose h

/-- A handle that the host was given and has not released, or a null one. -/
def Knows (l : Ledger) (h : Handle) : Prop :=
  h.isNull = true ∨ h ∈ l.entries ∨ ∃ g, (h, g) ∈ l.held

instance (l : Ledger) (h : Handle) : Decidable (l.Knows h) :=
  decidable_of_iff (h.isNull = true ∨ h ∈ l.entries ∨ h ∈ l.held.map (·.1)) (by simp [Knows])

/-- The handle was made as one of the kind. -/
def Issued (l : Ledger) (h : Handle) : Kind → Prop
  | .entry => h ∈ l.entries
  | k => ∃ g, (h, g) ∈ l.held ∧ g.kind = k

/-! ### Agreement with the world -/

/-- What is booked is there. -/
structure Backed (l : Ledger) (w : World) : Prop where
  /-- Every handle leads to what it was booked under. -/
  leads : ∀ x ∈ l.held, w.grantAt x.1.pointer = some x.2
  /-- Whatever is there is booked. -/
  complete : ∀ p g, w.grantAt p = some g → ∃ x ∈ l.held, x.1.pointer = p
  /-- The class bits of its tag are those of its kind. -/
  classes : ∀ x ∈ l.held, x.1.tag.classBits = x.2.kind.bits
  /-- The tag of an engine has no other bits. -/
  engines : ∀ x ∈ l.held, x.2.kind = .engine → x.1.tag = .engine
  /-- No two handles lead to the same cell. -/
  distinct : (l.held.map (·.1.pointer)).Nodup
  /-- Handles of catalog entries are as they were given. -/
  descriptors : ∀ h ∈ l.entries, ∃ i, h = .descriptor i

/-- Each payload has the value put into it and as many holders as heirs are booked. -/
structure Counted (l : Ledger) (w : World) : Prop where
  /-- All payloads are booked. -/
  size : w.payloads.size = l.values.length
  /-- Handles are booked under payloads that were made. -/
  rooted : ∀ x ∈ l.held, ∀ root, x.2.root? = some root → root < l.values.length
  /-- A payload is there while it has heirs. -/
  payload : ∀ root value, l.values[root]? = some value →
    w.payload? root = if l.heirs root = 0 then none else some ⟨value, l.heirs root⟩

/-- The books and the world agree. -/
structure Agrees (l : Ledger) (w : World) : Prop where
  /-- What is booked is there. -/
  backed : l.Backed w
  /-- Payloads are counted right. -/
  counted : l.Counted w

variable {l : Ledger} {w w' : World} {h : Handle} {g : Grant} {k : Kind}

/-! ### What is known of the handles of a host -/

theorem Backed.unique (hb : l.Backed w) {x y : Handle × Grant} (hx : x ∈ l.held) (hy : y ∈ l.held)
    (hp : x.1.pointer = y.1.pointer) : x = y :=
  List.inj_on_of_nodup_map hb.distinct hx hy hp

theorem Backed.grant?_eq (hb : l.Backed w) (hm : (h, g) ∈ l.held) : l.grant? h = some g := by
  cases hg : l.grant? h with
  | none =>
    have := List.lookup_eq_none_iff.1 hg (h, g) hm
    simp at this
  | some g' =>
    obtain ⟨l₁, l₂, hl, -⟩ := List.lookup_eq_some_iff.1 hg
    have hm' : (h, g') ∈ l.held := by
      rw [hl]
      simp
    cases hb.unique hm hm' rfl
    rfl

/-- Handles that lead to a cell are no null handles and none of catalog entries. -/
theorem Backed.held_of_leads (hb : l.Backed w) (hk : l.Knows h)
    (hg : w.grantAt h.pointer = some g) : (h, g) ∈ l.held := by
  rcases hk with hn | he | ⟨g', hm⟩
  · rw [World.grantAt_null hn] at hg
    cases hg
  · obtain ⟨i, rfl⟩ := hb.descriptors h he
    cases hg
  · rw [hb.leads _ hm] at hg
    obtain rfl := Option.some.inj hg
    exact hm

/-- A tag claims the kind that its handle was made as, and no other. -/
theorem Backed.kind_of_claims (hb : l.Backed w) (hm : (h, g) ∈ l.held) (hc : h.tag.Claims k) :
    k = g.kind :=
  Tag.Claims.unique (hb.classes _ hm) hc

theorem Backed.claims (hb : l.Backed w) (hm : (h, g) ∈ l.held) : h.tag.Claims g.kind :=
  Tag.claims_of_classBits (hb.classes _ hm) (hb.engines _ hm)

theorem Backed.kind_of_entry (hb : l.Backed w) (hm : h ∈ l.entries) (hc : h.tag.Claims k) :
    k = .entry := by
  obtain ⟨i, rfl⟩ := hb.descriptors h hm
  exact Tag.Claims.unique (show Tag.descriptor.classBits = Kind.entry.bits by decide) hc

/-- A host that passes what it knows is honest. -/
theorem Backed.honest (hb : l.Backed w) (hk : l.Knows h) : w.Honest h := by
  intro k hc
  rcases hk with hn | he | ⟨g, hm⟩
  · exact .inl hn
  · obtain rfl := hb.kind_of_entry he hc
    exact .inr ⟨hc, fun hne => absurd rfl hne⟩
  · exact .inr ⟨hc, fun _ => ⟨g, hb.leads _ hm, (hb.kind_of_claims hm hc).symm⟩⟩

/-- What is taken for one of a kind was made as one. -/
theorem Backed.issued (hb : l.Backed w) (hk : l.Knows h) (hr : w.ReadAs h k) :
    l.Issued h k ∨ k = .entry ∧ h.isNull = true := by
  by_cases he : k = .entry
  · subst he
    rcases hk with hn | hm | ⟨g, hm⟩
    · exact .inr ⟨rfl, hn⟩
    · exact .inl hm
    · have := hb.kind_of_claims hm hr.1
      cases g <;> cases this
  · obtain ⟨g, hg, hgk⟩ := hr.2 he
    have hm := hb.held_of_leads hk hg
    refine .inl ?_
    cases k with
    | entry => exact absurd rfl he
    | _ => exact ⟨g, hm, hgk⟩

/-! ### Counting -/

/-- How many handles are booked under what `counts` says. -/
def tally (l : Ledger) (counts : Grant → Bool) : Nat := l.held.countP (counts ·.2)

theorem tally_gain (l : Ledger) (h : Handle) (g : Grant) (counts : Grant → Bool) :
    (l.gain h g).tally counts = l.tally counts + if counts g then 1 else 0 := by
  simp [tally, gain, List.countP_cons]

theorem heirs_eq_tally (l : Ledger) (root : Nat) :
    l.heirs root = l.tally (·.root? == some root) := rfl

theorem heirs_gain (l : Ledger) (h : Handle) (g : Grant) (root : Nat) :
    (l.gain h g).heirs root = l.heirs root + if g.root? = some root then 1 else 0 := by
  rw [heirs_eq_tally, heirs_eq_tally, tally_gain]
  simp

/-- A handle that is lost was booked once. -/
theorem Backed.perm_lose (hb : l.Backed w) (hm : (h, g) ∈ l.held) :
    l.held.Perm ((h, g) :: (l.lose h).held) := by
  have hn : l.held.Nodup := hb.distinct.of_map _
  have he : l.held.erase (h, g) = l.held.filter (·.1 != h) := by
    rw [hn.erase_eq_filter]
    refine List.filter_congr fun x hx => ?_
    by_cases hxh : x.1 = h
    · obtain rfl : x = (h, g) := hb.unique hx hm (by rw [hxh])
      simp
    · have hne : x ≠ (h, g) := fun hx' => hxh (by rw [hx'])
      rw [bne_iff_ne.2 hne, bne_iff_ne.2 hxh]
  rw [lose, ← he]
  exact List.perm_cons_erase hm

/-- Losing a handle takes it out of the books wherever it stands. -/
theorem Backed.held_lose {before after : List (Handle × Grant)} (hb : l.Backed w)
    (hl : l.held = before ++ (h, g) :: after) : (l.lose h).held = before ++ after := by
  have others : ∀ x ∈ before ++ after, x.1 ≠ h := by
    intro x hx he
    have hn := hb.distinct
    rw [hl, List.map_append, List.map_cons, List.nodup_middle, ← List.map_append] at hn
    exact (List.nodup_cons.1 hn).1 (List.mem_map.2 ⟨x, hx, by rw [he]⟩)
  have keep : ∀ xs : List (Handle × Grant), (∀ x ∈ xs, x.1 ≠ h) →
      xs.filter (fun x => x.1 != h) = xs := fun xs hxs =>
    List.filter_eq_self.2 fun x hx => bne_iff_ne.2 (hxs x hx)
  rw [Ledger.lose, hl]
  show (before ++ (h, g) :: after).filter (fun x => x.1 != h) = _
  rw [List.filter_append, List.filter_cons_of_neg (by simp),
    keep before fun x hx => others x (List.mem_append_left _ hx),
    keep after fun x hx => others x (List.mem_append_right _ hx)]

theorem Backed.tally_lose (hb : l.Backed w) (hm : (h, g) ∈ l.held) (counts : Grant → Bool) :
    l.tally counts = (l.lose h).tally counts + if counts g then 1 else 0 := by
  rw [tally, (hb.perm_lose hm).countP_eq]
  simp [tally, List.countP_cons]

theorem Backed.heirs_lose (hb : l.Backed w) (hm : (h, g) ∈ l.held) (root : Nat) :
    l.heirs root = (l.lose h).heirs root + if g.root? = some root then 1 else 0 := by
  rw [heirs_eq_tally, heirs_eq_tally, hb.tally_lose hm]
  simp

theorem heirs_pos (hm : (h, g) ∈ l.held) {root : Nat} (hr : g.root? = some root) :
    0 < l.heirs root :=
  List.countP_pos_iff.2 ⟨(h, g), hm, by simp [hr]⟩

theorem Counted.heirs_eq_zero (hc : l.Counted w) : l.heirs l.values.length = 0 := by
  refine List.countP_eq_zero.2 fun x hx => ?_
  simp only [beq_iff_eq]
  intro hr
  exact absurd (hc.rooted x hx _ hr) (Nat.lt_irrefl _)

/-! ### What comes into the books -/

variable {event : Event} {id : SessionId} {root : Nat}

/-- Values stay in the books. -/
theorem values_enter (l : Ledger) (event : Event) : l.values <+: (l.enter event).values := by
  cases event with
  | created h session value => exact List.prefix_append _ _
  | shared h source =>
    rw [enter]
    split <;> exact List.prefix_refl _
  | _ => exact List.prefix_refl _

/-- A handle that an event does not release stays in the books. -/
theorem held_enter (hm : (h, g) ∈ l.held) (hstays : event ≠ .released h) :
    (h, g) ∈ (l.enter event).held := by
  cases event with
  | nothing | entries => exact hm
  | engine | benchmark | created => exact List.mem_cons_of_mem _ hm
  | shared x source =>
    rw [enter]
    split
    · exact List.mem_cons_of_mem _ hm
    · exact hm
  | released x =>
    have hne : h ≠ x := fun heq => hstays (heq ▸ rfl)
    exact List.mem_filter.2 ⟨hm, bne_iff_ne.2 hne⟩

/-- An object that is booked after an event was booked before it, or it has come with the event. -/
theorem object_of_enter (hm : (h, .object id root) ∈ (l.enter event).held) :
    (h, .object id root) ∈ l.held ∨
      (∃ value, event = .created h id value ∧ root = l.values.length) ∨
        ∃ source, event = .shared h source ∧ (source, .object id root) ∈ l.held := by
  cases event with
  | nothing | entries => exact .inl hm
  | engine h' session | benchmark h' session =>
    rcases List.mem_cons.1 hm with heq | hm
    · cases heq
    · exact .inl hm
  | created h' session value =>
    rcases List.mem_cons.1 hm with heq | hm
    · cases heq
      exact .inr (.inl ⟨value, rfl, rfl⟩)
    · exact .inl hm
  | shared h' source =>
    rw [enter] at hm
    split at hm
    · next g hg =>
      rcases List.mem_cons.1 hm with heq | hm
      · cases heq
        obtain ⟨before, after, hl, -⟩ := List.lookup_eq_some_iff.1 hg
        exact .inr (.inr ⟨source, rfl, by rw [hl]; simp⟩)
      · exact .inl hm
    · exact .inl hm
  | released h' => exact .inl (List.mem_filter.1 hm).1

/-- What comes with an event was not booked before. -/
theorem Backed.ne_minted (hb : l.Backed w) (hm : (h, g) ∈ l.held)
    (hc : w.Change w' event) : event.minted? ≠ some h := by
  have fresh : ∀ {h' : Handle} {g' : Grant}, w.Gains w' h' g' → h' ≠ h := by
    rintro h' g' hg rfl
    have hl := hb.leads _ hm
    rw [hg.fresh] at hl
    cases hl
  intro he
  cases hc with
  | created _ gains _ => exact fresh gains (Option.some.inj he)
  | shared _ _ gains _ => exact fresh gains (Option.some.inj he)
  | _ => cases he

/-! ### What the books settle -/

/-- What is there is settled by the books. -/
theorem Backed.grantAt_eq {l' : Ledger} (hb : l.Backed w) (hb' : l'.Backed w')
    (hl : l'.held = l.held) : w'.grantAt = w.grantAt := by
  have sub : ∀ {l l' : Ledger} {w w' : World}, l.Backed w → l'.Backed w' → l'.held = l.held →
      ∀ p g, w.grantAt p = some g → w'.grantAt p = some g := by
    intro l l' w w' hb hb' hl p g hg
    obtain ⟨x, hx, rfl⟩ := hb.complete p g hg
    have hleads := hb.leads x hx
    rw [hg] at hleads
    rw [hb'.leads x (hl ▸ hx), ← hleads]
  funext p
  cases hg : w.grantAt p with
  | some g => exact sub hb hb' hl p g hg
  | none =>
    cases hg' : w'.grantAt p with
    | none => rfl
    | some g =>
      have := sub hb' hb hl.symm p g hg'
      rw [hg] at this
      cases this

/-- So are the payloads, if no other was booked. -/
theorem Counted.payload?_eq {l' : Ledger} (hc : l.Counted w) (hc' : l'.Counted w')
    (hl : l'.held = l.held) (hv : l.values <+: l'.values) : w'.payload? = w.payload? := by
  have hheirs : ∀ root, l'.heirs root = l.heirs root := fun root => by rw [heirs, heirs, hl]
  have none_of_le : ∀ {w : World} {root : Nat}, w.payloads.size ≤ root → w.payload? root = none :=
    fun hle => by rw [World.payload?, Array.getElem?_eq_none hle]; rfl
  funext root
  by_cases hlt : root < l.values.length
  · have hval := List.getElem?_eq_getElem hlt
    rw [hc.payload root _ hval, hc'.payload root _ (List.prefix_iff_getElem?.1 hv root hlt), hheirs]
  · rw [none_of_le (w := w) (by rw [hc.size]; omega)]
    by_cases hlt' : root < l'.values.length
    · -- nothing that is held was booked under a payload that was made in between
      have hz : l.heirs root = 0 := by
        refine List.countP_eq_zero.2 fun x hx => ?_
        simp only [beq_iff_eq]
        intro hr
        exact hlt (hc.rooted x hx root hr)
      rw [hc'.payload root _ (List.getElem?_eq_getElem hlt'), hheirs, if_pos hz]
    · exact none_of_le (by rw [hc'.size]; omega)

/-! ### Agreement is kept -/

theorem Backed.congr (hb : l.Backed w) (hg : w'.grantAt = w.grantAt) : l.Backed w' :=
  ⟨by rw [hg]; exact hb.leads, by rw [hg]; exact hb.complete, hb.classes, hb.engines, hb.distinct,
    hb.descriptors⟩

theorem Backed.gain (hb : l.Backed w) (hg : w.Gains w' h g)
    (hc : h.tag.classBits = g.kind.bits) (he : g.kind = .engine → h.tag = .engine) :
    (l.gain h g).Backed w' := by
  refine ⟨?_, fun p g' hp => ?_, ?_, ?_, ?_, hb.descriptors⟩
  · refine List.forall_mem_cons.2 ⟨by rw [hg.grantAt, if_pos rfl], fun x hx => ?_⟩
    rw [hg.grantAt]
    split
    · next hp =>
      -- the cell is fresh, so no handle that was booked before leads there
      have hl := hb.leads x hx
      rw [hp, hg.fresh] at hl
      cases hl
    · exact hb.leads x hx
  · rw [hg.grantAt] at hp
    split at hp
    · next he => exact ⟨(h, g), List.mem_cons_self, he.symm⟩
    · obtain ⟨x, hx, hxp⟩ := hb.complete p g' hp
      exact ⟨x, List.mem_cons_of_mem _ hx, hxp⟩
  · exact List.forall_mem_cons.2 ⟨hc, hb.classes⟩
  · exact List.forall_mem_cons.2 ⟨he, hb.engines⟩
  · refine List.nodup_cons.2 ⟨fun hm => ?_, hb.distinct⟩
    obtain ⟨x, hx, hp⟩ := List.mem_map.1 hm
    have hl := hb.leads x hx
    rw [hp, hg.fresh] at hl
    cases hl

theorem Backed.lose (hb : l.Backed w) (hm : (h, g) ∈ l.held)
    (hg : ∀ p, w'.grantAt p = if p = h.pointer then none else w.grantAt p) :
    (l.lose h).Backed w' := by
  have rest : ∀ x ∈ (l.lose h).held, x ∈ l.held ∧ x.1 ≠ h := fun x hx => by
    simpa [Ledger.lose] using hx
  refine ⟨fun x hx => ?_, fun p g' hp => ?_, fun x hx => hb.classes x (rest x hx).1,
    fun x hx => hb.engines x (rest x hx).1, ?_, hb.descriptors⟩
  · obtain ⟨hx, hne⟩ := rest x hx
    have hp : x.1.pointer ≠ h.pointer := fun hp => hne (congrArg Prod.fst (hb.unique hx hm hp))
    rw [hg, if_neg hp]
    exact hb.leads x hx
  · rw [hg] at hp
    split at hp
    · cases hp
    · next hne =>
      obtain ⟨x, hx, rfl⟩ := hb.complete p g' hp
      exact ⟨x, by simpa [Ledger.lose] using ⟨hx, fun he => hne (by rw [he])⟩, rfl⟩
  · exact hb.distinct.sublist ((List.filter_sublist).map _)

theorem Backed.entries (hb : l.Backed w) {hs : List Handle}
    (hd : ∀ h ∈ hs, ∃ i, h = .descriptor i) : { l with entries := l.entries ++ hs }.Backed w := by
  refine ⟨hb.leads, hb.complete, hb.classes, hb.engines, hb.distinct, fun h hm => ?_⟩
  rcases List.mem_append.1 hm with hm | hm
  · exact hb.descriptors h hm
  · exact hd h hm

theorem Counted.congr (hc : l.Counted w) (hp : w'.payloads = w.payloads) : l.Counted w' :=
  ⟨by rw [hp]; exact hc.size, hc.rooted, by rw [World.payload?_congr hp]; exact hc.payload⟩

/-- Engines and benchmarks do not count. -/
theorem Counted.gain_rootless (hc : l.Counted w) (hp : w'.payloads = w.payloads)
    (hr : g.root? = none) : (l.gain h g).Counted w' := by
  refine ⟨by rw [hp]; exact hc.size, List.forall_mem_cons.2 ⟨by simp [hr], hc.rooted⟩, ?_⟩
  intro root value hv
  rw [heirs_gain, hr, World.payload?_congr hp]
  exact hc.payload root value hv

theorem Counted.payload_of_heirs (hc : l.Counted w) {root : Nat} {value : Payload}
    (hv : l.values[root]? = some value) (hh : 0 < l.heirs root) :
    w.payload? root = some ⟨value, l.heirs root⟩ := by
  rw [hc.payload root value hv, if_neg (Nat.ne_of_gt hh)]

/-- The first handle of a payload is its only heir. -/
theorem Counted.create (hc : l.Counted w) {session : SessionId} {value : Payload}
    (hp : w'.payloads = w.payloads.push (some ⟨value, 1⟩)) :
    { l.gain h (.object session l.values.length) with
      values := l.values ++ [value] }.Counted w' := by
  have hh : ∀ root, heirs { l.gain h (.object session l.values.length) with
      values := l.values ++ [value] } root =
        l.heirs root + if l.values.length = root then 1 else 0 := fun root => by
    refine (l.heirs_gain h (.object session l.values.length) root).trans ?_
    simp [Grant.root?]
  refine ⟨by rw [hp, Array.size_push, hc.size, List.length_append]; rfl, ?_, ?_⟩
  · rw [List.length_append]
    refine List.forall_mem_cons.2 ⟨fun root hr => ?_, fun x hx root hr => ?_⟩
    · cases hr
      exact Nat.lt_succ_self _
    · exact Nat.lt_succ_of_lt (hc.rooted x hx root hr)
  · intro root v hv
    rw [World.payload?_push hp, hc.size, hh]
    by_cases hr : root = l.values.length
    · subst hr
      obtain rfl : value = v := by simpa using hv
      -- roots are counts of payloads made before, so nothing is booked under the new one yet
      simp [hc.heirs_eq_zero]
    · have hv : l.values[root]? = some v := by
        have hlt := (List.getElem?_eq_some_iff.1 hv).1
        rw [List.length_append, List.length_singleton] at hlt
        rwa [List.getElem?_append_left (by omega)] at hv
      rw [if_neg hr, if_neg (Ne.symm hr), Nat.add_zero]
      exact hc.payload root v hv

/-- One more handle of a payload is one more heir. -/
theorem Counted.share (hc : l.Counted w) {source : Handle} {session : SessionId} {root : Nat}
    (hm : (source, .object session root) ∈ l.held)
    (hp : w'.payloads = (w.addHolder root).payloads) :
    (l.gain h (.object session root)).Counted w' := by
  refine ⟨?_, List.forall_mem_cons.2 ⟨fun r hr => hc.rooted _ hm r hr, hc.rooted⟩, ?_⟩
  · rw [hp, World.addHolder, Array.size_modify]
    exact hc.size
  · intro r v hv
    rw [World.payload?_congr hp, World.payload?_addHolder, heirs_gain]
    by_cases hr : r = root
    · subst hr
      rw [if_pos rfl, hc.payload_of_heirs hv (heirs_pos hm rfl)]
      simp [Grant.root?, World.SharedPayload.hold]
    · have hr' : (Grant.object session root).root? ≠ some r := fun h => hr (Option.some.inj h).symm
      rw [if_neg hr, if_neg hr', Nat.add_zero]
      exact hc.payload r v hv

theorem Counted.lose_rootless (hc : l.Counted w) (hb : l.Backed w) (hm : (h, g) ∈ l.held)
    (hp : w'.payloads = w.payloads) (hr : g.root? = none) : (l.lose h).Counted w' := by
  refine ⟨?_, fun x hx => hc.rooted x (List.mem_of_mem_filter hx), fun root v hv => ?_⟩
  · rw [hp]
    exact hc.size
  · have hl := hb.heirs_lose hm root
    rw [if_neg (by simp [hr]), Nat.add_zero] at hl
    rw [World.payload?_congr hp, ← hl]
    exact hc.payload root v hv

/-- With a handle an heir goes, and with the last heir the payload. -/
theorem Counted.lose (hc : l.Counted w) (hb : l.Backed w) (hm : (h, g) ∈ l.held)
    (hp : w'.payloads = (w.letGo g).payloads) : (l.lose h).Counted w' := by
  cases g with
  | object session root =>
    refine ⟨?_, fun x hx => hc.rooted x (List.mem_of_mem_filter hx), fun r v hv => ?_⟩
    · rw [hp, World.letGo, World.dropHolder, Array.size_modify]
      exact hc.size
    · have hl := hb.heirs_lose hm r
      rw [World.payload?_congr hp, World.letGo, World.payload?_dropHolder]
      by_cases hr : r = root
      · subst hr
        rw [if_pos (show (Grant.object session r).root? = some r from rfl)] at hl
        rw [if_pos rfl, hc.payload_of_heirs hv (heirs_pos hm rfl), hl]
        simp only [Option.bind_some, World.SharedPayload.drop, Nat.add_sub_cancel]
        by_cases hz : (l.lose h).heirs r = 0
        · rw [if_pos (by omega), if_pos hz]
        · rw [if_neg (by omega), if_neg hz]
      · have hr' : (Grant.object session root).root? ≠ some r :=
          fun h => hr (Option.some.inj h).symm
        rw [if_neg hr', Nat.add_zero] at hl
        rw [if_neg hr, ← hl]
        exact hc.payload r v hv
  | engine session => exact hc.lose_rootless hb hm hp rfl
  | benchmark session => exact hc.lose_rootless hb hm hp rfl

/-- A holder that comes and goes leaves a payload as it is. -/
theorem Counted.pass (hc : l.Counted w) {source : Handle} {session : SessionId} {root : Nat}
    (hm : (source, .object session root) ∈ l.held)
    (hp : w'.payloads = ((w.addHolder root).dropHolder root).payloads) : l.Counted w' := by
  refine ⟨?_, hc.rooted, fun r v hv => ?_⟩
  · rw [hp, World.dropHolder, World.addHolder, Array.size_modify, Array.size_modify]
    exact hc.size
  · rw [World.payload?_congr hp, World.payload?_dropHolder, World.payload?_addHolder]
    by_cases hr : r = root
    · subst hr
      have hh : 0 < l.heirs r := heirs_pos hm rfl
      rw [if_pos rfl, if_pos rfl, hc.payload_of_heirs hv hh, if_neg (Nat.ne_of_gt hh)]
      simp only [Option.map_some, World.SharedPayload.hold, Option.bind_some,
        World.SharedPayload.drop, Nat.add_sub_cancel]
      rw [if_neg (by omega)]
    · rw [if_neg hr, if_neg hr]
      exact hc.payload r v hv

/-- The books and the world agree after whatever has happened, provided it happened to handles that
the host knew. -/
theorem Agrees.enter (ha : l.Agrees w) {event : Event} (hc : w.Change w' event)
    (hk : ∀ x ∈ event.given, l.Knows x) : (l.enter event).Agrees w' := by
  cases hc with
  | nothing grants payloads => exact ⟨ha.backed.congr grants, ha.counted.congr payloads⟩
  | passed held grants payloads =>
    obtain ⟨x, hm, hp⟩ := ha.backed.complete _ _ held
    have hg := ha.backed.leads x hm
    rw [hp, held] at hg
    obtain ⟨h, g⟩ := x
    obtain rfl := Option.some.inj hg
    exact ⟨ha.backed.congr grants, ha.counted.pass hm payloads⟩
  | entries descriptors grants payloads =>
    exact ⟨(ha.backed.congr grants).entries descriptors,
      ⟨(ha.counted.congr payloads).size, ha.counted.rooted, (ha.counted.congr payloads).payload⟩⟩
  | engine tag gains payloads =>
    exact ⟨ha.backed.gain gains (tag ▸ Tag.classBits_engine) fun _ => tag,
      ha.counted.gain_rootless payloads rfl⟩
  | benchmark tag gains payloads =>
    exact ⟨ha.backed.gain gains tag (by simp), ha.counted.gain_rootless payloads rfl⟩
  | @created h session value tag gains payloads =>
    rw [ha.counted.size] at gains
    have hb := ha.backed.gain gains tag (by simp)
    exact ⟨⟨hb.leads, hb.complete, hb.classes, hb.engines, hb.distinct, hb.descriptors⟩,
      ha.counted.create payloads⟩
  | @shared h source session root held tag gains payloads =>
    have hm := ha.backed.held_of_leads (hk source (by simp [Event.given])) held
    have hc : h.tag.classBits = Kind.object.bits := by
      rcases tag with tag | tag
      · exact tag
      · rw [tag]
        exact ha.backed.classes _ hm
    rw [Ledger.enter, ha.backed.grant?_eq hm]
    exact ⟨ha.backed.gain gains hc (by simp), ha.counted.share hm payloads⟩
  | @released h g held grants payloads =>
    have hm := ha.backed.held_of_leads (hk h (by simp [Event.given])) held
    exact ⟨ha.backed.lose hm grants, ha.counted.lose ha.backed hm payloads⟩

end Ledger

end HandleBench
