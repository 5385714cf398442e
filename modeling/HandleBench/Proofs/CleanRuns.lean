import HandleBench.Proofs.Stages
import HandleBench.Run

/-!
# Runs leave nothing behind

A run keeps a list of the handles that it has to release. The iterations drop the result before from
it and put the new one on, and the pipeline may be refused at any step, but at all times the list
names the objects that the run holds, the latest first and each of them once: `Run.At`. So releasing
what is on the list leaves the benchmark, and releasing the benchmark leaves what was there before
the run, however the run has ended.
-/

namespace HandleBench

/-- What is described is a catalog entry of the engine. -/
theorem Engine.mem_entries_of_describeAt {e : Engine} {index : Nat} {h : Handle}
    {descriptor : Descriptor} {sets : List (List Param)}
    (hd : e.describeAt index = .ok (h, descriptor, sets)) : h ∈ e.entries := by
  unfold describeAt at hd
  split at hd
  · cases hd
  · next h' hentry =>
    obtain ⟨arity, -, hd⟩ := Except.bind_eq_ok.1 hd
    obtain ⟨count, -, hd⟩ := Except.bind_eq_ok.1 hd
    dsimp only at hd
    split at hd
    · cases hd
      exact List.mem_of_getElem? hentry
    · cases hd

namespace Run

open Host (Stage)

variable {α β : Type} {h b loaded : Handle} {e : Engine} {s t : Host} {st : State}
  {gs : List (Handle × Grant)} {job : Job}

/-! ### Acts of a run -/

theorem onWorld_apply (act : Act World α) (st : State) :
    onWorld act st = ((act st.world).1, { st with world := (act st.world).2 }) := rfl

@[simp] theorem ends_onWorld {act : Act World α} {yields : α → State → Prop}
    {stops : Stop → State → Prop} :
    (onWorld act).Ends st yields stops ↔
      act.Ends st.world (fun a w => yields a { st with world := w })
        (fun reason w => stops reason { st with world := w }) := by
  unfold Act.Ends
  rw [onWorld_apply]
  cases act st.world with
  | mk result w => cases result <;> rfl

/-- A run with the engine `e` behind `h` that began at `t` and measures the benchmark behind `b`
holds `gs` besides the benchmark, and that is what it is going to release. -/
structure At (h : Handle) (e : Engine) (t : Host) (b : Handle) (gs : List (Handle × Grant))
    (st : State) : Prop where
  /-- What is held. -/
  stage : ∃ s, Stage h e t (gs ++ [(b, .benchmark e.session)]) s ∧ s.world = st.world
  /-- What is to be released. -/
  owned : st.owned = gs.map Prod.fst

/-- Wherever the act ends, the run knows what it has to release. -/
def Tidy (h : Handle) (e : Engine) (t : Host) (b : Handle) (act : Act State α) (st : State)
    (yields : α → State → Prop) : Prop :=
  act.Ends st yields fun reason st' => e.Admits reason ∧ ∃ gs, At h e t b gs st'

theorem Tidy.bind {act : Act State α} {next : α → Act State β} {through : α → State → Prop}
    {yields : β → State → Prop} (ht : Tidy h e t b act st through)
    (hn : ∀ a st', through a st' → Tidy h e t b (next a) st' yields) :
    Tidy h e t b (act >>= next) st yields :=
  Act.ends_bind.2 (Act.Ends.mono ht hn fun _ _ hs => hs)

/-- The handle is null or one of those that the run is going to release. -/
def Usable (gs : List (Handle × Grant)) (x : Handle) : Prop := x.isNull = true ∨ ∃ g, (x, g) ∈ gs

theorem usable_head (x : Handle) (g : Grant) : Usable ((x, g) :: gs) x :=
  .inr ⟨g, List.mem_cons_self⟩

theorem At.not_null {x : Handle} {g : Grant} (hat : At h e t b ((x, g) :: gs) st) :
    x.isNull = false := by
  obtain ⟨s, hst, -⟩ := hat.stage
  have hl := hst.reachable.agrees.backed.leads (x, g) (hst.mem List.mem_cons_self)
  cases hn : x.isNull with
  | false => rfl
  | true =>
    rw [World.grantAt_null hn] at hl
    cases hl

/-- After a job of the benchmark the run holds the first of the handles that were made, and knows of
it as soon as it has put it on its list. -/
theorem At.give {act : Act World α} {made : α → List Handle} (hat : At h e t b gs st)
    (hact : e.carryOut b job = do return made (← act)) (hk : ∀ x ∈ job.handles, Usable gs x) :
    Tidy h e t b (onWorld act) st fun a st' => ∃ news, news.map Prod.fst = (made a).take 1 ∧
      At h e t b (news ++ gs) { st' with owned := (made a).take 1 ++ st'.owned } ∧
      st'.owned = st.owned := by
  obtain ⟨⟨s, hst, hw⟩, howned⟩ := hat
  have hb : (b, .benchmark e.session) ∈ s.ledger.held := hst.mem (by simp)
  have known : ∀ x ∈ job.handles, s.ledger.Knows x := by
    intro x hx
    rcases hk x hx with hn | ⟨g, hg⟩
    · exact .inl hn
    · exact .inr (.inr ⟨g, hst.mem (List.mem_append_left _ hg)⟩)
  have hends := hst.carryOut hb known
  rw [hact, Act.ends_bind, hw] at hends
  refine ends_onWorld.2 (Act.Ends.mono hends ?_ ?_)
  · rintro a w ⟨news, s', hnews, hst', hw'⟩
    refine ⟨news, hnews, ⟨⟨s', ?_, hw'⟩, ?_⟩, rfl⟩
    · rwa [List.append_assoc]
    · rw [List.map_append, hnews, ← howned]
  · rintro reason w ⟨rfl, hr⟩
    exact ⟨hr, gs, ⟨s, hst, hw⟩, howned⟩

theorem acquire_tidy {act : Act World Handle} (hat : At h e t b gs st)
    (hact : e.carryOut b job = do return [← act]) (hk : ∀ x ∈ job.handles, Usable gs x) :
    Tidy h e t b (acquire act) st fun made st' => ∃ g, At h e t b ((made, g) :: gs) st' := by
  refine (hat.give hact hk).bind ?_
  rintro made st' ⟨news, hnews, hat', -⟩
  obtain ⟨⟨_, g⟩, rfl, rfl⟩ := List.map_eq_singleton_iff.1 hnews
  exact ⟨g, hat'⟩

/-- What is held can be released, whether it is on the list or not. -/
theorem At.destroy {before after : List (Handle × Grant)} {x : Handle} {g : Grant}
    (hat : At h e t b (before ++ (x, g) :: after) st) :
    ∃ w, e.destroy x st.world = (.ok (), w) ∧
      At h e t b (before ++ after) ⟨w, (before ++ after).map Prod.fst⟩ := by
  obtain ⟨s, hst, hw⟩ := hat.stage
  rw [List.append_assoc] at hst
  obtain ⟨s', hst', hd⟩ := hst.destroy
  rw [hw] at hd
  exact ⟨_, hd, ⟨s', by rwa [List.append_assoc], rfl⟩, rfl⟩

/-! ### The steps of a run -/

/-- Each iteration leaves the run with its latest result. -/
theorem iterate_tidy (selections : List Selection) (warmups : Nat) (elapsed : Nat → Binary64)
    (times : List Binary64) (done left : Nat) (previous : Option Handle)
    (prev : List (Handle × Grant)) (hat : At h e t b (prev ++ gs) st)
    (hp : prev.map Prod.fst = previous.toList) (hl : Usable gs loaded) :
    Tidy h e t b (iterate e b loaded selections warmups elapsed previous times done left) st
      fun _ st' => ∃ gs', At h e t b gs' st' := by
  induction left generalizing previous prev times done st with
  | zero => exact ⟨_, hat⟩
  | succ left ih =>
    have hk : ∀ x ∈ (Job.operate loaded selections).handles, Usable (prev ++ gs) x := by
      intro x hx
      rw [List.mem_singleton.1 hx]
      exact hl.imp id fun ⟨g, hg⟩ => ⟨g, List.mem_append_right _ hg⟩
    refine (hat.give (show e.carryOut b (.operate loaded selections) = _ from rfl) hk).bind ?_
    rintro result st' ⟨news, hnews, hat', howned⟩
    cases previous with
    | none =>
      obtain rfl : prev = [] := by simpa using hp
      exact ih _ _ (some result) news hat' hnews
    | some p =>
      obtain ⟨⟨_, g⟩, rfl, rfl⟩ := List.map_eq_singleton_iff.1 hp
      -- the result before is dropped from the list, and so it has to be released
      obtain ⟨w, hd, hat''⟩ := hat'.destroy
      refine Act.ends_bind.2 ?_
      change Act.Ends (onWorld (e.destroy _) >>= _) ⟨st'.world, st'.owned.tail⟩ _ _
      refine Act.ends_bind.2 (ends_onWorld.2 (Act.ends_of_eq_ok hd ?_))
      change At h e t b (news ++ gs) ⟨w, (news ++ gs).map Prod.fst⟩ at hat''
      have hlist : (news ++ gs).map Prod.fst = result :: st'.owned.tail := by
        rw [howned, hat.owned, List.map_append, hnews]
        rfl
      rw [hlist] at hat''
      exact ih _ _ (some result) news hat'' hnews

/-- After the upload the run holds what it has loaded. -/
theorem upload_tidy (hat : At h e t b gs st) (d : Descriptor) (o : Operands) :
    Tidy h e t b (upload e b d o) st
      fun loaded st' => ∃ g gs', At h e t b ((loaded, g) :: gs') st' := by
  have concretized : e.carryOut b (.concretize d) = do
      let _ ← e.concretize b d
      return [] := rfl
  refine (hat.give concretized (by simp [Job.handles])).bind ?_
  rintro _ st₁ ⟨news, hnews, hat, howned⟩
  obtain rfl : news = [] := by simpa using hnews
  have encodes : e.carryOut b (.encode o.packs) = do return [← e.encode b o.packs] := rfl
  refine (acquire_tidy hat encodes (by simp [Job.handles])).bind ?_
  rintro encoded st₂ ⟨g₂, hat⟩
  have encrypts : e.carryOut b (.encrypt encoded) = do return [← e.encrypt b encoded] := rfl
  refine (acquire_tidy hat encrypts (by simpa [Job.handles] using usable_head encoded g₂)).bind ?_
  rintro encrypted st₃ ⟨g₃, hat⟩
  have loads : e.carryOut b (.load [encrypted]) = do return [← e.load b [encrypted]] := rfl
  refine (acquire_tidy hat loads (by simpa [Job.handles] using usable_head encrypted g₃)).mono ?_
    fun _ _ hs => hs
  rintro loaded st₄ ⟨g₄, hat⟩
  exact ⟨g₄, _, hat⟩

/-- Decrypting and decoding what was stored. -/
theorem reveal_tidy (hat : At h e t b gs st) {stored : Handle} (hs : Usable gs stored)
    (o : Operands) {decoded : List Pack → List Octets} :
    Tidy h e t b
      (do
        let decrypted ← acquire (e.decrypt b stored)
        let packs ← onWorld (e.decode b decrypted [⟨0, o.blankResults⟩])
        return decoded packs)
      st fun _ st' => ∃ gs', At h e t b gs' st' := by
  have decrypts : e.carryOut b (.decrypt stored) = do return [← e.decrypt b stored] := rfl
  refine (acquire_tidy hat decrypts (by simpa [Job.handles] using hs)).bind ?_
  rintro decrypted st₁ ⟨g, hat⟩
  have decodes : e.carryOut b (.decode decrypted [⟨0, o.blankResults⟩]) = do
      let _ ← e.decode b decrypted [⟨0, o.blankResults⟩]
      return [] := rfl
  refine (hat.give decodes (by simpa [Job.handles] using usable_head decrypted g)).bind ?_
  rintro packs st₂ ⟨news, -, hat, -⟩
  exact ⟨_, hat⟩

theorem download_tidy (hat : At h e t b gs st) (o : Operands) :
    Tidy h e t b (download e b o) st fun _ st' => ∃ gs', At h e t b gs' st' := by
  refine Act.ends_bind_look ?_
  rw [hat.owned]
  cases gs with
  | nil => exact ⟨trivial, [], hat⟩
  | cons x gs =>
    obtain ⟨result, g⟩ := x
    have stores : e.carryOut b (.store result [.null]) =
        do return id (← e.store b result [.null]) := (Act.bind_pure_id _).symm
    refine (hat.give stores (by simpa [Job.handles] using usable_head result g)).bind ?_
    rintro slots st₁ ⟨news, hnews, hat, -⟩
    cases slots with
    | nil =>
      obtain rfl : news = [] := by simpa using hnews
      exact reveal_tidy hat (.inl rfl) o
    | cons stored rest =>
      obtain ⟨⟨_, g'⟩, rfl, rfl⟩ := List.map_eq_singleton_iff.1 hnews
      have hn := At.not_null (show At h e t b ((_, g') :: _) _ from hat)
      simp only [List.headD_cons, hn]
      exact reveal_tidy hat (usable_head _ g') o

/-- The pipeline leaves a list of what it holds, wherever it ends. -/
theorem drive_tidy (hat : At h e t b gs st) (d : Descriptor) (o : Operands)
    (settings : RunSettings) (elapsed : Nat → Binary64) :
    Tidy h e t b (drive e b d o settings elapsed) st fun _ st' => ∃ gs', At h e t b gs' st' := by
  refine (upload_tidy hat d o).bind ?_
  rintro loaded st₁ ⟨g, gs₁, hat⟩
  refine (iterate_tidy o.selections _ elapsed [] 0 _ none [] hat rfl (usable_head loaded g)).bind ?_
  rintro times st₂ ⟨gs₂, hat⟩
  exact Act.Ends.map (download_tidy hat o)

/-- Releasing what is on the list leaves the benchmark. -/
theorem releaseAll_eq (hat : At h e t b gs st) :
    ∃ s, Stage h e t [(b, .benchmark e.session)] s ∧
      releaseAll e st.owned st.world = (.ok (), s.world) := by
  rw [hat.owned]
  induction gs generalizing st with
  | nil =>
    obtain ⟨s, hst, hw⟩ := hat.stage
    exact ⟨s, hst, by rw [hw]; rfl⟩
  | cons x gs ih =>
    obtain ⟨w, hd, hat'⟩ := At.destroy (show At h e t b ([] ++ x :: gs) st from hat)
    obtain ⟨s, hst, hr⟩ := ih hat'
    refine ⟨s, hst, ?_⟩
    show releaseAll e (x.1 :: gs.map Prod.fst) st.world = _
    simp only [releaseAll]
    rw [hd]
    exact hr

/-- Releasing everything, benchmark and all, leaves what was there in the beginning. -/
theorem release_eq (hat : At h e t b gs st) (last : Act World α) :
    ∃ s, Stage h e t [] s ∧
      (do releaseAll e st.owned; e.destroyBenchmark b; last : Act World α) st.world =
        last s.world := by
  obtain ⟨s, hst, hr⟩ := releaseAll_eq hat
  obtain ⟨s', hst', hd⟩ := hst.destroyBenchmark
  refine ⟨s', hst', ?_⟩
  rw [Act.bind_of_ok hr, Act.bind_of_ok hd]

theorem measure_ends {w : World} (hat : At h e t b [] ⟨w, []⟩) (d : Descriptor) (o : Operands)
    (settings : RunSettings) (elapsed : Nat → Binary64) :
    (measure e b d o settings elapsed).Ends w (fun _ w' => ∃ s, Stage h e t [] s ∧ s.world = w')
      fun reason w' => e.Admits reason ∧
        ((∃ failure, reason = .refused failure) → ∃ s, Stage h e t [] s ∧ s.world = w') := by
  have hdrive := drive_tidy hat d o settings elapsed
  cases hd : drive e b d o settings elapsed ⟨w, []⟩ with
  | mk result st =>
    cases result with
    | ok output =>
      obtain ⟨gs, hat'⟩ := hdrive.of_ok hd
      obtain ⟨s, hst, hr⟩ := release_eq hat' (pure output)
      have hm : measure e b d o settings elapsed w = (.ok output, s.world) := by
        rw [measure, hd]
        exact hr
      exact Act.ends_of_eq_ok hm ⟨s, hst, rfl⟩
    | error reason =>
      obtain ⟨hadmits, gs, hat'⟩ := hdrive.of_error hd
      cases reason with
      | refused failure =>
        obtain ⟨s, hst, hr⟩ := release_eq hat' (Act.refuse failure)
        have hm : measure e b d o settings elapsed w = (.error (.refused failure), s.world) := by
          rw [measure, hd]
          exact hr
        exact Act.ends_of_eq_error hm ⟨trivial, fun _ => ⟨s, hst, rfl⟩⟩
      | panicked message =>
        refine Act.ends_of_eq_error (by rw [measure, hd]) ⟨hadmits, ?_⟩
        rintro ⟨failure, hf⟩
        cases hf
      | released => exact hadmits.elim
      | misread => exact hadmits.elim

/-- What a plan has chosen is described by the engine. -/
theorem describeAt_of_plan {settings : RunSettings} {p : Plan} (hp : plan e settings = .ok p) :
    ∃ sets, e.describeAt settings.descriptor.toNat = .ok (p.entry, p.descriptor, sets) ∧
      sets[settings.defaultSet.toNat]? = some p.params := by
  unfold plan at hp
  dsimp only at hp
  split at hp
  · cases hp
  obtain ⟨⟨entry, descriptor, sets⟩, hd, hp⟩ := Except.bind_eq_ok.1 hp
  dsimp only at hp
  split at hp
  · cases hp
  split at hp
  · cases hp
  next params hparams =>
    obtain ⟨shape, -, hp⟩ := Except.bind_eq_ok.1 hp
    cases hp
    exact ⟨sets, hd, hparams⟩

theorem mem_entries_of_plan {settings : RunSettings} {p : Plan} (hp : plan e settings = .ok p) :
    p.entry ∈ e.entries := by
  obtain ⟨sets, hd, -⟩ := describeAt_of_plan hp
  exact Engine.mem_entries_of_describeAt hd

end Run

/-! ### The law -/

namespace Host

variable {t : Host} {h : Handle} {e : Engine}

/-- How runs end. -/
structure CleanRunLaw (t : Host) (e : Engine) : Prop where
  /-- With a report or with a refusal, at whatever step, everything is as it was before the run. The
  only other end is that a backend of the catalog panics. -/
  clean : ∀ backend settings around, (Run.run e backend settings around).Ends t.world
    (fun _ w => t.Restored w)
    fun reason w => e.Admits reason ∧ ((∃ failure, reason = .refused failure) → t.Restored w)
  /-- If no backend of the catalog was told to panic, every run ends in one of the two ways. -/
  returns : (∀ d ∈ e.catalog, ¬ d.backend.Panics) → ∀ backend settings around, ∃ w,
    t.Restored w ∧
      ((∃ report, Run.run e backend settings around t.world = (.ok report, w)) ∨
        ∃ failure, Run.run e backend settings around t.world = (.error (.refused failure), w))

theorem Reachable.run_ends (ht : t.Reachable) (he : t.Has h e) (backend : Backend)
    (settings : RunSettings) (around : Run.Surroundings) :
    (Run.run e backend settings around).Ends t.world (fun _ w => t.Restored w)
      fun reason w => e.Admits reason ∧
        ((∃ failure, reason = .refused failure) → t.Restored w) := by
  refine Act.ends_bind.2 (Act.ends_ofExcept (fun p hp => ?_) fun _ _ =>
    ⟨trivial, fun _ => restored_self ht⟩)
  obtain ⟨s₀, hst₀, hw₀, hentries⟩ := (Stage.refl ht he).entries
  have hcreate := hst₀.create (hentries _ (Run.mem_entries_of_plan hp)) (some p.params)
  rw [hw₀] at hcreate
  refine Act.ends_bind.2 (Act.Ends.mono hcreate ?_ ?_)
  · rintro bench w ⟨s₁, hst₁, rfl⟩
    have hat : Run.At h e t bench [] ⟨s₁.world, []⟩ := ⟨⟨s₁, hst₁, rfl⟩, rfl⟩
    refine Act.ends_bind.2 (Act.Ends.mono (Run.measure_ends hat _ _ _ _) ?_ ?_)
    · rintro output w ⟨s₂, hst₂, rfl⟩
      have hr := hst₂.restored ht
      refine Act.ends_bind.2 (Act.ends_ofExcept (fun _ _ => ?_) fun _ _ => ⟨trivial, fun _ => hr⟩)
      exact Act.ends_bind.2 (Act.ends_ofExcept (fun _ _ => hr) fun _ _ => ⟨trivial, fun _ => hr⟩)
    · rintro reason w ⟨hadmits, hstage⟩
      refine ⟨hadmits, fun hf => ?_⟩
      obtain ⟨s₂, hst₂, rfl⟩ := hstage hf
      exact hst₂.restored ht
  · rintro reason w ⟨rfl, hadmits⟩
    exact ⟨hadmits, fun _ => restored_self ht⟩

/-- **Runs leave nothing behind.** Whatever a host has done before, a run of one of its engines that
reports or is refused leaves every handle, every count of holders and every count of live benchmarks
as it was. -/
theorem Reachable.cleanRunLaw (ht : t.Reachable) (he : t.Has h e) : t.CleanRunLaw e := by
  constructor
  case clean => exact ht.run_ends he
  case returns =>
    intro hsteady backend settings around
    have hends := ht.run_ends he backend settings around
    cases hr : Run.run e backend settings around t.world with
    | mk result w =>
      cases result with
      | ok report => exact ⟨w, hends.of_ok hr, .inl ⟨report, rfl⟩⟩
      | error reason =>
        obtain ⟨hadmits, hrestored⟩ := hends.of_error hr
        cases reason with
        | refused failure => exact ⟨w, hrestored ⟨failure, rfl⟩, .inr ⟨failure, rfl⟩⟩
        | panicked message =>
          obtain ⟨d, hd, hp⟩ := hadmits
          exact absurd hp (hsteady d hd)
        | released => exact hadmits.elim
        | misread => exact hadmits.elim

/-- The moves of a host whose engine has a byte carrier besides a matrix product, both registered as
matrix products. It creates a benchmark of the carrier, encodes with it and encrypts. -/
def disguise : List Move :=
  [.make .unset ⟨[.latencyProduct, .bare .plain (.byteCarrier (.named "mock"))],
      .empty, .empty, .empty⟩,
    .method sampleEngine .entries, .method sampleEngine (.create (.descriptor 1) none),
    .method sampleEngine (.give sampleBenchmark (.encode [])),
    .method sampleEngine (.give sampleBenchmark (.encrypt sampleEncoded))]

/-- That host. -/
def disguised : Host := initial.afterAll disguise

/-- Its engine. -/
def disguisedEngine : Engine :=
  ⟨0, .unset, [.latencyProduct, .bare .plain (.byteCarrier (.named "mock"))], .empty, .empty⟩

theorem reachable_disguised : disguised.Reachable :=
  Reachable.initial.afterAll (show initial.PermitsAll disguise by decide)

/-- Whatever it runs and however the run ends, the host has its one benchmark, and what it has
encoded has two holders. -/
theorem cleanRunLaw_disguised : disguised.Reachable ∧ disguised.Has sampleEngine disguisedEngine ∧
    ∀ settings around, ∃ w, w.live 0 = 1 ∧
      (Object.holders 0 sampleEncrypted w).1 = .ok 2 ∧
      ((∃ report, Run.run disguisedEngine .matrixProduct settings around disguised.world =
          (.ok report, w)) ∨
        ∃ failure, Run.run disguisedEngine .matrixProduct settings around disguised.world =
          (.error (.refused failure), w)) := by
  have he : disguised.Has sampleEngine disguisedEngine := ⟨by decide, rfl⟩
  have law := reachable_disguised.cleanRunLaw he
  have steady : ∀ d ∈ disguisedEngine.catalog, ¬ d.backend.Panics := by
    simp [disguisedEngine, Description.latencyProduct, Description.bare, Backend.Panics,
      CarrierConfig.named]
  refine ⟨reachable_disguised, he, fun settings around => ?_⟩
  obtain ⟨w, hr, hends⟩ := law.returns steady .matrixProduct settings around
  refine ⟨w, ?_, ?_, hends⟩
  · rw [hr.live]
    rfl
  · rw [hr.holders sampleEncrypted 0 0 (by decide)]
    rfl

end Host

end HandleBench
