import HandleBench.Proofs.Hosts

/-!
# Failed calls

An exported call that fails has done nothing. Whatever made it fail, and however late, the host
memory is as it was and so is the world, except that the session which was resolved now remembers
the failure.
-/

namespace HandleBench

/-- What a call that failed in the world `w` leaves of it. -/
structure Call.Undone (w : World) (c : Call) (failure : Failure) (ending : Ending) (w' : World) :
    Prop where
  /-- The host memory is as it was. -/
  memory : ending.memory = c
  /-- So is everything that handles lead to: engines with their catalogs and names, benchmarks with
  their descriptors, and objects. -/
  cells : w'.cells = w.cells
  /-- So are the payloads and the counts of their holders. -/
  payloads : w'.payloads = w.payloads
  /-- There are the same sessions. -/
  sessions : w'.sessions.size = w.sessions.size
  /-- All but the one that was resolved are as they were. -/
  others : ∀ id, c.sessionIn w ≠ some id → w'.sessions[id]? = w.sessions[id]?
  /-- In the one that was resolved the last failure is another, the error texts and the count of
  live benchmarks are the same. -/
  recorded : ∀ id, c.sessionIn w = some id →
    w'.sessions[id]? = w.sessions[id]?.map fun s =>
      { s with lastError := ⟨failure.code, failure.message⟩ }

/-- The world with a failure recorded is what a failed call leaves. -/
theorem Call.undone_blamed (w : World) (c : Call) (failure : Failure) :
    Undone w c failure ⟨.error failure, c⟩ (w.blamed (c.sessionIn w) failure) := by
  refine ⟨rfl, w.cells_blamed _ _, w.payloads_blamed _ _, ?_, fun id hid => ?_, fun id hid => ?_⟩
  · cases c.sessionIn w with
    | none => rfl
    | some id => exact w.size_changeSession id _
  · cases hs : c.sessionIn w with
    | none => rfl
    | some id' =>
      have hne : id' ≠ id := fun he => hid (by rw [hs, he])
      exact (w.session?_changeSession id' id _).trans (if_neg hne)
  · rw [hid]
    exact (w.session?_changeSession id id _).trans (if_pos rfl)

namespace Host

variable {s : Host} {c : Call}

/-- **Failed calls leave no trace.** Every exported call of a host ends, and if its body has failed,
by a refusal or by a panic of a backend, neither the host memory nor the world nor the handles of
the host have changed; only the session that was resolved remembers the failure. -/
theorem Reachable.failedCall (hs : s.Reachable) (hc : s.Permits (.call c)) :
    ∃ ending w, c.attempt s.world = (.ok ending, w) ∧
      c.perform s.world = (.ok ⟨c.answer ending.outcome, ending.memory⟩, w) ∧
      ∀ failure, ending.outcome = .error failure →
        c.Undone s.world failure ending w ∧ s.after (.call c) = ⟨w, s.ledger⟩ := by
  have performed : ∀ {ending w}, c.attempt s.world = (.ok ending, w) →
      c.perform s.world = (.ok ⟨c.answer ending.outcome, ending.memory⟩, w) := by
    intro ending w ha
    rw [Call.perform, Act.bind_of_ok ha]
    rfl
  rcases c.attempt_cases s.world with ⟨answer, memory, w, ha, -⟩ | ⟨failure, ha⟩ | ⟨ht, -⟩
  · exact ⟨_, w, ha, performed ha, fun failure he => by cases he⟩
  · refine ⟨_, _, ha, performed ha, fun failure' he => ?_⟩
    obtain rfl := Except.error.inj he
    have hp : (Move.call c).perform s.world =
        (.error (.refused failure), s.world.blamed (c.sessionIn s.world) failure) := by
      show (c.attempt >>= _) s.world = _
      rw [Act.bind_of_ok ha]
      rfl
    exact ⟨Call.undone_blamed s.world c failure, after_of_error hp⟩
  · exact absurd (hs.honest hc) ht

/-- The call in which the sample host takes its engine for encoded data. -/
def sampleMistake : Call := .encrypt sampleBenchmark sampleEngine (some .null)

/-- The mistake is recorded in the session of the benchmark and has no other effect. -/
theorem failedCall_sample : sample.Permits (.call sampleMistake) ∧
    sampleMistake.Undone sample.world (.notObject .engine)
      ⟨.error (.notObject .engine), sampleMistake⟩
      (sample.world.record 0 (.notObject .engine)) := by
  refine ⟨by decide, ?_⟩
  obtain ⟨ending, w, ha, -, hf⟩ := reachable_sample.failedCall (c := sampleMistake) (by decide)
  have he : sampleMistake.attempt sample.world =
      (.ok ⟨.error (.notObject .engine), sampleMistake⟩,
        sample.world.record 0 (.notObject .engine)) := rfl
  rw [he] at ha
  cases ha
  exact (hf _ rfl).1

end Host

end HandleBench
