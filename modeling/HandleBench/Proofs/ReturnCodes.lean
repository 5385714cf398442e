import HandleBench.Proofs.Hosts
import HandleBench.Proofs.Turns

/-!
# Return codes

A host decides by one number whether the results of a call are there: zero stands for success. All
codes of the library's own are different from zero, but a backend chooses its codes freely, and one
that fails with the code zero passes for a success. `Host.Reachable.returnCode` shows that this is
the only way in which a call answers zero and has done nothing, and `Host.misled` is a host to which
it happens.
-/

namespace HandleBench

namespace Call

variable {w w' : World} {c memory : Call} {reply : Reply} {failure : Failure}

/-- The call answers with a code for how it went itself. -/
def reportsOutcome : Call → Bool
  | lastError _ => false
  | c => !c.asksText

/-- The call has done what it is for, and its results are in the host memory. -/
structure Succeeds (w : World) (c memory : Call) (w' : World) : Prop where
  /-- It has got through. -/
  ends : c.attempt w = (.ok ⟨.ok (.code .success), memory⟩, w')
  /-- It has been served. -/
  served : c.Served w w' ⟨.code .success, memory⟩

/-- The call fails with the code zero, because a byte carrier was told to. -/
structure Misleads (w : World) (c : Call) (w' : World) : Prop where
  /-- It creates a benchmark of such a carrier. -/
  provokes : c.Provokes w .success
  /-- It fails. -/
  ends : c.attempt w =
    (.ok ⟨.error (.worded (.backend .success) "mock create_benchmark failed"), c⟩, w')

theorem not_asksText (hr : c.reportsOutcome = true) : c.asksText = false := by
  cases c with
  | text | schemeName | securityName | errorText | lastErrorText | lastError => cases hr
  | _ => rfl

/-- A call that is served and reports on itself reports a success. -/
theorem Served.answer_eq (hs : c.Served w w' reply) (hr : c.reportsOutcome = true) :
    reply.answer = .code .success := by
  cases hs with
  | text | schemeName | securityName | errorText | lastErrorText | lastError => cases hr
  | _ => rfl

/-- Whatever a call fails with is explained. -/
theorem explained_of_attempt (ha : c.attempt w = (.ok ⟨.error failure, memory⟩, w')) :
    Explained w c failure := by
  have hg := body_served w c
  unfold attempt at ha
  cases hb : c.body ⟨w, none, c⟩ with
  | mk result f =>
    rw [hb] at ha
    cases result with
    | ok answer => cases ha
    | error reason =>
      cases reason with
      | refused failure' =>
        cases ha
        exact hg.of_error hb failure rfl
      | panicked message =>
        cases ha
        exact .inl rfl
      | _ => cases ha

/-- A failure that is told as a success is one that a byte carrier was told to make. -/
theorem Explained.misleads (he : Explained w c failure) (hc : failure.code = .success) :
    c.Provokes w .success ∧
      failure = .worded (.backend .success) "mock create_benchmark failed" := by
  rcases he with hp | ⟨code, hp, rfl⟩
  · exact absurd hc hp.code_ne_success
  · obtain rfl : code = .success := hc
    exact ⟨hp, rfl⟩

end Call

namespace Host

variable {s : Host} {c : Call}

/-- **Zero means success, unless a backend says otherwise.** Every call that reports on itself
answers with a code. It is zero exactly if the call has done what it is for and its results are
written, or if it creates a benchmark of a byte carrier that was told to fail with the code zero;
then nothing is written. -/
theorem Reachable.returnCode (hs : s.Reachable) (hc : s.Permits (.call c))
    (hr : c.reportsOutcome = true) :
    ∃ code memory w, c.perform s.world = (.ok ⟨.code code, memory⟩, w) ∧
      (code = .success ↔
        c.Succeeds s.world memory w ∨ memory = c ∧ c.Misleads s.world w) := by
  rcases c.attempt_cases s.world with ⟨answer, memory, w, ha, -⟩ | ⟨failure, ha⟩ | ⟨ht, -⟩
  · have served := Call.served_of_attempt ha
    obtain rfl : answer = .code .success := served.answer_eq hr
    refine ⟨.success, memory, w, Call.perform_of_attempt ha, ?_⟩
    exact iff_of_true rfl (.inl ⟨ha, served⟩)
  · have hperform := Call.perform_of_attempt ha
    rw [Call.answer, Call.not_asksText hr] at hperform
    refine ⟨failure.code, c, _, hperform, ?_⟩
    constructor
    · intro hcode
      obtain ⟨hp, rfl⟩ := (Call.explained_of_attempt ha).misleads hcode
      exact .inr ⟨rfl, hp, ha⟩
    · rintro (⟨ends, -⟩ | ⟨-, -, ends⟩)
      · rw [ha] at ends
        cases ends
      · rw [ha] at ends
        cases ends
        rfl
  · exact absurd (hs.honest hc) ht

/-- The call in which the sample host encrypts what it has encoded once more. -/
def sampleEncrypt : Call := .encrypt sampleBenchmark sampleEncoded (some .null)

/-- It answers zero, and the handle is there. -/
theorem returnCode_sample : sample.Permits (.call sampleEncrypt) ∧
    ∃ memory w, sampleEncrypt.perform sample.world = (.ok ⟨.code .success, memory⟩, w) ∧
      sampleEncrypt.Succeeds sample.world memory w := by
  have hc : sample.Permits (.call sampleEncrypt) := by decide
  obtain ⟨code, memory, w, hp, hiff⟩ := reachable_sample.returnCode hc rfl
  have hz : (sampleEncrypt.perform sample.world).1 = .ok ⟨.code .success,
      .encrypt sampleBenchmark sampleEncoded (some ⟨.cell 4, 0, sampleEncoded.tag⟩)⟩ := rfl
  rw [hp] at hz
  cases hz
  rcases hiff.1 rfl with hs | ⟨hm, -⟩
  · exact ⟨hc, _, w, hp, hs⟩
  · cases hm

/-- A host whose byte carrier was told to fail with the code zero. -/
def misled : Host :=
  (initial.after (.make .unset ⟨[.bare .plain (.byteCarrier { CarrierConfig.named "mock" with
    createFailsWith := some 0 })], .empty, .empty, .empty⟩)).after (.method sampleEngine .entries)

/-- The call in which the host creates a benchmark of the carrier. -/
def misledCall : Call := .create sampleEngine (.descriptor 0) none (some .null)

/-- The call answers zero, though there is no benchmark and the handle is as null as before. -/
theorem returnCode_misled : misled.Reachable ∧ misled.Permits (.call misledCall) ∧
    misledCall.reportsOutcome = true ∧ (∃ w, misledCall.perform misled.world =
      (.ok ⟨.code .success, .create sampleEngine (.descriptor 0) none (some .null)⟩, w)) ∧
    ∀ memory w, ¬ misledCall.Succeeds misled.world memory w := by
  refine ⟨(Reachable.initial.after (by decide)).after (by decide), by decide, rfl, ⟨_, rfl⟩, ?_⟩
  rintro memory w ⟨ends, -⟩
  cases ends

end Host

end HandleBench
