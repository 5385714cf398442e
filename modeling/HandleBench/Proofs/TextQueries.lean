import HandleBench.Proofs.LastErrors
import HandleBench.Proofs.Layers

/-!
# Texts that are asked for twice

Five of the calls write a text into a buffer of the host, and the host does not know how much room
the text takes. It asks once without a buffer, learns the room, and asks again with a buffer that
has it. So the answer has to be the same whatever the buffer, and it has to be told from the zero of
a call that fails, and a buffer that is too small must be left with a beginning of the text and
nothing else: `Host.TextLaw`. Which text it is does not depend on the buffer, `Query.Tells`.
-/

namespace HandleBench

open Call (announced answerText readParams)
open Text (roomFor)
open Text.Utf8 (encode)

/-! ### Texts in buffers -/

/-- A buffer with exactly the room that a text takes holds all of it. -/
theorem TextBuffer.Takes.all {memory octets : Octets} {size : UInt64} {after : TextBuffer}
    (ht : TextBuffer.Takes ⟨some memory, size⟩ octets after) (hsize : size.toNat = roomFor octets)
    (hroom : size.toNat ≤ memory.length) :
    after = ⟨some (octets ++ 0 :: memory.drop size.toNat), size⟩ := by
  have hcount : size ≠ 0 := by
    rintro rfl
    exact absurd hsize (Nat.succ_ne_zero _).symm
  have hn : octets.length = min octets.length (size.toNat - 1) := by
    rw [hsize, roomFor]
    omega
  rw [ht.written memory _ rfl hcount hroom hn, List.take_length, hsize, roomFor]

/-- The room that a text takes is told, whatever the buffer. -/
theorem Call.answerText_size {text : String}
    (hroom : roomFor (Text.Utf8.encode text) < UInt64.size) (buffer : TextBuffer) :
    ∃ size, (Call.answerText buffer text).1 = .size size ∧
      size.toNat = (Text.Utf8.encode text).length + 1 :=
  ⟨_, rfl, UInt64.toNat_ofNat_of_lt hroom⟩

/-! ### Which text is told -/

/-- What a host asks for a text about. -/
inductive Query where
  /-- A scheme of an engine. -/
  | scheme (engine : Handle) (id : Int32)
  /-- A security level of an engine. -/
  | security (engine : Handle) (id : Int32)
  /-- A catalog entry of an engine, for some parameters. -/
  | workload (engine entry : Handle) (params : Option (HostArray Param))
  /-- An error code, in the session of an engine. -/
  | errorCode (engine : Handle) (code : Int32)
  /-- The last failure, in the session of an engine. -/
  | lastError (engine : Handle)

namespace Query

/-- The call that asks for the text. -/
def into (buffer : TextBuffer) : Query → Call
  | .scheme engine id => .schemeName engine id buffer
  | .security engine id => .securityName engine id buffer
  | .workload engine entry params => .text engine entry params buffer
  | .errorCode engine code => .errorText engine code buffer
  | .lastError engine => .lastErrorText engine buffer

/-- In the world `w` this is the text that is asked for. -/
inductive Tells (w : World) : Query → String → Prop where
  /-- The name of the scheme that the engine knows under the number. -/
  | scheme {engine : Handle} {found : Nat × Engine} {id : Int32} {name : String}
    (finds : Engine.Found w engine found) (names : found.2.schemes.find? id = some name) :
    Tells w (scheme engine id) name
  /-- The name of the security level that the engine knows under the number. -/
  | security {engine : Handle} {found : Nat × Engine} {id : Int32} {name : String}
    (finds : Engine.Found w engine found) (names : found.2.securities.find? id = some name) :
    Tells w (security engine id) name
  /-- The text of the catalog entry for the parameters, if these can be read. -/
  | workload {engine entry : Handle} {found : Nat × Engine} {params : Option (HostArray Param)}
    {description : Description} (finds : Engine.Found w engine found)
    (reads : ParamsLegible params) (describes : found.2.find entry = .ok description) :
    Tells w (workload engine entry params) (description.text (params.map announced))
  /-- The text of the error code in the session. -/
  | errorCode {engine : Handle} {found : Nat × Engine} {session : Session} {code : Int32}
    (finds : Engine.Found w engine found)
    (opened : w.sessions[found.2.session]? = some session) :
    Tells w (errorCode engine code) (session.errorText code)
  /-- The message of the last failure in the session. -/
  | lastError {engine : Handle} {found : Nat × Engine} {session : Session}
    (finds : Engine.Found w engine found)
    (opened : w.sessions[found.2.session]? = some session) :
    Tells w (lastError engine) session.lastError.message

end Query

/-- The calls that ask for a text are those of the queries. -/
theorem Call.asksText_iff {c : Call} : c.asksText = true ↔ ∃ q buffer, c = Query.into buffer q := by
  constructor
  · intro hc
    cases c with
    | schemeName engine id buffer => exact ⟨.scheme engine id, buffer, rfl⟩
    | securityName engine id buffer => exact ⟨.security engine id, buffer, rfl⟩
    | text engine entry params buffer => exact ⟨.workload engine entry params, buffer, rfl⟩
    | errorText engine code buffer => exact ⟨.errorCode engine code, buffer, rfl⟩
    | lastErrorText engine buffer => exact ⟨.lastError engine, buffer, rfl⟩
    | _ => cases hc
  · rintro ⟨q, buffer, rfl⟩
    cases q <;> rfl

/-! ### Calls that tell a text -/

namespace Query

variable {w : World} {q : Query} {text : String}

/-- A query that resolves to a text succeeds with any buffer, and changes nothing else. -/
theorem Tells.attempt (ht : q.Tells w text) (buffer : TextBuffer) :
    (q.into buffer).attempt w =
      (.ok ⟨.ok (answerText buffer text).1, q.into (answerText buffer text).2⟩, w) := by
  -- all five resolve an engine and write the text that they have come to
  have answered : ∀ {engine found} {next : Engine → Act Frame Answer},
      Engine.Found w engine found → (q.into buffer).body = Frame.bindEngine engine >>= next →
      next found.2 ⟨w, some found.2.session, q.into buffer⟩ = (.ok (answerText buffer text).1,
        ⟨w, some found.2.session, q.into (answerText buffer text).2⟩) →
      (q.into buffer).attempt w =
        (.ok ⟨.ok (answerText buffer text).1, q.into (answerText buffer text).2⟩, w) := by
    intro engine found next hf hbody hnext
    have hb : (q.into buffer).body ⟨w, none, q.into buffer⟩ = (.ok (answerText buffer text).1,
        ⟨w, some found.2.session, q.into (answerText buffer text).2⟩) := by
      rw [hbody]
      exact (Act.bind_of_ok (Frame.bindEngine_eq hf)).trans hnext
    exact Call.attempt_of_body hb
  cases ht with
  | scheme finds names =>
    refine answered finds rfl ?_
    rw [Engine.schemeName, names]
    rfl
  | security finds names =>
    refine answered finds rfl ?_
    rw [Engine.securityName, names]
    rfl
  | workload finds reads describes =>
    refine answered finds rfl ?_
    refine (Act.bind_of_ok (Call.readParams_of_legible reads)).trans ?_
    rw [Engine.text, describes]
    rfl
  | errorCode finds opened =>
    exact answered finds rfl (Act.bind_of_ok (Frame.lookSession_eq opened _))
  | lastError finds opened =>
    exact answered finds rfl (Act.bind_of_ok (Frame.lookSession_eq opened _))

/-- The parameters of a query that succeeds have been read. -/
theorem legible_of_body {engine entry : Handle} {found : Nat × Engine}
    {params : Option (HostArray Param)} {buffer : TextBuffer} {f f' : Frame} {answer : Answer}
    (hf : Engine.Found f.world engine found)
    (hb : (Call.text engine entry params buffer).body f = (.ok answer, f')) :
    ParamsLegible params := by
  cases hr : readParams params { f with session := some found.2.session } with
  | mk result f'' =>
    cases result with
    | ok read => exact Call.legible_of_readParams hr
    | error reason =>
      have hstop : (Call.text engine entry params buffer).body f = (.error reason, f'') :=
        (Act.bind_of_ok (Frame.bindEngine_eq hf)).trans (Act.bind_of_stop hr)
      rw [hstop] at hb
      cases hb

/-- A query that succeeds resolves to a text. -/
theorem exists_tells {buffer : TextBuffer} {answer : Answer} {memory : Call} {w' : World}
    (ho : w.Opened) (ha : (q.into buffer).attempt w = (.ok ⟨.ok answer, memory⟩, w')) :
    ∃ text, q.Tells w text := by
  have opened : ∀ {engine found}, Engine.Found w engine found →
      ∃ session, w.sessions[found.2.session]? = some session := fun hf =>
    ⟨_, Array.getElem?_eq_getElem (ho.of_engine hf.engine?)⟩
  have hs := Call.served_of_attempt ha
  cases q with
  | scheme engine id =>
    cases hs with
    | schemeName finds names =>
      unfold Engine.schemeName at names
      split at names
      case h_1 name hname => exact ⟨name, .scheme finds hname⟩
      case h_2 => cases names
  | security engine id =>
    cases hs with
    | securityName finds names =>
      unfold Engine.securityName at names
      split at names
      case h_1 name hname => exact ⟨name, .security finds hname⟩
      case h_2 => cases names
  | workload engine entry params =>
    cases hs with
    | text finds tells =>
      obtain ⟨description, hd, -⟩ := Except.bind_eq_ok.1 tells
      obtain ⟨session, hb⟩ := Call.body_of_attempt ha
      exact ⟨_, .workload finds (legible_of_body finds hb) hd⟩
  | errorCode engine code =>
    cases hs with
    | errorText finds =>
      obtain ⟨session, hsession⟩ := opened finds
      exact ⟨_, .errorCode finds hsession⟩
  | lastError engine =>
    cases hs with
    | lastErrorText finds =>
      obtain ⟨session, hsession⟩ := opened finds
      exact ⟨_, .lastError finds hsession⟩

end Query

/-! ### The law -/

namespace Host

variable {s : Host}

/-- What holds of the texts that a host asks for. The room that a text takes has to fit into a word,
as it does for whatever is in memory. -/
structure TextLaw (s : Host) : Prop where
  /-- Every call that asks for a text is that of a query. -/
  every : ∀ c : Call, c.asksText = true → ∃ (q : Query) (buffer : TextBuffer), c = q.into buffer
  /-- A query that resolves to a text succeeds with any buffer. It answers with the count of octets
  and one more, which is not zero; the buffer takes what there is room for; and nothing else
  changes. -/
  told : ∀ (q : Query) text buffer, q.Tells s.world text → roomFor (encode text) < UInt64.size →
    ∃ size after, (q.into buffer).Comes s.world (.ok (.size size)) (q.into after) s.world ∧
      size.toNat = (encode text).length + 1 ∧ size ≠ 0 ∧ buffer.Takes (encode text) after
  /-- Any other query fails. It answers with zero and leaves the buffer alone. -/
  failed : ∀ (q : Query) buffer, s.Permits (.call (q.into buffer)) →
    (∀ text, ¬ q.Tells s.world text) →
      ∃ failure w, (q.into buffer).attempt s.world = (.ok ⟨.error failure, q.into buffer⟩, w) ∧
        (q.into buffer).perform s.world = (.ok ⟨.size 0, q.into buffer⟩, w)
  /-- If a second query has the room that a first one has answered with, its buffer holds all of the
  text and a zero behind it. -/
  twice : ∀ (q : Query) text first, q.Tells s.world text → roomFor (encode text) < UInt64.size →
    ∃ size after, (q.into first).perform s.world = (.ok ⟨.size size, q.into after⟩, s.world) ∧
      ∀ memory, size.toNat ≤ memory.length →
        (q.into ⟨some memory, size⟩).perform s.world =
          (.ok ⟨.size size,
            q.into ⟨some (encode text ++ 0 :: memory.drop size.toNat), size⟩⟩, s.world)

/-- **Texts can be asked for twice.** Each of the five calls that tell a text does so: every answer
is the room that the text takes, zero if there is none, and a buffer never takes more than there is
room for. -/
theorem Reachable.textLaw (hs : s.Reachable) : s.TextLaw := by
  constructor
  case every => exact fun c => Call.asksText_iff.1
  case told =>
    intro q text buffer ht hroom
    obtain ⟨size, hsize, hlength⟩ := Call.answerText_size hroom buffer
    refine ⟨size, _, Call.Comes.of_ending ?_, hlength, ?_, Call.answerText_takes buffer text⟩
    · rw [← hsize]
      exact ht.attempt buffer
    · rintro rfl
      exact absurd hlength (Nat.succ_ne_zero _).symm
  case failed =>
    intro q buffer hc hnone
    rcases (q.into buffer).attempt_cases s.world with
      ⟨answer, memory, w, ha, -⟩ | ⟨failure, ha⟩ | ⟨ht, -⟩
    · obtain ⟨text, ht⟩ := Query.exists_tells hs.opened ha
      exact absurd ht (hnone text)
    · have hasks : (q.into buffer).asksText = true := Call.asksText_iff.2 ⟨q, buffer, rfl⟩
      refine ⟨failure, _, ha, ?_⟩
      rw [Call.perform_of_attempt ha, Call.answer, if_pos hasks]
    · exact absurd (hs.honest hc) ht
  case twice =>
    intro q text first ht hroom
    obtain ⟨size, hsize, hlength⟩ := Call.answerText_size hroom first
    refine ⟨size, (answerText first text).2, ?_, fun memory hmemory => ?_⟩
    · rw [← hsize]
      exact Call.perform_of_attempt (ht.attempt first)
    · have htaken : (answerText ⟨some memory, size⟩ text).2 =
          ⟨some (encode text ++ 0 :: memory.drop size.toNat), size⟩ :=
        (Call.answerText_takes _ text).all hlength hmemory
      rw [← htaken, ← hsize]
      exact Call.perform_of_attempt (ht.attempt _)

/-- The engine of the sample host has not failed yet and says so; a buffer with room for four octets
takes three of the text. -/
theorem textLaw_sample : sample.Reachable ∧
    (Query.lastError sampleEngine).Tells sample.world "Success" ∧
    ∃ size, size.toNat = 8 ∧
      (Call.lastErrorText sampleEngine ⟨some [1, 2, 3, 4, 5], 4⟩).perform sample.world =
        (.ok ⟨.size size, .lastErrorText sampleEngine ⟨some [83, 117, 99, 0, 5], 4⟩⟩,
          sample.world) := by
  have hf : Engine.Found sample.world sampleEngine
      (0, ⟨0, .unset, [.bare .plain (.byteCarrier (.named "mock"))], .empty, .empty⟩) :=
    ⟨rfl, rfl, by decide⟩
  have ht : (Query.lastError sampleEngine).Tells sample.world "Success" := .lastError hf rfl
  obtain ⟨size, after, hcomes, hsize, -, htakes⟩ :=
    reachable_sample.textLaw.told _ _ ⟨some [1, 2, 3, 4, 5], 4⟩ ht (by decide)
  obtain rfl := htakes.written [1, 2, 3, 4, 5] 3 rfl (by decide) (by decide) (by decide)
  exact ⟨reachable_sample, ht, size, hsize, hcomes.reply⟩

end Host

end HandleBench
