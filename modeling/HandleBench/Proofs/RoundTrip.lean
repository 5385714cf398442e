import HandleBench.Proofs.ProductPipeline

/-!
# Decoding undoes encoding

What a product has encoded can be decoded as it is, or after it was encrypted and decrypted. Either
way the destination of the host ends up with the octets of its samples, as many whole numbers as the
matrix has and the buffer takes, and is otherwise as it was: `Engine.decode_undoes_encode`. Octets
are never looked at as numbers on the way, so all of them come back, those of numbers that are not
equal to themselves as well.
-/

namespace HandleBench

/-! ### Packs and their positions -/

namespace Pack

variable {packs packs' : List Pack} {position position' : UInt64} {k : Nat}

theorem firstAt_congr (h : packs'.map (·.position) = packs.map (·.position)) (position : UInt64) :
    firstAt packs' position = firstAt packs position := by
  have indexed : ∀ packs : List Pack,
      firstAt packs position = (packs.map (·.position)).findIdx? (· == position) := by
    intro packs
    rw [List.findIdx?_map]
    rfl
  rw [indexed, indexed, h]

/-- A pack is the first at one position only. -/
theorem firstAt_inj (h : firstAt packs position = some k) (h' : firstAt packs position' = some k) :
    position = position' := by
  obtain ⟨hlt, hp, -⟩ := List.findIdx?_eq_some_iff_getElem.1 h
  obtain ⟨_, hp', -⟩ := List.findIdx?_eq_some_iff_getElem.1 h'
  rw [← beq_iff_eq.1 hp, ← beq_iff_eq.1 hp']

end Pack

namespace Product

variable {p : Product} {packs dest : List Pack} {position : UInt64} {rows cols i k : Nat}
  {source buffer : Octets}

/-! ### What encoding reads -/

/-- The buffer that a sample is read from: of the first pack at the position, and for a latency
benchmark only the first of its buffers. -/
def sourceAt (p : Product) (packs : List Pack) (position : UInt64) (i : Nat) : Option Octets :=
  if p.isLatency = true ∧ i ≠ 0 then none
  else (packs.find? (·.position == position)).bind (·.buffers[i]?)

/-- How many numbers a sample at a position has. -/
def entryCount (p : Product) (position : UInt64) : Option Nat :=
  if position = 0 then some (p.rows * p.inner)
  else if position = 1 then some (p.inner * p.cols)
  else none

/-- A buffer after the first `count` numbers of a sample have been put at its front, as many of them
as it has room for. -/
def restore (count : Nat) (buffer source : Octets) : Octets :=
  let size := 8 * min (buffer.length / 8) count
  source.take size ++ buffer.drop size

theorem cases_of_entryCount {count : Nat} (h : p.entryCount position = some count) :
    position = 0 ∧ count = p.rows * p.inner ∨ position = 1 ∧ count = p.inner * p.cols := by
  unfold entryCount at h
  split at h
  · next h0 =>
    cases h
    exact .inl ⟨h0, rfl⟩
  · split at h
    · next h1 =>
      cases h
      exact .inr ⟨h1, rfl⟩
    · cases h

theorem getElem?_used (p : Product) (pack : Pack) (i : Nat) :
    (if p.isLatency = true then pack.buffers.take 1 else pack.buffers)[i]? =
      if p.isLatency = true ∧ i ≠ 0 then none else pack.buffers[i]? := by
  cases p.isLatency with
  | false => simp
  | true =>
    cases i with
    | zero => simp
    | succ i =>
      rw [if_pos rfl, if_pos ⟨rfl, Nat.succ_ne_zero i⟩]
      exact List.getElem?_take_eq_none (Nat.le_add_left 1 i)

theorem getElem?_samples (p : Product) (packs : List Pack) (position : UInt64) (rows cols i : Nat) :
    (p.samples packs position rows cols)[i]? =
      (p.sourceAt packs position i).map (sampleMatrix rows cols) := by
  unfold samples sourceAt
  cases packs.find? (·.position == position) with
  | none => simp
  | some pack =>
    simp only [List.getElem?_map, getElem?_used, Option.bind_some]

/-- A sample that is long enough fills its matrix. -/
theorem length_sampleMatrix (h : rows * cols * 8 ≤ source.length) :
    (sampleMatrix rows cols source).entries.length = rows * cols := by
  have hread := Binary64.length_readAll source
  rw [sampleMatrix, List.length_take]
  omega

/-- A sample is read if it is long enough. -/
theorem readSample_eq_ok {m : Matrix Binary64} : readSample rows cols source = .ok m ↔
    rows * cols * 8 ≤ source.length ∧ m = sampleMatrix rows cols source := by
  constructor
  · intro h
    have hm := eq_sampleMatrix source m h
    unfold readSample at h
    split at h
    · cases h
    · next hlength => exact ⟨Nat.le_of_not_lt hlength, hm⟩
  · rintro ⟨hlength, rfl⟩
    rw [readSample, if_neg (Nat.not_lt.2 hlength)]
    exact if_pos (length_sampleMatrix hlength)

/-- What is read as a sample has room for the whole matrix. -/
theorem le_length_of_operand {component : List (Matrix Binary64)}
    (ho : p.operand packs position rows cols = .ok component)
    (hs : p.sourceAt packs position i = some source) : 8 * (rows * cols) ≤ source.length := by
  obtain ⟨pack, hf, ho⟩ := Except.bind_eq_ok.1 ho
  have hmem : source ∈ if p.isLatency = true then pack.buffers.take 1 else pack.buffers := by
    unfold Pack.find at hf
    unfold sourceAt at hs
    cases hfirst : packs.find? (·.position == position) with
    | none =>
      rw [hfirst] at hf
      cases hf
    | some first =>
      rw [hfirst] at hf hs
      cases hf
      rw [Option.bind_some, ← getElem?_used] at hs
      exact List.mem_of_getElem? hs
  dsimp only at ho
  generalize (if p.isLatency = true then pack.buffers.take 1 else pack.buffers) = used at ho hmem
  split at ho
  · cases ho
  · obtain ⟨m, hm⟩ := Except.forall_of_mapM ho source hmem
    rw [Nat.mul_comm]
    exact (readSample_eq_ok.1 hm).1

/-- Each sample that encoding lets through is long enough for the numbers at its position. -/
theorem le_length_of_operands {components : List (List (Matrix Binary64))} {count : Nat}
    (ho : p.operands packs = .ok components) (hcount : p.entryCount position = some count)
    (hs : p.sourceAt packs position i = some source) : 8 * count ≤ source.length := by
  unfold operands at ho
  split at ho
  · cases ho
  obtain ⟨left, hleft, ho⟩ := Except.bind_eq_ok.1 ho
  obtain ⟨right, hright, -⟩ := Except.bind_eq_ok.1 ho
  rcases cases_of_entryCount hcount with ⟨rfl, rfl⟩ | ⟨rfl, rfl⟩
  · exact le_length_of_operand hleft hs
  · exact le_length_of_operand hright hs

/-! ### What decoding writes -/

/-- A matrix that was read off a sample is written as the octets that it was read from. -/
theorem writeInto_sampleMatrix (buffer : Octets) (hs : 8 * (rows * cols) ≤ source.length) :
    Binary64.writeInto buffer (sampleMatrix rows cols source).entries =
      restore (rows * cols) buffer source := by
  have hlength : (sampleMatrix rows cols source).entries.length = rows * cols :=
    length_sampleMatrix (by omega)
  have hfit : Binary64.fitting buffer.length (sampleMatrix rows cols source).entries =
      min (buffer.length / 8) (rows * cols) := by
    rw [Binary64.fitting, hlength]
  have hle : min (buffer.length / 8) (rows * cols) ≤ rows * cols := Nat.min_le_right _ _
  rw [Binary64.writeInto_eq, hfit, sampleMatrix, List.take_take, Nat.min_eq_left hle,
    Binary64.writeAll_readAll source _ (by omega)]
  rfl

/-- What the samples that were encoded leave of the destination. -/
structure Restored (p : Product) (packs dest after : List Pack) : Prop where
  /-- The packs are where they were. -/
  positions : after.map (·.position) = dest.map (·.position)
  /-- In the first pack at the position of an operand, each buffer that there is a sample for has
  the whole numbers of the sample at its front, as many as it has room for, and is as it was behind
  them. The sample is long enough for that. -/
  written : ∀ position count k i buffer source, p.entryCount position = some count →
    Pack.firstAt dest position = some k → Pack.octetsAt dest k i = some buffer →
      p.sourceAt packs position i = some source →
        8 * count ≤ source.length ∧
          Pack.octetsAt after k i = some (restore count buffer source)
  /-- No buffer comes that was not there. -/
  missing : ∀ k i, Pack.octetsAt dest k i = none → Pack.octetsAt after k i = none
  /-- Every other buffer is as it was. -/
  kept : ∀ k i, (∀ position, p.entryCount position ≠ none → Pack.firstAt dest position = some k →
    p.sourceAt packs position i = none) → Pack.octetsAt after k i = Pack.octetsAt dest k i

/-- The samples of both operands are written one after the other, each into its own pack. -/
theorem octetsAt_writeFrom (lefts rights : List (Matrix Binary64)) (dest : List Pack) (k i : Nat) :
    Pack.octetsAt (writeFrom 0 [lefts, rights] dest) k i =
      if Pack.firstAt dest 1 = some k then
        (Pack.octetsAt dest k i).map fun buffer =>
          (rights[i]?.map fun m => Binary64.writeInto buffer m.entries).getD buffer
      else if Pack.firstAt dest 0 = some k then
        (Pack.octetsAt dest k i).map fun buffer =>
          (lefts[i]?.map fun m => Binary64.writeInto buffer m.entries).getD buffer
      else Pack.octetsAt dest k i := by
  let put : Octets → Matrix Binary64 → Octets := fun buffer m => Binary64.writeInto buffer m.entries
  let between := Pack.changeAt 0 (overwrite put · lefts) dest
  have hbetween : Pack.firstAt between 1 = Pack.firstAt dest 1 :=
    Pack.firstAt_congr (Pack.positions_changeAt 0 _ dest) 1
  have hleft := Pack.octetsAt_changeAt 0 put lefts dest k i
  refine (Pack.octetsAt_changeAt 1 put rights between k i).trans ?_
  rw [hbetween, hleft]
  by_cases h1 : Pack.firstAt dest 1 = some k
  · have h0 : Pack.firstAt dest 0 ≠ some k := by
      intro h0
      exact absurd (Pack.firstAt_inj h0 h1) (by decide)
    rw [if_pos h1, if_neg h0, if_pos h1]
  · rw [if_neg h1, if_neg h1]

/-- What is written for a sample is what it was read from. -/
theorem put_sample {components : List (List (Matrix Binary64))}
    (ho : p.operands packs = .ok components)
    (hcount : p.entryCount position = some (rows * cols)) (buffer : Octets) (i : Nat) :
    ((p.samples packs position rows cols)[i]?.map fun m =>
      Binary64.writeInto buffer m.entries).getD buffer =
    ((p.sourceAt packs position i).map (restore (rows * cols) buffer)).getD buffer := by
  rw [getElem?_samples]
  cases hs : p.sourceAt packs position i with
  | none => rfl
  | some source => exact writeInto_sampleMatrix buffer (le_length_of_operands ho hcount hs)

/-- The pack of an operand gets its samples back. -/
theorem octetsAt_restored {components : List (List (Matrix Binary64))} {count : Nat}
    (ho : p.operands packs = .ok components) (hcount : p.entryCount position = some count)
    (hk : Pack.firstAt dest position = some k) (i : Nat) :
    Pack.octetsAt (writeFrom 0 [p.lefts packs, p.rights packs] dest) k i =
      (Pack.octetsAt dest k i).map fun buffer =>
        ((p.sourceAt packs position i).map (restore count buffer)).getD buffer := by
  rw [octetsAt_writeFrom]
  rcases cases_of_entryCount hcount with ⟨rfl, rfl⟩ | ⟨rfl, rfl⟩
  · have h1 : Pack.firstAt dest 1 ≠ some k := by
      intro h1
      exact absurd (Pack.firstAt_inj h1 hk) (by decide)
    rw [if_neg h1, if_pos hk]
    exact congrFun (congrArg Option.map (funext fun buffer => put_sample ho hcount buffer i)) _
  · rw [if_pos hk]
    exact congrFun (congrArg Option.map (funext fun buffer => put_sample ho hcount buffer i)) _

/-- Decoding what was encoded restores the samples. -/
theorem restored_writeFrom {components : List (List (Matrix Binary64))}
    (ho : p.operands packs = .ok components) (dest : List Pack) :
    p.Restored packs dest (writeFrom 0 [p.lefts packs, p.rights packs] dest) := by
  constructor
  case positions =>
    refine (Pack.positions_changeAt 1 _ _).trans ?_
    exact Pack.positions_changeAt 0 _ dest
  case written =>
    intro position count k i buffer source hcount hk hbuffer hs
    refine ⟨le_length_of_operands ho hcount hs, ?_⟩
    rw [octetsAt_restored ho hcount hk, hbuffer, hs]
    rfl
  case missing =>
    intro k i hnone
    rw [octetsAt_writeFrom, hnone]
    simp
  case kept =>
    intro k i hnone
    by_cases hk : ∃ position count, p.entryCount position = some count ∧
        Pack.firstAt dest position = some k
    · obtain ⟨position, count, hcount, hk⟩ := hk
      rw [octetsAt_restored ho hcount hk, hnone position (by simp [hcount]) hk]
      cases Pack.octetsAt dest k i <;> rfl
    · have other : ∀ position count, p.entryCount position = some count →
          Pack.firstAt dest position ≠ some k :=
        fun position count hcount h => hk ⟨position, count, hcount, h⟩
      rw [octetsAt_writeFrom, if_neg (other 1 _ rfl), if_neg (other 0 _ rfl)]

end Product

/-! ### The round trip -/

namespace Engine

variable {w : World} {e : Engine} {h : Handle} {a : Nat} {p : Product} {packs : List Pack}

/-- Decodes what was encoded. -/
def roundTrip (e : Engine) (h : Handle) (packs dest : List Pack) : Act World (List Pack) := do
  let encoded ← e.encode h packs
  e.decode h encoded dest

/-- Encrypts what was encoded, decrypts it again and decodes that. -/
def sealedRoundTrip (e : Engine) (h : Handle) (packs dest : List Pack) :
    Act World (List Pack) := do
  let encoded ← e.encode h packs
  let encrypted ← e.encrypt h encoded
  let decrypted ← e.decrypt h encrypted
  e.decode h decrypted dest

/-- **Decoding undoes encoding.** Whatever a product encodes, each destination gets it back octet
for octet, as it was encoded or after it was encrypted and decrypted, and keeps all the rest. -/
theorem decode_undoes_encode (hf : Benchmark.Found w h (a, ⟨e.session, .product p⟩))
    (hencode : ∃ made w', e.encode h packs w = (.ok made, w')) (dest : List Pack) :
    ∃ after, (∃ w', e.roundTrip h packs dest w = (.ok after, w')) ∧
      (∃ w', e.sealedRoundTrip h packs dest w = (.ok after, w')) ∧
        p.Restored packs dest after := by
  rw [encode_eq hf] at hencode
  obtain ⟨components, ho⟩ : ∃ components, p.operands packs = .ok components := by
    obtain ⟨_, _, hencode⟩ := hencode
    cases ho : p.operands packs with
    | error failure =>
      rw [Product.encode, ho] at hencode
      cases hencode
    | ok components => exact ⟨components, rfl⟩
  obtain ⟨encoded, w₁, h₁, hk₁, hc₁⟩ := Product.encode_carries hencode
  obtain ⟨encrypted, w₂, h₂, hk₂, hc₂⟩ := Product.encrypt_carries hc₁ (by decide)
  obtain ⟨decrypted, w₃, h₃, hk₃, hc₃⟩ := Product.decrypt_carries hc₂ (by decide)
  have hf₁ := hf.kept hk₁
  have hf₂ := hf₁.kept hk₂
  rw [← encode_eq hf] at h₁
  rw [← encrypt_eq hf₁] at h₂
  rw [← decrypt_eq hf₂] at h₃
  have hplain := Product.decode_carries hc₁ (by decide) dest
  have hsealed := Product.decode_carries hc₃ (by decide) dest
  rw [← decode_eq hf₁] at hplain
  rw [← decode_eq (hf₂.kept hk₃)] at hsealed
  refine ⟨_, ⟨w₁, ?_⟩, ⟨w₃, ?_⟩, Product.restored_writeFrom ho dest⟩
  · exact (Act.bind_of_ok h₁).trans hplain
  · rw [sealedRoundTrip, Act.bind_of_ok h₁, Act.bind_of_ok h₂]
    exact (Act.bind_of_ok h₃).trans hsealed

end Engine

/-! ### Numbers that are none -/

namespace Host

/-- A number that is not equal to itself, with some bits to tell it from others. -/
def oddNumber : Octets := [1, 2, 3, 4, 5, 6, 0xF8, 0x7F]

/-- One left factor, with two octets to spare, and the negative zero as the right one. -/
def oddPacks : List Pack :=
  [⟨1, [Binary64.negZero.octets]⟩, ⟨0, [oddNumber ++ [0xBB, 0xBB]]⟩]

/-- Two packs for the left factor, one of them with a buffer to spare, and none for the right. -/
def oddDestination : List Pack :=
  [⟨7, [[0xCC]]⟩, ⟨0, [List.replicate 12 0xAA, [0xDD]]⟩, ⟨0, [List.replicate 8 0xEE]⟩]

/-- The number comes back with all its bits, the half after it is left alone. -/
theorem decode_undoes_encode_odd : multiplier.Has sampleEngine multiplierEngine ∧
    ∃ after w', multiplierEngine.sealedRoundTrip multiplierBenchmark oddPacks oddDestination
      multiplier.world = (.ok after, w') ∧
        Pack.octetsAt after 1 0 = some (oddNumber ++ List.replicate 4 0xAA) ∧
        Pack.octetsAt after 1 1 = some [0xDD] ∧
        Pack.octetsAt after 2 0 = some (List.replicate 8 0xEE) := by
  have hf : Benchmark.Found multiplier.world multiplierBenchmark
      (1, ⟨multiplierEngine.session, .product multiplierProduct⟩) := ⟨rfl, rfl, by decide⟩
  have hencode : ∃ made w', multiplierEngine.encode multiplierBenchmark oddPacks
      multiplier.world = (.ok made, w') := ⟨_, _, rfl⟩
  refine ⟨⟨List.mem_cons_of_mem _ List.mem_cons_self, rfl⟩, ?_⟩
  obtain ⟨after, -, ⟨w', hsealed⟩, hr⟩ := Engine.decode_undoes_encode hf hencode oddDestination
  refine ⟨after, w', hsealed, ?_, ?_, ?_⟩
  · exact (hr.written 0 1 1 0 _ _ rfl rfl rfl rfl).2
  · refine hr.kept 1 1 fun position _ hk => ?_
    obtain rfl : position = 0 := Pack.firstAt_inj hk rfl
    rfl
  · refine hr.kept 2 0 fun position hne hk => ?_
    obtain ⟨count, hcount⟩ := Option.ne_none_iff_exists'.1 hne
    rcases Product.cases_of_entryCount hcount with ⟨rfl, -⟩ | ⟨rfl, -⟩
    · exact absurd hk (by decide)
    · exact absurd hk (by decide)

end Host

end HandleBench
