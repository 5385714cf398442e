import HandleBench.Proofs.Releases

/-!
# Sharing of payloads

All handles that descend from the first handle of a payload hold that payload, whichever steps have
shared it and whatever has been released meanwhile. Their number is the count that the library
keeps, each of them gives the value that was put in, and releasing one of them is nothing to the
others.
-/

namespace HandleBench

namespace Host

variable {s : Host} {h : Handle} {session : SessionId} {root : Nat}

/-- The payload behind a booked handle. -/
theorem payload_of_held (ha : s.ledger.Agrees s.world)
    (hm : (h, .object session root) ∈ s.ledger.held) :
    ∃ found value, Object.Found s.world session h found ∧ s.ledger.values[root]? = some value ∧
      s.world.payload? found.2.payload = some ⟨value, s.ledger.heirs root⟩ := by
  obtain ⟨found, hf, hr⟩ := ha.backed.object_found hm
  have hlt := ha.counted.rooted _ hm root rfl
  refine ⟨found, s.ledger.values[root], hf, List.getElem?_eq_getElem hlt, ?_⟩
  rw [hr]
  exact ha.counted.payload_of_heirs (List.getElem?_eq_getElem hlt) (Ledger.heirs_pos hm rfl)

theorem holders_of_held (ha : s.ledger.Agrees s.world)
    (hm : (h, .object session root) ∈ s.ledger.held) :
    Object.holders session h s.world = (.ok (s.ledger.heirs root), s.world) := by
  obtain ⟨found, value, hf, -, hp⟩ := payload_of_held ha hm
  rw [hf.holders_eq, hp]
  rfl

theorem retrieve_of_held (ha : s.ledger.Agrees s.world)
    (hm : (h, .object session root) ∈ s.ledger.held) :
    ∃ value, s.ledger.values[root]? = some value ∧ ∀ required expected,
      Object.retrieve session h required expected s.world =
        Act.ofExcept (do h.checkObject required; value.give expected) s.world := by
  obtain ⟨found, value, hf, hv, hp⟩ := payload_of_held ha hm
  exact ⟨value, hv, fun required expected => hf.retrieve_eq hp required expected⟩

end Host

end HandleBench
