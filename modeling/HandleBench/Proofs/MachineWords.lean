import HandleBench.Act

/-!
# Computing in machine words

The library counts in natural numbers, and it takes pieces of lists that may be shorter than the
piece. On a machine a size is a word, a product of sizes can be more than a word holds, and a slice
can leave its list; both end in a panic. A computation that is written down the machine's way comes
to that of the library if neither happens, and it does not panic then: `Machine.ofExcept`.
-/

namespace HandleBench

/-- A computation on a machine. It can be refused like one of the library, and it can panic. -/
abbrev Machine (α : Type) : Type := Except Stop α

namespace Machine

variable {σ α β : Type}

/-- A computation of the library, on a machine that it does not overtax. -/
def ofExcept : Except Failure α → Machine α
  | .ok a => .ok a
  | .error failure => .error (.refused failure)

/-- Carries out a computation as a part of an act. -/
def act : Machine α → Act σ α
  | .ok a => pure a
  | .error reason => Act.stop reason

/-- The product of two sizes, which must fit a word. -/
def times (a b : Nat) : Machine Nat :=
  if a * b < UInt64.size then .ok (a * b)
  else .error (.panicked "attempt to multiply with overflow")

/-- The sum of two words, nothing if it does not fit a word. -/
def sum? (a b : UInt64) : Option UInt64 :=
  if a.toNat + b.toNat < UInt64.size then some (a + b) else none

/-- The difference of two sizes, of which the second must not be the greater. -/
def minus (a b : Nat) : Machine Nat :=
  if b ≤ a then .ok (a - b) else .error (.panicked "attempt to subtract with overflow")

/-- The size nearest to another one within two bounds, which must leave room. -/
def clamp (low high size : Nat) : Machine Nat :=
  if low ≤ high then .ok (min (max size low) high) else .error (.panicked "min > max")

/-- The element at an index, which must be there. -/
def element (index : Nat) (elements : List α) : Machine α :=
  match elements[index]? with
  | some a => .ok a
  | none => .error (.panicked "index out of bounds")

/-- The elements from `start` up to `stop`, which must all be there. -/
def slice (start stop : Nat) (elements : List α) : Machine (List α) :=
  if start ≤ stop ∧ stop ≤ elements.length then .ok ((elements.drop start).take (stop - start))
  else .error (.panicked "slice out of range")

/-- A computation that stops where a slice would leave its list, on a machine. -/
def ofOption : Option α → Machine α
  | some a => .ok a
  | none => .error (.panicked "slice out of range")

/-! ### What a machine does within its limits -/

theorem times_eq {a b : Nat} (h : a * b < UInt64.size) : times a b = .ok (a * b) := if_pos h

theorem minus_eq {a b : Nat} (h : b ≤ a) : minus a b = .ok (a - b) := if_pos h

theorem clamp_eq {low high : Nat} (h : low ≤ high) (size : Nat) :
    clamp low high size = .ok (min (max size low) high) := if_pos h

theorem element_eq {elements : List α} {index : Nat} (h : index < elements.length) (default : α) :
    element index elements = .ok (elements.getD index default) := by
  rw [element, List.getD_eq_getElem?_getD, List.getElem?_eq_getElem h]
  rfl

theorem slice_eq {start stop : Nat} {elements : List α} (hle : start ≤ stop)
    (hlength : stop ≤ elements.length) :
    slice start stop elements = .ok ((elements.drop start).take (stop - start)) :=
  if_pos ⟨hle, hlength⟩

theorem sum?_eq_none {a b : UInt64} (h : UInt64.size ≤ a.toNat + b.toNat) : sum? a b = none :=
  if_neg (Nat.not_lt.2 h)

/-- A sum that fits a word is the sum of the numbers. -/
theorem sum?_eq_some {a b : UInt64} (h : a.toNat + b.toNat < UInt64.size) :
    sum? a b = some (a + b) ∧ (a + b).toNat = a.toNat + b.toNat := by
  refine ⟨if_pos h, ?_⟩
  rw [UInt64.toNat_add]
  exact Nat.mod_eq_of_lt h

/-! ### Computations of the library on a machine -/

theorem ofExcept_bind (e : Except Failure α) (next : α → Except Failure β) :
    ofExcept (e >>= next) = ofExcept e >>= fun a => ofExcept (next a) := by
  cases e <;> rfl

/-- Step by step a machine goes through a list as the library does. -/
theorem ofExcept_mapM {f : α → Except Failure β} {g : α → Machine β} {xs : List α}
    (h : ∀ x ∈ xs, g x = ofExcept (f x)) : xs.mapM g = ofExcept (xs.mapM f) := by
  induction xs with
  | nil => rfl
  | cons x xs ih =>
    rw [List.mapM_cons, List.mapM_cons, h x List.mem_cons_self,
      ih fun x' hx => h x' (List.mem_cons_of_mem x hx)]
    cases f x with
    | error failure => rfl
    | ok y => cases xs.mapM f <;> rfl

theorem ofOption_bind (o : Option α) (next : α → Option β) :
    ofOption (o >>= next) = ofOption o >>= fun a => ofOption (next a) := by
  cases o <;> rfl

/-- A loop on a machine is the checked loop if each of its steps is the checked step. -/
theorem foldlM_ofOption {f : β → α → Option β} {g : β → α → Machine β} {xs : List α}
    (h : ∀ x ∈ xs, ∀ b, g b x = ofOption (f b x)) (start : β) :
    xs.foldlM g start = ofOption (xs.foldlM f start) := by
  induction xs generalizing start with
  | nil => rfl
  | cons x xs ih =>
    rw [List.foldlM_cons, List.foldlM_cons, h x List.mem_cons_self, ofOption_bind]
    cases f start x with
    | none => rfl
    | some b => exact ih (fun x' hx => h x' (List.mem_cons_of_mem x hx)) b

/-- As a part of an act, it is what the library does there. -/
theorem act_ofExcept (e : Except Failure α) :
    (act (ofExcept e) : Act σ α) = Act.ofExcept e := by
  cases e <;> rfl

end Machine

end HandleBench
