/-!
# Name tables

Texts by number. The first text registered for a number stays: a second one is refused, so a table
only grows and what has been looked up once is found again.
-/

namespace HandleBench

/-- Texts by number, in the order in which they were registered. -/
structure NameTable where
  /-- The registrations. -/
  rows : List (Int32 × String)
  deriving DecidableEq, Repr

namespace NameTable

/-- No text at all. -/
def empty : NameTable := ⟨[]⟩

instance : Inhabited NameTable := ⟨empty⟩

/-- The text of a number. -/
def find? (t : NameTable) (id : Int32) : Option String := t.rows.lookup id

/-- The table with one more text, unless the number has one. -/
def insert? (t : NameTable) (id : Int32) (text : String) : Option NameTable :=
  if (t.find? id).isSome then none else some ⟨t.rows ++ [(id, text)]⟩

/-- After a registration its number has the new text and every other number what it had. -/
theorem find?_insert? {t u : NameTable} {id : Int32} {text : String}
    (h : t.insert? id text = some u) (i : Int32) :
    u.find? i = if i = id then some text else t.find? i := by
  unfold insert? at h
  split at h
  · simp at h
  · rename_i fresh
    simp only [Option.not_isSome_iff_eq_none] at fresh
    obtain rfl := Option.some.inj h
    simp only [find?, List.lookup_append, List.lookup_cons, List.lookup_nil] at fresh ⊢
    by_cases hi : i = id
    · subst hi
      simp [fresh]
    · have differs : (i == id) = false := by simpa using hi
      simp [hi, differs]

/-- A registration is refused exactly if the number has a text. -/
theorem insert?_eq_none_iff {t : NameTable} {id : Int32} {text : String} :
    t.insert? id text = none ↔ (t.find? id).isSome := by
  unfold insert?
  split <;> simp_all

end NameTable

end HandleBench
