import HandleBench.Proofs.WrittenNumbers

/-!
# Written values

A value that can be written without loss (`Json.Proper`) is read back from its text
(`Json.read?_write`). The proof goes by induction on the value and says more
(`Json.Proper.readsBack`): at whatever level the value is written, whatever ends it, and with as
many steps for the reader as there are characters, the reader stops behind the value. The lines of
an array or an object are read one after another, so these two have a lemma each for a whole block
of lines, given that each value in it is read back (`Json.elementsFrom_block`,
`Json.membersFrom_block`).

A text is read back from between its quotes character by character (`Json.stringBody_quotedChar`).
-/

namespace HandleBench.Json

/-! ### Texts -/

/-- A letter behind a backslash stands for its character. -/
theorem stringBody_letter {letter c : Char} (hu : letter ≠ 'u')
    (hc : escapes.lookup letter = some c) (rest : List Char) :
    stringBody ('\\' :: letter :: rest) = push (some c) (stringBody rest) := by
  rw [stringBody]
  · rw [hc]
  · intro _ _ _ _ _ _ _ _ _ h _
    exact hu h
  · intro _ _ _ _ _ h _
    exact hu h

theorem stringBody_of_unit?_eq_none {a b c d : Char} (hn : unit? a b c d = none)
    (rest : List Char) : stringBody ('\\' :: 'u' :: a :: b :: c :: d :: rest) = none := by
  by_cases hnext : ∃ e f g h more, rest = '\\' :: 'u' :: e :: f :: g :: h :: more
  · obtain ⟨e, f, g, h, more, rfl⟩ := hnext
    rw [stringBody, hn]
  · rw [stringBody, hn]
    intro e f g h more heq
    exact hnext ⟨e, f, g, h, more, heq⟩

/-- Four hexadecimal digits stand for their character, whatever follows them, unless they are the
first half of a surrogate pair. -/
theorem stringBody_unit {a b c d : Char} {n : Nat} (hn : unit? a b c d = some n)
    (hhalf : isHighHalf n = false) (rest : List Char) :
    stringBody ('\\' :: 'u' :: a :: b :: c :: d :: rest) = push (ofUnit n) (stringBody rest) := by
  by_cases hnext : ∃ e f g h more, rest = '\\' :: 'u' :: e :: f :: g :: h :: more
  · -- the reader looks at the next unit too, and finds fault with it on either way
    obtain ⟨e, f, g, h, more, rfl⟩ := hnext
    rw [stringBody, hn]
    cases hlow : unit? e f g h with
    | some low => simp only [hhalf, Bool.false_and, Bool.false_eq_true, if_false]
    | none => rw [stringBody_of_unit?_eq_none hlow, push]
  · rw [stringBody, hn]
    intro e f g h more heq
    exact hnext ⟨e, f, g, h, more, heq⟩

/-- Any other character stands for itself. -/
theorem stringBody_plain {c : Char} (hquote : c ≠ '"') (hslash : c ≠ '\\')
    (hcontrol : ¬ c.toNat < 0x20) (rest : List Char) :
    stringBody (c :: rest) = push (some c) (stringBody rest) := by
  rw [stringBody]
  · simp [hslash, hcontrol]
  · exact hquote
  · intro _ _ _ _ _ _ _ _ _ h _
    exact hslash h
  · intro _ _ _ _ _ h _
    exact hslash h
  · intro _ _ h _
    exact hslash h

theorem hexValue?_digitChar {d : Nat} (h : d < 16) : Text.hexValue? (Nat.digitChar d) = some d := by
  have hall : ∀ d < 16, Text.hexValue? (Nat.digitChar d) = some d := by decide
  exact hall d h

/-- The digits of a control character spell its number. -/
theorem unit?_control {n : Nat} (h : n < 0x20) :
    unit? '0' '0' (Nat.digitChar (n / 16)) (Nat.digitChar (n % 16)) = some n := by
  have hhigh := hexValue?_digitChar (d := n / 16) (by omega)
  have hlow := hexValue?_digitChar (d := n % 16) (by omega)
  have hzero : Text.hexValue? '0' = some 0 := rfl
  simp only [unit?, hzero, hhigh, hlow, Option.pure_def, Option.bind_eq_bind, Option.bind_some,
    Text.ofDigits, List.foldl_cons, List.foldl_nil, Option.some.injEq]
  omega

/-- A character is read back from how it is written inside quotes. -/
theorem stringBody_quotedChar (c : Char) (rest : List Char) :
    stringBody (quotedChar c ++ rest) = push (some c) (stringBody rest) := by
  unfold quotedChar
  split
  case h_8 hquote hslash _ _ _ _ _ =>
    split
    case isTrue hcontrol =>
      have hhigh : isHighHalf c.toNat = false := by
        rw [isHighHalf, decide_eq_false (by omega), Bool.false_and]
      have hlow : isLowHalf c.toNat = false := by
        rw [isLowHalf, decide_eq_false (by omega), Bool.false_and]
      have hunit : ofUnit c.toNat = some c := by
        rw [ofUnit, hhigh, hlow, Bool.or_false, if_neg Bool.false_ne_true, Char.ofNat_toNat]
      rw [← hunit]
      exact stringBody_unit (unit?_control hcontrol) hhigh rest
    case isFalse hcontrol => exact stringBody_plain hquote hslash hcontrol rest
  -- the others have a letter
  all_goals exact stringBody_letter (by decide) rfl rest

/-- The body of a text is read back up to its closing quote. -/
theorem stringBody_quoted (content rest : List Char) :
    stringBody (content.flatMap quotedChar ++ '"' :: rest) = some (content.map some, rest) := by
  induction content with
  | nil => rw [List.flatMap_nil, List.nil_append, stringBody, List.map_nil]
  | cons c content ih =>
    rw [List.flatMap_cons, List.append_assoc, stringBody_quotedChar, ih, push, List.map_cons]

/-- A list is found again if each of its elements is. -/
theorem mapM_map_eq_some {α β : Type} {put : α → β} {get : β → Option α}
    (h : ∀ a, get (put a) = some a) (l : List α) : (l.map put).mapM get = some l := by
  induction l with
  | nil => rfl
  | cons a l ih =>
    rw [List.map_cons, List.mapM_cons, h, ih]
    rfl

theorem contentOf_some (content : List Char) :
    contentOf (content.map some) = some (String.ofList content) := by
  have hall : (content.map some).mapM id = some content :=
    mapM_map_eq_some (by intro; rfl) content
  rw [contentOf, hall, Option.map_some]

/-! ### Values -/

/-- A value that can be written without loss: each text in it is one, and each number is written by
the grammar. -/
inductive Proper : Json → Prop where
  | null : Proper null
  | bool (value : Bool) : Proper (bool value)
  | number {parts : Decimal.Parts} (grammatical : parts.Grammatical) : Proper (number parts)
  | string (content : String) : Proper (string (some content))
  | array {elements : List Json} (proper : ∀ e ∈ elements, Proper e) : Proper (array elements)
  | object {members : List (Option String × Json)} (named : ∀ m ∈ members, m.1.isSome)
      (proper : ∀ m ∈ members, Proper m.2) : Proper (object members)

theorem skipGap_cons_of_gap {c : Char} (h : isGap c = true) (cs : List Char) :
    skipGap (c :: cs) = skipGap cs := by
  rw [skipGap, List.dropWhile_cons_of_pos h, skipGap]

theorem skipGap_cons {c : Char} (h : isGap c = false) (cs : List Char) :
    skipGap (c :: cs) = c :: cs := by
  rw [skipGap, List.dropWhile_cons_of_neg (by simp [h])]

/-- A new line is nothing but blanks. -/
theorem skipGap_newLine (level : Nat) (cs : List Char) :
    skipGap (newLine level ++ cs) = skipGap cs := by
  rw [newLine, List.cons_append, skipGap_cons_of_gap (by rfl)]
  induction 2 * level with
  | zero => rfl
  | succ n ih =>
    rw [List.replicate_succ, List.cons_append, skipGap_cons_of_gap (by rfl)]
    exact ih

theorem skipGap_skipGap (cs : List Char) : skipGap (skipGap cs) = skipGap cs := by
  induction cs with
  | nil => rfl
  | cons c cs ih =>
    cases h : isGap c with
    | true => rw [skipGap_cons_of_gap h, ih]
    | false => rw [skipGap_cons h, skipGap_cons h]

theorem valueFrom_skipGap (fuel : Nat) (cs : List Char) :
    valueFrom fuel (skipGap cs) = valueFrom fuel cs := by
  cases fuel with
  | zero => rfl
  | succ fuel => rw [valueFrom, valueFrom, skipGap_skipGap]

theorem elementsFrom_skipGap (fuel : Nat) (cs : List Char) :
    elementsFrom fuel (skipGap cs) = elementsFrom fuel cs := by
  cases fuel with
  | zero => rfl
  | succ fuel => rw [elementsFrom, elementsFrom, valueFrom_skipGap]

theorem membersFrom_skipGap (fuel : Nat) (cs : List Char) :
    membersFrom fuel (skipGap cs) = membersFrom fuel cs := by
  cases fuel with
  | zero => rfl
  | succ fuel => rw [membersFrom, membersFrom, skipGap_skipGap]

theorem ends_nil : Ends [] := nofun

theorem ends_comma (rest : List Char) : Ends (',' :: rest) := by
  rintro _ ⟨⟩
  exact .inl rfl

theorem ends_newLine (level : Nat) (rest : List Char) : Ends (newLine level ++ rest) := by
  rintro _ ⟨⟩
  exact .inr rfl

/-- A character with which a number may start. -/
def StartsNumber (c : Char) : Prop := c = '-' ∨ ∃ d < 10, c = Nat.digitChar d

theorem startsNumber_chars {n : Decimal.Parts} (hn : n.Grammatical) :
    ∃ c cs, StartsNumber c ∧ n.chars true = c :: cs := by
  rw [chars_parts]
  cases n.negative with
  | true => exact ⟨'-', _, .inl rfl, rfl⟩
  | false =>
    obtain ⟨d, hd, cs, hcs⟩ := front_digitChars hn.whole
      (fractionChars n.fraction ++ exponentChars n.exponent)
    refine ⟨Nat.digitChar d, cs, .inr ⟨d, hd, rfl⟩, ?_⟩
    rw [← hcs]
    simp

/-- A number starts like no other value. -/
theorem StartsNumber.not_mem {c : Char} (h : StartsNumber c) :
    c ∉ [' ', '\n', '\t', '\r', 'n', 't', 'f', '"', '[', ']', '\x7b'] := by
  have hall : ∀ d < 10, Nat.digitChar d ∉
      [' ', '\n', '\t', '\r', 'n', 't', 'f', '"', '[', ']', '\x7b'] := by decide
  rcases h with rfl | ⟨d, hd, rfl⟩
  · decide
  · exact hall d hd

theorem StartsNumber.isGap {c : Char} (h : StartsNumber c) : isGap c = false := by
  have hall := h.not_mem
  simp only [List.mem_cons, not_or] at hall
  simp [Json.isGap, hall]

/-- A value starts neither with a blank nor with a closing bracket. -/
theorem Proper.front {v : Json} (h : Proper v) (level : Nat) :
    ∃ c cs, chars level v = c :: cs ∧ isGap c = false ∧ c ≠ ']' := by
  cases h with
  | null => exact ⟨'n', _, rfl, rfl, by decide⟩
  | bool value => cases value <;> exact ⟨_, _, rfl, rfl, by decide⟩
  | number grammatical =>
    obtain ⟨c, cs, hc, hcs⟩ := startsNumber_chars grammatical
    refine ⟨c, cs, hcs, hc.isGap, ?_⟩
    have hall := hc.not_mem
    simp only [List.mem_cons, not_or] at hall
    exact hall.2.2.2.2.2.2.2.2.2.1
  | string content => exact ⟨'"', _, rfl, rfl, by decide⟩
  | @array elements _ => cases elements <;> exact ⟨'[', _, rfl, rfl, by decide⟩
  | @object members _ _ => cases members <;> exact ⟨'\x7b', _, rfl, rfl, by decide⟩

theorem valueFrom_number {n : Decimal.Parts} (hn : n.Grammatical) (fuel : Nat) {rest : List Char}
    (hr : Ends rest) : valueFrom (fuel + 1) (n.chars true ++ rest) = some (number n, rest) := by
  have hread := numberFrom_chars hn hr
  obtain ⟨c, cs, hc, hcs⟩ := startsNumber_chars hn
  have hall := hc.not_mem
  simp only [List.mem_cons, not_or] at hall
  rw [hcs, List.cons_append] at hread ⊢
  rw [valueFrom, skipGap_cons hc.isGap]
  split
  all_goals simp_all

/-- The value that `chars` writes at any level is what the reader finds there. -/
def ReadsBack (v : Json) : Prop :=
  ∀ level fuel rest, (chars level v).length ≤ fuel → Ends rest →
    valueFrom fuel (chars level v ++ rest) = some (v, rest)

theorem valueFrom_newLine (fuel level : Nat) (cs : List Char) :
    valueFrom fuel (newLine level ++ cs) = valueFrom fuel cs := by
  rw [← valueFrom_skipGap, skipGap_newLine, valueFrom_skipGap]

theorem length_newLine_pos (level : Nat) : 0 < (newLine level).length := Nat.succ_pos _

/-- Elements that are read back from their lines are read back from a block of them. -/
theorem elementsFrom_block {e : Json} {es : List Json} (h : ∀ x ∈ e :: es, ReadsBack x)
    (level outer fuel : Nat)
    (hfuel : (block level (elementLines level (e :: es))).length ≤ fuel) (rest : List Char) :
    elementsFrom fuel (block level (elementLines level (e :: es)) ++
      (newLine outer ++ ']' :: rest)) = some (e :: es, rest) := by
  have hpos := length_newLine_pos level
  induction es generalizing e fuel with
  | nil =>
    simp only [elementLines, block, List.length_append] at hfuel
    obtain ⟨fuel, rfl⟩ : ∃ n, fuel = n + 1 := ⟨fuel - 1, by omega⟩
    have hvalue := h e List.mem_cons_self level fuel (newLine outer ++ ']' :: rest) (by omega)
      (ends_newLine outer _)
    simp only [elementLines, block, List.append_assoc]
    rw [elementsFrom, valueFrom_newLine, hvalue]
    simp only [skipGap_newLine, skipGap_cons (by rfl : isGap ']' = false)]
  | cons e' es ih =>
    simp only [elementLines, block, List.length_append, List.length_cons] at hfuel ih ⊢
    obtain ⟨fuel, rfl⟩ : ∃ n, fuel = n + 1 := ⟨fuel - 1, by omega⟩
    have hvalue := h e List.mem_cons_self level fuel (',' :: (block level
      (chars level e' :: elementLines level es) ++ (newLine outer ++ ']' :: rest))) (by omega)
      (ends_comma _)
    have hmore := ih (fun x hx => h x (List.mem_cons_of_mem e hx)) fuel (by omega)
    simp only [List.append_assoc, List.cons_append]
    rw [elementsFrom, valueFrom_newLine, hvalue]
    simp only [skipGap_cons (by rfl : isGap ',' = false), hmore, Option.map_some]

theorem stringBody_contentChars (content : String) (rest : List Char) :
    ∃ body, stringBody ((contentChars (some content)).flatMap quotedChar ++ '"' :: rest) =
      some (body, rest) ∧ contentOf body = some content := by
  refine ⟨_, stringBody_quoted _ rest, ?_⟩
  rw [contentOf_some, contentChars, Option.getD_some, String.ofList_toList]

section Member

variable {name : String} {v : Json} (hv : ReadsBack v) (level fuel : Nat) {rest after : List Char}
  (hfuel : (chars level v).length ≤ fuel) (hr : Ends rest)

include hv hfuel hr

theorem valueFrom_blank : valueFrom fuel (' ' :: (chars level v ++ rest)) = some (v, rest) := by
  rw [← valueFrom_skipGap, skipGap_cons_of_gap (by rfl), valueFrom_skipGap]
  exact hv level fuel rest hfuel hr

/-- A member in front of a closing brace is the last one. -/
theorem membersFrom_last (hafter : skipGap rest = '\x7d' :: after) :
    membersFrom (fuel + 1) (newLine level ++ (quoted (contentChars (some name)) ++
      ':' :: ' ' :: (chars level v ++ rest))) = some ([(some name, v)], after) := by
  obtain ⟨body, hbody, hcontent⟩ := stringBody_contentChars name
    (':' :: ' ' :: (chars level v ++ rest))
  rw [membersFrom, skipGap_newLine, quoted]
  simp only [List.append_assoc, List.cons_append, List.nil_append,
    skipGap_cons (by rfl : isGap '"' = false), hbody, skipGap_cons (by rfl : isGap ':' = false),
    valueFrom_blank hv level fuel hfuel hr, hafter, hcontent]

/-- Behind a comma there are more members. -/
theorem membersFrom_more (hafter : skipGap rest = ',' :: after) :
    membersFrom (fuel + 1) (newLine level ++ (quoted (contentChars (some name)) ++
      ':' :: ' ' :: (chars level v ++ rest))) =
      (membersFrom fuel after).map fun (members, rest) => ((some name, v) :: members, rest) := by
  obtain ⟨body, hbody, hcontent⟩ := stringBody_contentChars name
    (':' :: ' ' :: (chars level v ++ rest))
  rw [membersFrom, skipGap_newLine, quoted]
  simp only [List.append_assoc, List.cons_append, List.nil_append,
    skipGap_cons (by rfl : isGap '"' = false), hbody, skipGap_cons (by rfl : isGap ':' = false),
    valueFrom_blank hv level fuel hfuel hr, hafter, hcontent]

end Member

/-- Members whose values are read back from their lines are read back from a block of them. -/
theorem membersFrom_block {m : Option String × Json} {ms : List (Option String × Json)}
    (hnamed : ∀ x ∈ m :: ms, x.1.isSome) (h : ∀ x ∈ m :: ms, ReadsBack x.2)
    (level outer fuel : Nat)
    (hfuel : (block level (memberLines level (m :: ms))).length ≤ fuel) (rest : List Char) :
    membersFrom fuel (block level (memberLines level (m :: ms)) ++
      (newLine outer ++ '\x7d' :: rest)) = some (m :: ms, rest) := by
  have hpos := length_newLine_pos level
  induction ms generalizing m fuel with
  | nil =>
    obtain ⟨name, v⟩ := m
    obtain ⟨name, rfl⟩ := Option.isSome_iff_exists.mp (hnamed _ List.mem_cons_self)
    have hv : ReadsBack v := h _ List.mem_cons_self
    simp only [memberLines, block, List.length_append, List.length_cons] at hfuel
    obtain ⟨fuel, rfl⟩ : ∃ n, fuel = n + 1 := ⟨fuel - 1, by omega⟩
    simp only [memberLines, block, List.append_assoc, List.cons_append]
    refine membersFrom_last hv level fuel (by omega) (ends_newLine outer ('\x7d' :: rest)) ?_
    rw [skipGap_newLine, skipGap_cons (by rfl)]
  | cons m' ms ih =>
    obtain ⟨name, v⟩ := m
    obtain ⟨name, rfl⟩ := Option.isSome_iff_exists.mp (hnamed _ List.mem_cons_self)
    have hv : ReadsBack v := h _ List.mem_cons_self
    -- the lines that are left stay one block, whatever is in the first of them
    obtain ⟨line, lines, hlines⟩ : ∃ line lines,
        memberLines level (m' :: ms) = line :: lines := ⟨_, _, rfl⟩
    rw [memberLines, hlines] at hfuel ⊢
    simp only [block, List.length_append, List.length_cons] at hfuel
    obtain ⟨fuel, rfl⟩ : ∃ n, fuel = n + 1 := ⟨fuel - 1, by omega⟩
    have hmore := ih (fun x hx => hnamed x (List.mem_cons_of_mem _ hx))
      (fun x hx => h x (List.mem_cons_of_mem _ hx)) fuel (by rw [hlines]; omega)
    rw [hlines] at hmore
    simp only [block, List.append_assoc, List.cons_append]
    rw [membersFrom_more hv level fuel (by omega) (ends_comma _) (skipGap_cons (by rfl) _), hmore,
      Option.map_some]

/-- A block starts on a new line with the first of its lines. -/
theorem block_append (level : Nat) (line : List Char) (lines : List (List Char))
    (rest : List Char) :
    ∃ more, block level (line :: lines) ++ rest = newLine level ++ (line ++ more) := by
  cases lines with
  | nil => exact ⟨rest, by rw [block, List.append_assoc]⟩
  | cons next lines =>
    exact ⟨',' :: block level (next :: lines) ++ rest, by simp [block]⟩

/-- An array that does not close at once has elements. -/
theorem valueFrom_elements (fuel : Nat) {cs : List Char}
    (hfront : (skipGap cs).head? ≠ some ']') :
    valueFrom (fuel + 1) ('[' :: cs) =
      (elementsFrom fuel cs).map fun (elements, rest) => (array elements, rest) := by
  rw [valueFrom, ← elementsFrom_skipGap]
  simp only [skipGap_cons (by rfl : isGap '[' = false)]
  split
  case h_1 rest heq => exact absurd (congrArg List.head? heq) hfront
  case h_2 => rfl

/-- An object that does not close at once has members. -/
theorem valueFrom_members (fuel : Nat) {cs : List Char}
    (hfront : (skipGap cs).head? ≠ some '\x7d') :
    valueFrom (fuel + 1) ('\x7b' :: cs) =
      (membersFrom fuel cs).map fun (members, rest) => (object members, rest) := by
  rw [valueFrom, ← membersFrom_skipGap]
  simp only [skipGap_cons (by rfl : isGap '\x7b' = false)]
  split
  case h_1 rest heq => exact absurd (congrArg List.head? heq) hfront
  case h_2 => rfl

/-- The text of a value is not empty, so the reader has at least one step for it. -/
theorem Proper.readsBack_of_succ {v : Json} (h : Proper v)
    (hsucc : ∀ level fuel rest, (chars level v).length ≤ fuel + 1 → Ends rest →
      valueFrom (fuel + 1) (chars level v ++ rest) = some (v, rest)) : ReadsBack v := by
  intro level fuel rest hfuel hr
  cases fuel with
  | zero =>
    obtain ⟨c, cs, hc, -⟩ := h.front level
    rw [hc] at hfuel
    exact absurd hfuel (Nat.not_succ_le_zero _)
  | succ fuel => exact hsucc level fuel rest hfuel hr

theorem valueFrom_string (content : String) (level fuel : Nat) (rest : List Char) :
    valueFrom (fuel + 1) (chars level (string (some content)) ++ rest) =
      some (string (some content), rest) := by
  obtain ⟨body, hbody, hcontent⟩ := stringBody_contentChars content rest
  rw [chars, quoted, valueFrom]
  simp only [List.append_assoc, List.cons_append, List.nil_append,
    skipGap_cons (by rfl : isGap '"' = false), hbody, Option.map_some, hcontent]

/-- An array is read back when its elements are. -/
theorem valueFrom_array {elements : List Json} (proper : ∀ e ∈ elements, Proper e)
    (h : ∀ e ∈ elements, ReadsBack e) (level fuel : Nat) (rest : List Char)
    (hfuel : (chars level (array elements)).length ≤ fuel + 1) :
    valueFrom (fuel + 1) (chars level (array elements) ++ rest) =
      some (array elements, rest) := by
  cases elements with
  | nil => rfl
  | cons e es =>
    rw [chars, List.length_append, List.length_append, List.length_cons] at hfuel
    have hread := elementsFrom_block h (level + 1) level fuel (by omega) rest
    obtain ⟨c, cs, hc, hgap, hclose⟩ := (proper e List.mem_cons_self).front (level + 1)
    have hfront : (skipGap (block (level + 1) (elementLines (level + 1) (e :: es)) ++
        (newLine level ++ ']' :: rest))).head? ≠ some ']' := by
      obtain ⟨more, hmore⟩ := block_append (level + 1) (chars (level + 1) e)
        (elementLines (level + 1) es) (newLine level ++ ']' :: rest)
      rw [elementLines, hmore, skipGap_newLine, hc, List.cons_append, skipGap_cons hgap]
      simpa using hclose
    rw [chars]
    simp only [List.append_assoc, List.cons_append, List.nil_append]
    rw [valueFrom_elements fuel hfront, hread, Option.map_some]

/-- An object is read back when the values of its members are. -/
theorem valueFrom_object {members : List (Option String × Json)}
    (named : ∀ m ∈ members, m.1.isSome) (h : ∀ m ∈ members, ReadsBack m.2)
    (level fuel : Nat) (rest : List Char)
    (hfuel : (chars level (object members)).length ≤ fuel + 1) :
    valueFrom (fuel + 1) (chars level (object members) ++ rest) =
      some (object members, rest) := by
  cases members with
  | nil => rfl
  | cons m ms =>
    rw [chars, List.length_append, List.length_append, List.length_cons] at hfuel
    have hread := membersFrom_block named h (level + 1) level fuel (by omega) rest
    have hfront : (skipGap (block (level + 1) (memberLines (level + 1) (m :: ms)) ++
        (newLine level ++ '\x7d' :: rest))).head? ≠ some '\x7d' := by
      obtain ⟨more, hmore⟩ := block_append (level + 1)
        (quoted (contentChars m.1) ++ ':' :: ' ' :: chars (level + 1) m.2)
        (memberLines (level + 1) ms) (newLine level ++ '\x7d' :: rest)
      rw [memberLines, hmore, skipGap_newLine, quoted, List.cons_append, List.cons_append,
        List.cons_append, skipGap_cons (by rfl : isGap '"' = false)]
      simp
    rw [chars]
    simp only [List.append_assoc, List.cons_append, List.nil_append]
    rw [valueFrom_members fuel hfront, hread, Option.map_some]

/-- **What is written is read back**, at whatever level it is written. -/
theorem Proper.readsBack {v : Json} (h : Proper v) : ReadsBack v := by
  induction h with
  | null => exact Proper.null.readsBack_of_succ fun _ _ _ _ _ => rfl
  | bool value =>
    exact (Proper.bool value).readsBack_of_succ fun _ _ _ _ _ => by cases value <;> rfl
  | @number parts grammatical =>
    refine (Proper.number grammatical).readsBack_of_succ fun level fuel rest _ hr => ?_
    have hchars : chars level (Json.number parts) = parts.chars true := by rw [chars]; rfl
    rw [hchars]
    exact valueFrom_number grammatical fuel hr
  | string content =>
    exact (Proper.string content).readsBack_of_succ fun level fuel rest _ _ =>
      valueFrom_string content level fuel rest
  | array proper ih =>
    exact (Proper.array proper).readsBack_of_succ fun level fuel rest hfuel _ =>
      valueFrom_array proper ih level fuel rest hfuel
  | object named proper ih =>
    exact (Proper.object named proper).readsBack_of_succ fun level fuel rest hfuel _ =>
      valueFrom_object named ih level fuel rest hfuel

/-- **The text of a value is read as that value.** -/
theorem read?_write {v : Json} (h : Proper v) : read? (write v) = some v := by
  have hread := h.readsBack 0 (2 * (chars 0 v).length + 2) [] (by omega) ends_nil
  rw [List.append_nil] at hread
  rw [read?, write, String.length_ofList, String.toList_ofList, hread]
  rfl

end HandleBench.Json
