import HandleBench.Param
import HandleBench.Proofs.Encodings
import Mathlib.Data.List.TakeWhile

/-!
# Names in their fields

The field of a parameter has room for 255 octets of its name, and a longer name is cut there, inside
a character if it comes to that. What is left of the character reads as one replacement character,
because the octets of a character are told from every other sequence only at the last of them
(`Text.Utf8.front_of_beginning`). So a name is read back whole, or as the longest beginning that
there is room for, with at most one replacement character behind it: `Param.NameLaw`. Zero
characters are no different from others when a name is put into its field, only when it is read.
-/

namespace HandleBench

namespace Text

namespace Utf8

/-! ### Reading what has been cut off -/

/-- A beginning of the octets of a character is a character that is cut off. -/
theorem front_of_beginning {octets rest : Octets} {c : Char}
    (h : front (octets ++ rest) = .char c []) (hoctets : octets ≠ []) (hrest : rest ≠ []) :
    front octets = .cut := by
  -- no character ends before the rest
  have whole : ∀ {c' more}, Front.char c' (more ++ rest) ≠ .char c [] := by
    intro c' more he
    exact hrest (List.append_eq_nil_iff.1 (Front.char.inj he).2).2
  -- four octets are looked at, at most, so their count tells how far the reader gets
  match octets with
  | [] => exact absurd rfl hoctets
  | [a] =>
    simp only [front, List.cons_append, List.nil_append] at h ⊢
    grind
  | [a, b] =>
    simp only [front, List.cons_append, List.nil_append] at h ⊢
    grind
  | [a, b, c'] =>
    simp only [front, List.cons_append, List.nil_append] at h ⊢
    grind
  | a :: b :: c' :: d :: more =>
    simp only [front, List.cons_append] at h ⊢
    grind

theorem forgive_nil : forgive [] = [] := by
  rw [forgive]
  split <;> simp_all [front]

theorem forgive_of_char {octets rest : Octets} {c : Char} (h : front octets = .char c rest) :
    forgive octets = c :: forgive rest := by
  rw [forgive]
  split <;> simp_all

theorem forgive_of_cut {octets : Octets} (h : front octets = .cut) :
    forgive octets = [replacement] := by
  rw [forgive]
  split <;> simp_all

/-- Characters at the front are read as they are. -/
theorem forgive_encoded_append (cs : List Char) (rest : Octets) :
    forgive (cs.flatMap String.utf8EncodeChar ++ rest) = cs ++ forgive rest := by
  induction cs with
  | nil => rfl
  | cons c cs ih =>
    rw [List.flatMap_cons, List.append_assoc, forgive_of_char (front_utf8EncodeChar c _), ih,
      List.cons_append]

theorem decodeForgiving_encode (text : String) : decodeForgiving (encode text) = text := by
  rw [decodeForgiving, encode, ← List.append_nil (text.toList.flatMap _), forgive_encoded_append,
    forgive_nil, List.append_nil]
  exact String.ofList_toList

/-- Whatever part of a character is left, one replacement character stands for it. -/
theorem forgive_take_utf8EncodeChar (c : Char) {n : Nat} (hpos : 0 < n) (hlt : n < c.utf8Size) :
    forgive ((String.utf8EncodeChar c).take n) = [replacement] := by
  have hlength : (String.utf8EncodeChar c).length = c.utf8Size := String.length_utf8EncodeChar c
  have hfront : front ((String.utf8EncodeChar c).take n ++ (String.utf8EncodeChar c).drop n) =
      .char c [] := by
    rw [List.take_append_drop, ← List.append_nil (String.utf8EncodeChar c)]
    exact front_utf8EncodeChar c []
  refine forgive_of_cut (front_of_beginning hfront ?_ ?_)
  · refine List.ne_nil_of_length_pos ?_
    rw [List.length_take]
    omega
  · refine List.ne_nil_of_length_pos ?_
    rw [List.length_drop]
    omega

/-- No character but the zero character has an octet zero. -/
theorem zero_notMem_utf8EncodeChar {c : Char} (h : c ≠ '\x00') :
    0 ∉ String.utf8EncodeChar c := by
  have hpos : c.val.toNat ≠ 0 := fun hz => h (Char.ext (UInt32.toNat_inj.1 hz))
  have hrange : c.val.toNat < 0x110000 := by
    have hvalid : c.val.toNat < 0xD800 ∨ 0xDFFF < c.val.toNat ∧ c.val.toNat < 0x110000 := c.valid
    omega
  have hnonzero : ∀ n, 0 < n → n < 256 → 0 ≠ UInt8.ofNat n := by
    intro n hn hlt hz
    have htoNat := congrArg UInt8.toNat hz
    rw [toNat_ofNat hlt] at htoNat
    exact absurd htoNat (Nat.ne_of_lt hn)
  unfold String.utf8EncodeChar
  generalize c.val.toNat = v at hpos hrange ⊢
  dsimp only
  -- one case for each count of octets
  split
  case isTrue hone => simpa using hnonzero v (by omega) (by omega)
  split
  case isTrue htwo =>
    simp only [List.mem_cons, List.not_mem_nil, or_false, not_or]
    exact ⟨hnonzero _ (by omega) (by omega), hnonzero _ (by omega) (by omega)⟩
  split
  case isTrue hthree =>
    simp only [List.mem_cons, List.not_mem_nil, or_false, not_or]
    exact ⟨hnonzero _ (by omega) (by omega), hnonzero _ (by omega) (by omega),
      hnonzero _ (by omega) (by omega)⟩
  case isFalse hfour =>
    simp only [List.mem_cons, List.not_mem_nil, or_false, not_or]
    exact ⟨hnonzero _ (by omega) (by omega), hnonzero _ (by omega) (by omega),
      hnonzero _ (by omega) (by omega), hnonzero _ (by omega) (by omega)⟩

theorem zero_notMem_encode {text : String} (h : '\x00' ∉ text.toList) : 0 ∉ encode text := by
  intro hzero
  obtain ⟨c, hc, hmem⟩ := List.mem_flatMap.1 hzero
  exact zero_notMem_utf8EncodeChar (fun he => h (he ▸ hc)) hmem

/-! ### Where characters begin -/

/-- How many octets the characters take. -/
def size (cs : List Char) : Nat := (cs.flatMap String.utf8EncodeChar).length

@[simp] theorem size_nil : size [] = 0 := rfl

@[simp] theorem size_cons (c : Char) (cs : List Char) : size (c :: cs) = c.utf8Size + size cs := by
  simp [size]

@[simp] theorem size_append (cs ds : List Char) : size (cs ++ ds) = size cs + size ds := by
  simp [size]

theorem size_le_of_prefix {cs ds : List Char} (h : cs <+: ds) : size cs ≤ size ds := by
  obtain ⟨rest, rfl⟩ := h
  rw [size_append]
  exact Nat.le_add_right _ _

/-- `kept` is the longest beginning of the characters that takes no more than `room` octets. -/
structure LongestWithin (room : Nat) (cs kept : List Char) : Prop where
  /-- It is a beginning. -/
  begins : kept <+: cs
  /-- It takes no more octets than that. -/
  fits : size kept ≤ room
  /-- Any other that takes no more is a beginning of it. -/
  longest : ∀ other, other <+: cs → size other ≤ room → other <+: kept

/-- The octet at the index is one of a character that begins before it. -/
def FallsInside (index : Nat) (cs : List Char) : Prop :=
  ∃ before c after, cs = before ++ c :: after ∧ size before < index ∧
    index < size before + c.utf8Size

/-- There is room for `kept`, but not for the character `c` that follows. -/
structure CutAt (room : Nat) (cs kept : List Char) (c : Char) : Prop where
  /-- The character follows what is kept. -/
  begins : kept ++ [c] <+: cs
  /-- There is room for what is kept. -/
  fits : size kept ≤ room
  /-- There is none for the character. -/
  exceeds : room < size kept + c.utf8Size

/-- Characters that take more octets than there is room for are cut at one of them. -/
theorem exists_cutAt {room : Nat} {cs : List Char} (h : room < size cs) :
    ∃ kept c, CutAt room cs kept c := by
  induction cs generalizing room with
  | nil => exact absurd h (Nat.not_lt_zero room)
  | cons c cs ih =>
    rw [size_cons] at h
    by_cases hc : room < c.utf8Size
    · exact ⟨[], c, ⟨cs, rfl⟩, Nat.zero_le room, by simpa using hc⟩
    · obtain ⟨kept, d, hbegins, hfits, hexceeds⟩ := @ih (room - c.utf8Size) (by omega)
      refine ⟨c :: kept, d, List.cons_prefix_cons.2 ⟨rfl, hbegins⟩, ?_, ?_⟩
      · rw [size_cons]
        omega
      · rw [size_cons]
        omega

namespace CutAt

variable {room : Nat} {cs kept : List Char} {c : Char}

theorem longestWithin (hc : CutAt room cs kept c) : LongestWithin room cs kept := by
  refine ⟨(List.prefix_append kept [c]).trans hc.begins, hc.fits, fun other hother hfits => ?_⟩
  have hexceeds := hc.exceeds
  have hsize : size (kept ++ [c]) = size kept + c.utf8Size := by simp
  rcases List.prefix_or_prefix_of_prefix hother hc.begins with hle | hge
  · rcases List.prefix_concat_iff.1 hle with rfl | hkept
    · omega
    · exact hkept
  · have hother := size_le_of_prefix hge
    omega

/-- The room ends inside a character exactly if some of it is left. -/
theorem fallsInside_iff (hc : CutAt room cs kept c) : FallsInside room cs ↔ size kept < room := by
  constructor
  · rintro ⟨before, d, after, rfl, hbefore, hafter⟩
    refine Nat.lt_of_le_of_ne hc.fits fun hroom => ?_
    -- a character that begins before the end of what is kept ends there, too
    have hsize : size (before ++ [d]) = size before + d.utf8Size := by simp
    have hd : before ++ [d] <+: before ++ d :: after := ⟨after, by simp⟩
    rcases List.prefix_or_prefix_of_prefix hc.longestWithin.begins hd with hle | hge
    · rcases List.prefix_concat_iff.1 hle with rfl | hle
      · omega
      · have hkept := size_le_of_prefix hle
        omega
    · have hkept := size_le_of_prefix hge
      omega
  · intro hlt
    obtain ⟨after, hafter⟩ := hc.begins
    exact ⟨kept, c, after, by rw [← hafter]; simp, hlt, hc.exceeds⟩

/-- What is kept is read, and a replacement character for what is left of the one that follows. -/
theorem forgive_take (hc : CutAt room cs kept c) :
    forgive ((cs.flatMap String.utf8EncodeChar).take room) =
      if size kept < room then kept ++ [replacement] else kept := by
  obtain ⟨after, rfl⟩ := hc.begins
  have hfits := hc.fits
  have hexceeds := hc.exceeds
  have hpart : room - size kept ≤ (String.utf8EncodeChar c).length := by
    rw [String.length_utf8EncodeChar]
    omega
  have htake : ((kept ++ [c] ++ after).flatMap String.utf8EncodeChar).take room =
      kept.flatMap String.utf8EncodeChar ++
        (String.utf8EncodeChar c).take (room - size kept) := by
    rw [List.append_assoc, List.flatMap_append, List.singleton_append, List.flatMap_cons,
      List.take_append, List.take_of_length_le hfits]
    exact congrArg _ (List.take_append_of_le_length hpart)
  rw [htake, forgive_encoded_append]
  split
  case isTrue hlt => rw [forgive_take_utf8EncodeChar c (by omega) (by omega)]
  case isFalse hge => rw [Nat.sub_eq_zero_of_le (by omega), List.take_zero, forgive_nil,
    List.append_nil]

end CutAt

end Utf8

/-! ### Terminators -/

theorem upToTerminator_of_notMem {octets : Octets} (h : 0 ∉ octets) :
    upToTerminator octets = octets :=
  List.takeWhile_eq_self_iff.2 fun _ hb => bne_iff_ne.2 fun hz => h (hz ▸ hb)

/-- Zeros at the end are nothing to what is before the first one. -/
theorem upToTerminator_append_zeros (octets : Octets) (n : Nat) :
    upToTerminator (octets ++ List.replicate n 0) = upToTerminator octets := by
  induction octets with
  | nil => cases n <;> simp [upToTerminator, List.replicate_succ]
  | cons b octets ih =>
    simp only [upToTerminator, List.cons_append, List.takeWhile_cons] at ih ⊢
    rw [ih]

/-- Nor is anything else behind a zero, wherever it is cut off. -/
theorem upToTerminator_take_append (octets rest : Octets) (room : Nat) :
    upToTerminator ((octets ++ 0 :: rest).take room) = upToTerminator (octets.take room) := by
  induction octets generalizing room with
  | nil => cases room <;> simp [upToTerminator]
  | cons b octets ih =>
    cases room with
    | zero => rfl
    | succ room =>
      simp only [upToTerminator, List.cons_append, List.take_succ_cons, List.takeWhile_cons] at ih ⊢
      rw [ih]

/-- What is before the first zero character of a text. -/
def beforeZero (text : String) : String :=
  String.ofList (text.toList.takeWhile (· != '\x00'))

/-- Up to the first zero, the octets of a text are those of what is before its first zero
character. -/
theorem upToTerminator_beforeZero (text : String) (room : Nat) :
    upToTerminator ((Utf8.encode (beforeZero text)).take room) =
      upToTerminator ((Utf8.encode text).take room) := by
  have hbefore : Utf8.encode (beforeZero text) =
      (text.toList.takeWhile (· != '\x00')).flatMap String.utf8EncodeChar := by
    rw [Utf8.encode, beforeZero, String.toList_ofList]
  have hsplit : Utf8.encode text = Utf8.encode (beforeZero text) ++
      (text.toList.dropWhile (· != '\x00')).flatMap String.utf8EncodeChar := by
    rw [hbefore, ← List.flatMap_append, List.takeWhile_append_dropWhile, Utf8.encode]
  rw [hsplit]
  cases hrest : text.toList.dropWhile (· != '\x00') with
  | nil => rw [List.flatMap_nil, List.append_nil]
  | cons c rest =>
    -- what is dropped begins with a zero character, which has the octet zero
    have hc : ¬ (c != '\x00') = true := by
      have hne : text.toList.dropWhile (· != '\x00') ≠ [] := by
        rw [hrest]
        exact List.cons_ne_nil c rest
      simpa [hrest] using List.head_dropWhile_not (· != '\x00') hne
    obtain rfl : c = '\x00' := by simpa using hc
    exact (upToTerminator_take_append _ _ room).symm

/-- What is copied over zeros has zeros behind it. -/
theorem copyInto_zeros (spare : Nat) (text : Octets) :
    copyInto (List.replicate (spare + 1) 0) text =
      text.take spare ++ List.replicate (spare + 1 - min text.length spare) 0 := by
  have hzeros : spare + 1 - min text.length spare =
      spare + 1 - (min text.length spare + 1) + 1 := by omega
  rw [copyInto_eq (by simp), List.length_replicate, Nat.add_sub_cancel, List.drop_replicate, hzeros,
    List.replicate_succ, Nat.min_comm, ← List.take_eq_take_min]

namespace NameField

/-- The field of a name holds its octets, as far as there is room, and zeros behind them. -/
theorem octets_ofText (name : String) : (ofText name).octets = (Utf8.encode name).take 255 ++
    List.replicate (256 - min (Utf8.encode name).length 255) 0 :=
  copyInto_zeros 255 (Utf8.encode name)

theorem text_ofText (name : String) : (ofText name).text =
    Utf8.decodeForgiving (upToTerminator ((Utf8.encode name).take 255)) := by
  rw [text, octets_ofText, upToTerminator_append_zeros]

/-- Nothing is read behind the first zero character. -/
theorem text_beforeZero (name : String) :
    (ofText name).text = (ofText (beforeZero name)).text := by
  rw [text_ofText, text_ofText, upToTerminator_beforeZero]

/-- Without zero characters the first zero in the field is behind all that there is room for. -/
theorem upToTerminator_octets {name : String} (h : '\x00' ∉ name.toList) :
    upToTerminator (ofText name).octets = (Utf8.encode name).take 255 := by
  rw [octets_ofText, upToTerminator_append_zeros, upToTerminator_of_notMem]
  exact fun hzero => Utf8.zero_notMem_encode h (List.mem_of_mem_take hzero)

/-- So all that there is room for is read. -/
theorem text_ofText_of_notMem {name : String} (h : '\x00' ∉ name.toList) :
    (ofText name).text = Utf8.decodeForgiving ((Utf8.encode name).take 255) := by
  rw [text, upToTerminator_octets h]

/-- A name that there is room for is read back. -/
theorem text_ofText_of_le {name : String} (h : '\x00' ∉ name.toList)
    (hle : (Utf8.encode name).length ≤ 255) : (ofText name).text = name := by
  rw [text_ofText_of_notMem h, List.take_of_length_le hle, Utf8.decodeForgiving_encode]

end NameField

end Text

namespace Param

open Text (Utf8.encode Utf8.LongestWithin Utf8.FallsInside Utf8.replacement beforeZero
  upToTerminator)

/-- What a parameter makes of the name that it was given. -/
structure NameLaw (p : Param) (name : String) : Prop where
  /-- A name that there is room for is read back. -/
  whole : '\x00' ∉ name.toList → (Utf8.encode name).length ≤ 255 → p.nameText = name
  /-- Of a longer name the longest beginning is read that there is room for, and one replacement
  character exactly if the end of the room falls inside a character. -/
  cut : '\x00' ∉ name.toList → 255 < (Utf8.encode name).length →
    ∃ kept, Utf8.LongestWithin 255 name.toList kept ∧
      (Utf8.FallsInside 255 name.toList →
        p.nameText = String.ofList (kept ++ [Utf8.replacement])) ∧
      (¬ Utf8.FallsInside 255 name.toList → p.nameText = String.ofList kept)
  /-- Nothing is read behind the first zero character. -/
  terminated : p.nameText = (p.setName (beforeZero name)).nameText
  /-- The field holds the octets of what was given, as far as there is room, and behind them zeros,
  one at least. A zero character and what follows it are no part of the name, but they are there. -/
  field : ∃ zeros, 0 < zeros ∧
    p.name.octets = (Utf8.encode name).take 255 ++ List.replicate zeros 0
  /-- So without zero characters there is nothing behind the name but zeros. -/
  cleared : '\x00' ∉ name.toList → ∃ zeros, 0 < zeros ∧
    p.name.octets = upToTerminator p.name.octets ++ List.replicate zeros 0

/-- **Names survive their field.** Whatever name a parameter had before, the one that it is given is
read back as far as there is room for it, and nothing is left of the one before. -/
theorem nameLaw (p : Param) (name : String) : (p.setName name).NameLaw name where
  whole := Text.NameField.text_ofText_of_le
  cut hzero hlt := by
    obtain ⟨kept, c, hcut⟩ := Text.Utf8.exists_cutAt hlt
    have htext : (p.setName name).nameText =
        String.ofList (if Text.Utf8.size kept < 255 then kept ++ [Utf8.replacement] else kept) := by
      rw [← hcut.forgive_take]
      exact Text.NameField.text_ofText_of_notMem hzero
    refine ⟨kept, hcut.longestWithin, fun hinside => ?_, fun hinside => ?_⟩
    · rw [htext, if_pos (hcut.fallsInside_iff.1 hinside)]
    · rw [htext, if_neg fun hlt => hinside (hcut.fallsInside_iff.2 hlt)]
  terminated := Text.NameField.text_beforeZero name
  field := by
    refine ⟨256 - min (Utf8.encode name).length 255, ?_, Text.NameField.octets_ofText name⟩
    omega
  cleared hzero := by
    refine ⟨256 - min (Utf8.encode name).length 255, by omega, ?_⟩
    show (Text.NameField.ofText name).octets =
      upToTerminator (Text.NameField.ofText name).octets ++ _
    rw [Text.NameField.upToTerminator_octets hzero]
    exact Text.NameField.octets_ofText name

/-- Behind a zero character what is given stays in the field, where it is not read. -/
theorem setName_leaves_rest : ((ofUInt64 "" 1).setName "a\x00b").nameText = "a" ∧
    ((ofUInt64 "" 1).setName "a\x00b").name.octets[2]? = some 98 := by
  constructor
  · show (Text.NameField.ofText "a\x00b").text = "a"
    rw [Text.NameField.text_beforeZero, show beforeZero "a\x00b" = "a" by decide]
    exact Text.NameField.text_ofText_of_le (by decide) (by decide)
  · show (Text.NameField.ofText "a\x00b").octets[2]? = some 98
    rw [Text.NameField.octets_ofText]
    rfl

end Param

end HandleBench
