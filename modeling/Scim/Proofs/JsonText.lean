import Mathlib.Data.List.TakeDrop
import Mathlib.Tactic.SplitIfs
import Scim.Json.Printer
import Scim.Json.Reader
import Scim.Proofs.CharRun

/-!
# JSON text is read back

The reader undoes the printer: the text of a value is read as the value, with the keys of its
objects sorted. Only numbers with a fraction, or beyond a word of sixty-four bits, are left out.
-/

namespace Scim.Json

open Text (NoneFollows)

/-! ## Strings -/

theorem hexValue?_hexDigit {n : Nat} (h : n < 16) : hexValue? (hexDigit n) = some n := by
  revert n
  decide

theorem unitValue?_control {n : Nat} (h : n < 0x20) :
    unitValue? '0' '0' (hexDigit (n / 16)) (hexDigit (n % 16)) = some n := by
  have hzero : hexValue? '0' = some 0 := by decide
  have hhigh : hexValue? (hexDigit (n / 16)) = some (n / 16) := hexValue?_hexDigit (by omega)
  have hlow : hexValue? (hexDigit (n % 16)) = some (n % 16) := hexValue?_hexDigit (by omega)
  simp only [unitValue?, hzero, hhigh, hlow, Option.bind_eq_bind, Option.bind_some, Option.pure_def]
  refine congrArg some ?_
  omega

/-- A character that is escaped by one letter. -/
theorem readStringTail_letter {e c : Char} (h : escapeValue? e = some c) (rest : List Char) :
    readStringTail ('\\' :: e :: rest) = (readStringTail rest).map fun r => (c :: r.1, r.2) := by
  rw [readStringTail.eq_def]
  simp [h]

/-- A character that is escaped by its number. -/
theorem readStringTail_number {c : Char} (h : c.toNat < 0x20) (rest : List Char) :
    readStringTail
        ('\\' :: 'u' :: '0' :: '0' :: hexDigit (c.toNat / 16) :: hexDigit (c.toNat % 16) :: rest) =
      (readStringTail rest).map fun r => (c :: r.1, r.2) := by
  have hu : escapeValue? 'u' = none := by decide
  have hhigh : ¬ (0xD800 ≤ c.toNat ∧ c.toNat < 0xDC00) := by omega
  have hlow : ¬ (0xDC00 ≤ c.toNat ∧ c.toNat < 0xE000) := by omega
  rw [readStringTail.eq_def]
  simp only [hu, unitValue?_control h, if_neg hhigh, if_neg hlow, Char.ofNat_toNat]
  simp

theorem readStringTail_plain {c : Char} (hquote : c ≠ '"') (hbackslash : c ≠ '\\')
    (hprints : ¬ c.toNat < 0x20) (rest : List Char) :
    readStringTail (c :: rest) = (readStringTail rest).map fun r => (c :: r.1, r.2) := by
  rw [readStringTail.eq_def]
  simp only [if_neg hquote, if_neg hbackslash, if_neg hprints]

/-- However a character is written, it is read back. -/
theorem readStringTail_escapedChar (c : Char) (rest : List Char) :
    readStringTail (escapedChar c ++ rest) =
      (readStringTail rest).map fun r => (c :: r.1, r.2) := by
  rw [escapedChar]
  split_ifs with hquote hbackslash hb ht hn hf hr hcontrol
  · exact readStringTail_letter (by rw [hquote]; decide) rest
  · exact readStringTail_letter (by rw [hbackslash]; decide) rest
  · exact readStringTail_letter (by rw [hb]; decide) rest
  · exact readStringTail_letter (by rw [ht]; decide) rest
  · exact readStringTail_letter (by rw [hn]; decide) rest
  · exact readStringTail_letter (by rw [hf]; decide) rest
  · exact readStringTail_letter (by rw [hr]; decide) rest
  · exact readStringTail_number hcontrol rest
  · exact readStringTail_plain hquote hbackslash hcontrol rest

theorem readStringTail_flatMap (cs rest : List Char) :
    readStringTail (cs.flatMap escapedChar ++ '"' :: rest) = some (cs, rest) := by
  induction cs with
  | nil =>
    rw [List.flatMap_nil, List.nil_append, readStringTail.eq_def]
    rfl
  | cons c cs ih =>
    rw [List.flatMap_cons, List.append_assoc, readStringTail_escapedChar, ih]
    rfl

/-! ## Whole numbers -/

/-- The character would be read as more of a number. -/
def continuesNumber (c : Char) : Bool :=
  c.isDigit || c == '.' || c == 'e' || c == 'E'

/-- The number fits a word of sixty-four bits, signed or unsigned. -/
def FitsWord (n : Int) : Prop :=
  -(wordValues : Int) ≤ 2 * n ∧ n < wordValues

theorem naturalValue_toDigits (n : Nat) : naturalValue (Nat.toDigits 10 n) = n := by
  have hvalue (ds : List Char) : naturalValue ds = Nat.ofDigitChars 10 ds 0 := rfl
  rw [hvalue, Nat.ofDigitChars_ten_toDigits]

/-- A zero comes first only where it stands alone. -/
theorem toDigits_head {n : Nat} (positive : 0 < n) :
    ∃ d ds, Nat.toDigits 10 n = d :: ds ∧ d ≠ '0' := by
  induction n using Nat.strongRecOn with
  | ind n ih =>
    by_cases hn : n < 10
    · refine ⟨n.digitChar, [], Nat.toDigits_of_lt_base hn, ?_⟩
      have hdigit : ∀ m < 10, 0 < m → m.digitChar ≠ '0' := by decide
      exact hdigit n hn positive
    · obtain ⟨d, ds, hdigits, hd⟩ := ih (n / 10) (by omega) (by omega)
      refine ⟨d, ds ++ [(n % 10).digitChar], ?_, hd⟩
      rw [Nat.toDigits_of_base_le (by decide) (by omega), hdigits, List.cons_append]

theorem toDigits_cons (n : Nat) : ∃ d ds, Nat.toDigits 10 n = d :: ds ∧ d.isDigit = true := by
  have hne : Nat.toDigits 10 n ≠ [] := Nat.toDigits_ne_nil
  obtain ⟨d, ds, hdigits⟩ := List.exists_cons_of_ne_nil hne
  have hmem : d ∈ Nat.toDigits 10 n := by
    rw [hdigits]
    exact List.mem_cons_self
  exact ⟨d, ds, hdigits, Nat.isDigit_of_mem_toDigits (by decide) (by decide) hmem⟩

theorem readWhole_toDigits (n : Nat) {rest : List Char} (ends : NoneFollows Char.isDigit rest) :
    readWhole (Nat.toDigits 10 n ++ rest) = some (Nat.toDigits 10 n, rest) := by
  have hdigits : ∀ c ∈ Nat.toDigits 10 n, c.isDigit = true :=
    fun c hc => Nat.isDigit_of_mem_toDigits (by decide) (by decide) hc
  rw [readWhole, List.span_eq_takeWhile_dropWhile, Text.takeWhile_run hdigits ends,
    Text.dropWhile_run hdigits ends]
  by_cases hzero : n = 0
  · rw [hzero, Nat.toDigits_zero]
    rfl
  · obtain ⟨d, ds, hn, hd⟩ := toDigits_head (Nat.pos_of_ne_zero hzero)
    rw [hn]
    split
    · next heq => cases heq
    · next heq =>
      injection heq with heq
      injection heq with heq
      exact absurd heq hd
    · rfl

theorem readUnsigned_toDigits (negative : Bool) (n : Nat) {rest : List Char}
    (ends : NoneFollows continuesNumber rest) :
    readUnsigned negative (Nat.toDigits 10 n ++ rest) =
      (integerOfDigits negative (Nat.toDigits 10 n)).map fun v => (v, rest) := by
  have hdigits : NoneFollows Char.isDigit rest := by
    intro c hc
    have hends := ends c hc
    simp only [continuesNumber, Bool.or_eq_false_iff] at hends
    exact hends.1.1.1
  rw [readUnsigned, readWhole_toDigits n hdigits]
  simp only [Option.bind_eq_bind, Option.bind_some]
  split
  · cases ends '.' rfl
  · cases ends 'e' rfl
  · cases ends 'E' rfl
  · cases integerOfDigits negative (Nat.toDigits 10 n) with
    | none => rfl
    | some v => rfl

theorem readNumber_intChars {n : Int} (fits : FitsWord n) {rest : List Char}
    (ends : NoneFollows continuesNumber rest) :
    readNumber (intChars n ++ rest) = some (.int n, rest) := by
  obtain ⟨low, high⟩ := fits
  by_cases hn : n < 0
  · have hsign : ¬ (n.natAbs = 0 ∨ wordValues < 2 * n.natAbs) := by omega
    have habs : -(n.natAbs : Int) = n := by omega
    rw [intChars, if_pos hn, List.append_assoc, List.singleton_append, readNumber,
      readUnsigned_toDigits true n.natAbs ends, integerOfDigits, naturalValue_toDigits,
      if_pos rfl, if_neg hsign, habs]
    rfl
  · have hfits : n.natAbs < wordValues := by omega
    have habs : (n.natAbs : Int) = n := by omega
    obtain ⟨d, ds, hdigits, hdigit⟩ := toDigits_cons n.natAbs
    have hd : d ≠ '-' := by
      rintro rfl
      cases hdigit
    have hread : readNumber (Nat.toDigits 10 n.natAbs ++ rest) =
        readUnsigned false (Nat.toDigits 10 n.natAbs ++ rest) := by
      rw [hdigits, List.cons_append, readNumber.eq_def]
      split
      · next heq =>
        injection heq with heq
        exact absurd heq hd
      · rfl
    rw [intChars, if_neg hn, List.nil_append, hread, readUnsigned_toDigits false n.natAbs ends,
      integerOfDigits, naturalValue_toDigits, if_neg Bool.false_ne_true, if_pos hfits, habs]
    rfl

/-! ## Values -/

/-- The value has a text that is read back: its numbers are whole and fit a word. -/
inductive Plain : Json → Prop
  | null : Plain .null
  | bool (b : Bool) : Plain (.bool b)
  | int {n : Int} (fits : FitsWord n) : Plain (.int n)
  | str (s : String) : Plain (.str s)
  | arr {items : List Json} (plain : ∀ v ∈ items, Plain v) : Plain (.arr items)
  | obj {fields : List (String × Json)} (plain : ∀ f ∈ fields, Plain f.2) : Plain (.obj fields)

/-- The text of the value is read back at every depth that exceeds its length, whatever follows that
is no more of a number. -/
def ReadBack (v : Json) : Prop :=
  ∀ depth rest, v.chars.length ≤ depth → NoneFollows continuesNumber rest →
    readValue (depth + 1) (v.chars ++ rest) = some (v.sorted, rest)

/-- A character with which a value starts: no blank, and no end of a list of values. -/
def Opens (c : Char) : Prop :=
  isBlankChar c = false ∧ c ≠ ']'

theorem opens_of_isDigit {c : Char} (h : c.isDigit = true) : Opens c := by
  constructor
  · rw [Bool.eq_false_iff]
    intro hblank
    simp only [isBlankChar, Bool.or_eq_true, beq_iff_eq] at hblank
    rcases hblank with ((rfl | rfl) | rfl) | rfl <;> cases h
  · rintro rfl
    cases h

theorem intChars_cons (n : Int) :
    ∃ c cs, intChars n = c :: cs ∧ (c = '-' ∨ c.isDigit = true) := by
  by_cases hn : n < 0
  · refine ⟨'-', Nat.toDigits 10 n.natAbs, ?_, .inl rfl⟩
    rw [intChars, if_pos hn, List.singleton_append]
  · obtain ⟨d, ds, hdigits, hd⟩ := toDigits_cons n.natAbs
    refine ⟨d, ds, ?_, .inr hd⟩
    rw [intChars, if_neg hn, List.nil_append, hdigits]

theorem Plain.chars_cons {v : Json} (plain : v.Plain) : ∃ c cs, v.chars = c :: cs ∧ Opens c := by
  cases plain with
  | null => exact ⟨'n', _, rfl, by decide, by decide⟩
  | bool b =>
    cases b with
    | true => exact ⟨'t', _, rfl, by decide, by decide⟩
    | false => exact ⟨'f', _, rfl, by decide, by decide⟩
  | @int n _ =>
    obtain ⟨c, cs, hchars, hc⟩ := intChars_cons n
    refine ⟨c, cs, hchars, ?_⟩
    rcases hc with rfl | hdigit
    · exact ⟨by decide, by decide⟩
    · exact opens_of_isDigit hdigit
  | str s => exact ⟨'"', _, rfl, by decide, by decide⟩
  | arr _ => exact ⟨'[', _, rfl, by decide, by decide⟩
  | obj _ => exact ⟨'\x7b', _, rfl, by decide, by decide⟩

theorem skipBlanks_cons {c : Char} (h : isBlankChar c = false) (cs : List Char) :
    skipBlanks (c :: cs) = c :: cs :=
  List.dropWhile_cons_of_neg (Bool.eq_false_iff.mp h)

/-- The first of the parts comes first. -/
theorem commaSeparated_cons (p : List Char) (parts : List (List Char)) :
    ∃ tail, commaSeparated (p :: parts) = p ++ tail := by
  cases parts with
  | nil => exact ⟨[], (List.append_nil p).symm⟩
  | cons q parts => exact ⟨',' :: commaSeparated (q :: parts), rfl⟩

theorem readBack_str (s : String) : ReadBack (.str s) := by
  intro depth rest _ _
  have hquote : isBlankChar '"' = false := by decide
  have hchars : chars (.str s) ++ rest = '"' :: (s.toList.flatMap escapedChar ++ '"' :: rest) := by
    simp [chars, stringChars]
  rw [hchars, readValue.eq_def]
  simp only [skipBlanks_cons hquote, readStringTail_flatMap]
  rw [Option.map_some, String.ofList_toList, sorted]

theorem readBack_int {n : Int} (fits : FitsWord n) : ReadBack (.int n) := by
  intro depth rest _ ends
  have hread := readNumber_intChars fits ends
  obtain ⟨c, cs, hchars, hc⟩ := intChars_cons n
  have hblank : isBlankChar c = false := by
    rcases hc with rfl | hdigit
    · decide
    · exact (opens_of_isDigit hdigit).1
  rw [hchars, List.cons_append] at hread
  rw [chars, hchars, List.cons_append, readValue.eq_def, sorted]
  simp only [skipBlanks_cons hblank]
  -- a sign or a digit starts nothing but a number
  split <;> first
    | exact hread
    | next heq =>
      injection heq with heq
      rcases hc with rfl | hdigit
      · cases heq
      · rw [heq] at hdigit
        cases hdigit

/-! ## Lists -/

/-- The values of a list are read one after the other, up to the bracket that closes it. -/
theorem readItems_chars {v : Json} {items : List Json} (back : ∀ w ∈ v :: items, ReadBack w)
    (depth : Nat) (hdepth : (commaSeparated (itemChars (v :: items))).length ≤ depth)
    (rest : List Char) :
    readItems (depth + 2) (commaSeparated (itemChars (v :: items)) ++ ']' :: rest) =
      some (sortedItems (v :: items), rest) := by
  have hcomma : isBlankChar ',' = false := by decide
  induction items generalizing v depth with
  | nil =>
    have hv := back v List.mem_cons_self depth (']' :: rest)
    rw [itemChars, itemChars, commaSeparated] at hdepth ⊢
    rw [readItems, hv hdepth (Text.noneFollows_cons (by decide))]
    rfl
  | cons w items ih =>
    have hv := back v List.mem_cons_self depth
      (',' :: (commaSeparated (itemChars (w :: items)) ++ ']' :: rest))
    rw [itemChars, itemChars, commaSeparated, ← itemChars] at hdepth ⊢
    rw [List.length_append, List.length_cons] at hdepth
    obtain ⟨depth, rfl⟩ : ∃ d, depth = d + 1 := ⟨depth - 1, by omega⟩
    have htail := ih (fun x hx => back x (List.mem_cons_of_mem v hx)) depth (by omega)
    rw [List.append_assoc, List.cons_append, readItems,
      hv (by omega) (Text.noneFollows_cons (by decide))]
    simp only [skipBlanks_cons hcomma, htail, Option.map_some]
    rfl

theorem readBack_arr {items : List Json} (plain : ∀ v ∈ items, v.Plain)
    (back : ∀ v ∈ items, ReadBack v) : ReadBack (.arr items) := by
  intro depth rest hdepth _
  have hbracket : isBlankChar '[' = false := by decide
  have hchars : chars (.arr items) ++ rest =
      '[' :: (commaSeparated (itemChars items) ++ ']' :: rest) := by
    simp [chars]
  have hlength : (commaSeparated (itemChars items)).length + 2 ≤ depth := by
    simp [chars] at hdepth
    omega
  obtain ⟨depth, rfl⟩ : ∃ d, depth = d + 2 := ⟨depth - 2, by omega⟩
  rw [hchars, readValue.eq_def]
  simp only [skipBlanks_cons hbracket]
  cases items with
  | nil => rfl
  | cons v items =>
    have hread := readItems_chars back depth (by omega) rest
    -- the first value does not start with the bracket that would end the list
    obtain ⟨c, cs, hv, hblank, hclose⟩ := (plain v List.mem_cons_self).chars_cons
    obtain ⟨tail, htail⟩ := commaSeparated_cons v.chars (itemChars items)
    rw [itemChars, htail, hv, List.cons_append, List.cons_append] at hread ⊢
    simp only [skipBlanks_cons hblank]
    split
    · next heq =>
      injection heq with heq
      exact absurd heq hclose
    · rw [hread, sorted]
      rfl

/-! ## Fields -/

/-- One field as it is written, and what is written after it. -/
theorem field_append (key : String) (v : Json) (rest : List Char) :
    stringChars key ++ ':' :: v.chars ++ rest =
      '"' :: (key.toList.flatMap escapedChar ++ '"' :: ':' :: (v.chars ++ rest)) := by
  simp [stringChars]

/-- The fields of an object are read one after the other, up to the brace that closes it. -/
theorem readFields_chars {f : String × Json} {fields : List (String × Json)}
    (back : ∀ g ∈ f :: fields, ReadBack g.2) (depth : Nat)
    (hdepth : (commaSeparated (fieldChars (f :: fields))).length ≤ depth) (rest : List Char) :
    readFields (depth + 2) (commaSeparated (fieldChars (f :: fields)) ++ '\x7d' :: rest) =
      some (sortedFields (f :: fields), rest) := by
  have hquote : isBlankChar '"' = false := by decide
  have hcolon : isBlankChar ':' = false := by decide
  have hcomma : isBlankChar ',' = false := by decide
  have hbrace : isBlankChar '\x7d' = false := by decide
  induction fields generalizing f depth with
  | nil =>
    obtain ⟨key, v⟩ := f
    have hv : ReadBack v := back (key, v) List.mem_cons_self
    rw [fieldChars, fieldChars, commaSeparated] at hdepth ⊢
    rw [List.length_append, List.length_cons] at hdepth
    have hread := hv depth ('\x7d' :: rest) (by omega) (Text.noneFollows_cons (by decide))
    rw [field_append, readFields]
    simp only [skipBlanks_cons hquote, readStringTail_flatMap, skipBlanks_cons hcolon, hread,
      skipBlanks_cons hbrace, String.ofList_toList, sortedFields]
  | cons g fields ih =>
    obtain ⟨key, v⟩ := f
    obtain ⟨nextKey, w⟩ := g
    have hv : ReadBack v := back (key, v) List.mem_cons_self
    rw [fieldChars, fieldChars, commaSeparated, ← fieldChars] at hdepth ⊢
    rw [List.length_append, List.length_append, List.length_cons, List.length_cons] at hdepth
    obtain ⟨depth, rfl⟩ : ∃ d, depth = d + 1 := ⟨depth - 1, by omega⟩
    have htail := ih (fun x hx => back x (List.mem_cons_of_mem _ hx)) depth (by omega)
    have hread := hv (depth + 1)
      (',' :: (commaSeparated (fieldChars ((nextKey, w) :: fields)) ++ '\x7d' :: rest)) (by omega)
      (Text.noneFollows_cons (by decide))
    rw [List.append_assoc, List.cons_append, field_append, readFields]
    simp only [skipBlanks_cons hquote, readStringTail_flatMap, skipBlanks_cons hcolon, hread,
      skipBlanks_cons hcomma, htail, Option.map_some, String.ofList_toList]
    rfl

theorem readBack_obj {fields : List (String × Json)} (back : ∀ f ∈ fields, ReadBack f.2) :
    ReadBack (.obj fields) := by
  intro depth rest hdepth _
  have hquote : isBlankChar '"' = false := by decide
  have hbrace : isBlankChar '\x7b' = false := by decide
  have hchars : chars (.obj fields) ++ rest =
      '\x7b' :: (commaSeparated (fieldChars fields) ++ '\x7d' :: rest) := by
    simp [chars]
  have hlength : (commaSeparated (fieldChars fields)).length + 2 ≤ depth := by
    simp [chars] at hdepth
    omega
  obtain ⟨depth, rfl⟩ : ∃ d, depth = d + 2 := ⟨depth - 2, by omega⟩
  rw [hchars, readValue.eq_def]
  simp only [skipBlanks_cons hbrace]
  cases fields with
  | nil => rfl
  | cons f fields =>
    obtain ⟨key, v⟩ := f
    have hread := readFields_chars back depth (by omega) rest
    obtain ⟨tail, htail⟩ :=
      commaSeparated_cons (stringChars key ++ ':' :: v.chars) (fieldChars fields)
    rw [fieldChars, htail, List.append_assoc, field_append] at hread ⊢
    simp only [skipBlanks_cons hquote]
    split
    · next heq => cases heq
    · rw [hread, sorted]
      rfl

/-! ## Whole texts -/

/-- Every plain value is read back. By induction on how it is put together. -/
theorem Plain.readBack {v : Json} (plain : v.Plain) : v.ReadBack := by
  induction plain with
  | null => exact fun _ _ _ _ => rfl
  | bool b =>
    cases b with
    | true => exact fun _ _ _ _ => rfl
    | false => exact fun _ _ _ _ => rfl
  | int fits => exact readBack_int fits
  | str s => exact readBack_str s
  | arr plain ih => exact readBack_arr plain ih
  | obj _ ih => exact readBack_obj ih

/-- The text of a plain value is read as the value with its keys sorted. -/
theorem Plain.read_print {v : Json} (plain : v.Plain) : read v.print = some v.sorted := by
  have hback := plain.readBack v.chars.length [] (Nat.le_refl _) nofun
  rw [List.append_nil] at hback
  simp only [read, print, String.toList_ofList, hback]
  rfl

end Scim.Json
