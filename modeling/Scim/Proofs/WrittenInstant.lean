import Mathlib.Algebra.Group.Nat.Defs
import Scim.Proofs.CharRun
import Scim.Time.Spelling
import Scim.Time.Written

/-!
# Written instants

The text of an instant is read back as that instant, for every year, every fraction of a second and
every leap second. Each part of the text is read for itself, whatever follows it; where a number may
have any length, no digit follows.
-/

namespace Scim.Time

open Text (NoneFollows)

/-! ## Digits -/

/-- What a run of digits amounts to. -/
def digitsValue (ds : List Char) : Nat :=
  ds.foldl (fun n c => 10 * n + digitOf c) 0

theorem digitsValue_padded (width n : Nat) : digitsValue (padded width n) = n := by
  have hvalue (ds : List Char) : digitsValue ds = Nat.ofDigitChars 10 ds 0 := rfl
  rw [hvalue, padded, Nat.ofDigitChars_append, Nat.ofDigitChars_replicate_zero,
    Nat.mul_zero, Nat.ofDigitChars_ten_toDigits]

theorem isDigit_of_mem_padded {width n : Nat} {c : Char} (h : c ∈ padded width n) :
    c.isDigit = true := by
  rcases List.mem_append.mp h with h | h
  · rw [List.eq_of_mem_replicate h]
    decide
  · exact Nat.isDigit_of_mem_toDigits (by decide) (by decide) h

theorem padded_ne_nil (width n : Nat) : padded width n ≠ [] := by
  intro h
  exact Nat.toDigits_ne_nil (List.append_eq_nil_iff.mp h).2

theorem length_padded {width n : Nat} (positive : 0 < width) (fits : n < 10 ^ width) :
    (padded width n).length = width := by
  have hlength : (Nat.toDigits 10 n).length ≤ width :=
    (Nat.length_toDigits_le_iff (by decide) positive).mpr fits
  rw [padded, List.length_append, List.length_replicate]
  omega

/-- A digit comes first. -/
theorem padded_append (width n : Nat) (rest : List Char) :
    ∃ d tail, padded width n ++ rest = d :: tail ∧ d.isDigit = true := by
  obtain ⟨d, tail, h⟩ := List.exists_cons_of_ne_nil (padded_ne_nil width n)
  have hmem : d ∈ padded width n := by
    rw [h]
    exact List.mem_cons_self
  exact ⟨d, tail ++ rest, congrArg (· ++ rest) h, isDigit_of_mem_padded hmem⟩

/-- White space does not come first. -/
theorem noneFollows_padded (width n : Nat) (rest : List Char) :
    NoneFollows Text.isSpace (padded width n ++ rest) := by
  obtain ⟨d, tail, h, hd⟩ := padded_append width n rest
  rw [h]
  exact Text.noneFollows_cons (Text.isSpace_of_isDigit hd)

theorem skipSpace_padded (width n : Nat) (rest : List Char) :
    Text.skipSpace (padded width n ++ rest) = padded width n ++ rest :=
  Text.skipSpace_of_noneFollows (noneFollows_padded width n rest)

/-- The digits that are taken for a number. -/
def takeDigits : Option Nat → List Char → List Char
  | some width, cs => (cs.takeWhile Char.isDigit).take width
  | none, cs => cs.takeWhile Char.isDigit

theorem scanNumber_eq (limit : Option Nat) (cs : List Char) :
    scanNumber limit cs =
      if cs.isEmpty then .error .tooShort
      else if (takeDigits limit cs).isEmpty then .error .invalid
      else if 0x8000000000000000 ≤ digitsValue (takeDigits limit cs) then .error .outOfRange
      else .ok (digitsValue (takeDigits limit cs), cs.drop (takeDigits limit cs).length) := by
  cases limit with
  | none => rfl
  | some width => rfl

theorem scanNumber_of_taken {limit : Option Nat} {width n : Nat} {rest : List Char}
    (taken : takeDigits limit (padded width n ++ rest) = padded width n)
    (fits : n < 0x8000000000000000) :
    scanNumber limit (padded width n ++ rest) = .ok (n, rest) := by
  have hne : (padded width n ++ rest).isEmpty = false := by
    obtain ⟨d, tail, h, -⟩ := padded_append width n rest
    rw [h]
    rfl
  have hne' : (padded width n).isEmpty = false :=
    List.isEmpty_eq_false_iff.mpr (padded_ne_nil width n)
  have hfits : ¬ 0x8000000000000000 ≤ n := by omega
  rw [scanNumber_eq, taken, digitsValue_padded, hne, hne', if_neg Bool.false_ne_true,
    if_neg Bool.false_ne_true, if_neg hfits, List.drop_left]

theorem scanNumber_exact {width n : Nat} (positive : 0 < width) (narrow : width ≤ 9)
    (fits : n < 10 ^ width) (rest : List Char) :
    scanNumber (some width) (padded width n ++ rest) = .ok (n, rest) := by
  refine scanNumber_of_taken ?_ ?_
  · rw [takeDigits, List.takeWhile_append_of_pos fun c => isDigit_of_mem_padded]
    exact List.take_left' (length_padded positive fits)
  · have hpow : 10 ^ width ≤ 10 ^ 9 := Nat.pow_le_pow_right (by decide) narrow
    omega

theorem scanNumber_run {limit : Option Nat} {width n : Nat} {rest : List Char}
    (short : ∀ w, limit = some w → (padded width n).length ≤ w)
    (fits : n < 0x8000000000000000) (ends : NoneFollows Char.isDigit rest) :
    scanNumber limit (padded width n ++ rest) = .ok (n, rest) := by
  refine scanNumber_of_taken ?_ fits
  have hrun : (padded width n ++ rest).takeWhile Char.isDigit = padded width n :=
    Text.takeWhile_run (fun c => isDigit_of_mem_padded) ends
  cases limit with
  | none => exact hrun
  | some w =>
    rw [takeDigits, hrun]
    exact List.take_of_length_le (short w rfl)

/-! ## Parts of a text -/

/-- Scans one after the other. -/
theorem scan_bind {β γ : Type} {m : Scan β} {f : β → Scan γ} {cs rest : List Char} {b : β}
    (h : m cs = .ok (b, rest)) : (m >>= f) cs = f b rest := by
  change (m cs >>= fun r => f r.1 r.2) = f b rest
  rw [h]
  rfl

theorem scanChar_self (c : Char) (rest : List Char) : scanChar c (c :: rest) = .ok ((), rest) :=
  if_pos rfl

theorem scanField_padded {low high n : Nat} (inside : low ≤ n ∧ n ≤ high) (narrow : high < 100)
    (rest : List Char) : scanField low high (padded 2 n ++ rest) = .ok (n, rest) := by
  have hspace : skipSpace (padded 2 n ++ rest) = .ok ((), padded 2 n ++ rest) := by
    rw [skipSpace, skipSpace_padded]
  have hnumber : scanNumber (some 2) (padded 2 n ++ rest) = .ok (n, rest) :=
    scanNumber_exact (by decide) (by decide) (by omega) rest
  rw [scanField, scan_bind hspace, inBounds, scan_bind hnumber, if_pos inside]
  rfl

/-- A year without a sign. -/
theorem scanSignedYear_padded {n : Nat} (fits : n < 10 ^ 4) (rest : List Char) :
    scanSignedYear (padded 4 n ++ rest) = .ok ((n : Int), rest) := by
  have hnumber : scanNumber (some 4) (padded 4 n ++ rest) = .ok (n, rest) :=
    scanNumber_exact (by decide) (by decide) fits rest
  obtain ⟨d, tail, h, hd⟩ := padded_append 4 n rest
  have hminus : d ≠ '-' := by
    rintro rfl
    cases hd
  have hplus : d ≠ '+' := by
    rintro rfl
    cases hd
  rw [h] at hnumber ⊢
  rw [scanSignedYear.eq_3 _ (fun _ heq => hminus (List.cons.inj heq).1)
    (fun _ heq => hplus (List.cons.inj heq).1), hnumber]
  rfl

/-- The sign of a year is not white space, and neither is its first digit. -/
theorem noneFollows_yearChars (y : Int) (rest : List Char) :
    NoneFollows Text.isSpace (yearChars y ++ rest) := by
  rw [yearChars]
  by_cases hplain : 0 ≤ y ∧ y ≤ 9999
  · rw [if_pos hplain]
    exact noneFollows_padded 4 y.toNat rest
  · rw [if_neg hplain]
    refine Text.noneFollows_cons ?_
    by_cases hsign : y < 0
    · rw [if_pos hsign]
      decide
    · rw [if_neg hsign]
      decide

theorem skipSpace_yearChars (y : Int) (rest : List Char) :
    Text.skipSpace (yearChars y ++ rest) = yearChars y ++ rest :=
  Text.skipSpace_of_noneFollows (noneFollows_yearChars y rest)

theorem scanSignedYear_yearChars {y : Int} (bounds : minYear ≤ y ∧ y ≤ maxYear)
    {rest : List Char} (ends : NoneFollows Char.isDigit rest) :
    scanSignedYear (yearChars y ++ rest) = .ok (y, rest) := by
  have hmin : (-262143 : Int) ≤ y := bounds.1
  have hmax : y ≤ (262142 : Int) := bounds.2
  have hnumber : scanNumber none (padded 4 y.natAbs ++ rest) = .ok (y.natAbs, rest) :=
    scanNumber_run nofun (by omega) ends
  rw [yearChars]
  by_cases hplain : 0 ≤ y ∧ y ≤ 9999
  · have hvalue : ((y.toNat : Nat) : Int) = y := by omega
    rw [if_pos hplain, scanSignedYear_padded (by omega), hvalue]
  · rw [if_neg hplain]
    by_cases hsign : y < 0
    · have hvalue : -((y.natAbs : Nat) : Int) = y := by omega
      rw [if_pos hsign, List.cons_append, scanSignedYear, hnumber]
      exact congrArg (fun y => Except.ok (y, rest)) hvalue
    · have hvalue : ((y.natAbs : Nat) : Int) = y := by omega
      rw [if_neg hsign, List.cons_append, scanSignedYear, hnumber]
      exact congrArg (fun y => Except.ok (y, rest)) hvalue

theorem scanYear_yearChars {y : Int} (bounds : minYear ≤ y ∧ y ≤ maxYear) {rest : List Char}
    (ends : NoneFollows Char.isDigit rest) : scanYear (yearChars y ++ rest) = .ok (y, rest) := by
  have hmin : (-262143 : Int) ≤ y := bounds.1
  have hmax : y ≤ (262142 : Int) := bounds.2
  rw [scanYear, scan_bind (scanSignedYear_yearChars bounds ends), if_pos (by omega)]
  rfl

theorem scanDecimals_padded {width n : Nat} (positive : 0 < width) (narrow : width ≤ 9)
    (fits : n < 10 ^ width) {rest : List Char} (ends : NoneFollows Char.isDigit rest) :
    scanDecimals (padded width n ++ rest) = .ok (n * 10 ^ (9 - width), rest) := by
  have hlength := length_padded positive fits
  have hpow : 10 ^ width ≤ 10 ^ 9 := Nat.pow_le_pow_right (by decide) narrow
  have hshort (w : Nat) (hw : some 9 = some w) : (padded width n).length ≤ w := by
    cases hw
    omega
  have hnumber : scanNumber (some 9) (padded width n ++ rest) = .ok (n, rest) :=
    scanNumber_run hshort (by omega) ends
  have hdrop : rest.dropWhile Char.isDigit = rest := by
    have hrun : ([] ++ rest).dropWhile Char.isDigit = rest := Text.dropWhile_run nofun ends
    exact hrun
  have htaken : (padded width n ++ rest).length - rest.length = width := by
    rw [List.length_append, hlength, Nat.add_sub_cancel]
  rw [scanDecimals, hnumber]
  change Except.ok (n * 10 ^ (9 - _), rest.dropWhile Char.isDigit) = _
  rw [htaken, hdrop]

theorem scanFraction_absent {rest : List Char} (point : NoneFollows (· == '.') rest) :
    scanFraction rest = .ok (0, rest) := by
  cases rest with
  | nil => rfl
  | cons c rest =>
    have hc : c ≠ '.' := by simpa using point c rfl
    exact scanFraction.eq_2 (c :: rest) fun _ h => hc (List.cons.inj h).1

/-- The fewest digits that lose nothing give all nanoseconds back. -/
theorem scanFraction_fractionChars {nano : Nat} (bound : nano < 1000000000) {rest : List Char}
    (ends : NoneFollows Char.isDigit rest) (point : NoneFollows (· == '.') rest) :
    scanFraction (fractionChars nano ++ rest) = .ok (nano, rest) := by
  rw [fractionChars]
  by_cases hzero : nano = 0
  · rw [if_pos hzero, List.nil_append, hzero]
    exact scanFraction_absent point
  rw [if_neg hzero]
  by_cases hmilli : nano % 1000000 = 0
  · rw [if_pos hmilli, List.cons_append, scanFraction,
      scanDecimals_padded (by decide) (by decide) (by omega) ends]
    congr 2
    omega
  rw [if_neg hmilli]
  by_cases hmicro : nano % 1000 = 0
  · rw [if_pos hmicro, List.cons_append, scanFraction,
      scanDecimals_padded (by decide) (by decide) (by omega) ends]
    congr 2
    omega
  · rw [if_neg hmicro, List.cons_append, scanFraction,
      scanDecimals_padded (by decide) (by decide) (by omega) ends]
    congr 2
    omega

/-! ## Layouts -/

namespace Part

theorem scan_year (c : Civil) {y : Int} (bounds : minYear ≤ y ∧ y ≤ maxYear) {rest : List Char}
    (ends : NoneFollows Char.isDigit rest) :
    Part.year.scan c (yearChars y ++ rest) = .ok ({ c with year := y }, rest) := by
  have hspace : skipSpace (yearChars y ++ rest) = .ok ((), yearChars y ++ rest) := by
    rw [skipSpace, skipSpace_yearChars]
  rw [scan, scan_bind hspace, scan_bind (scanYear_yearChars bounds ends)]
  rfl

theorem scan_month (c : Civil) {m : Nat} (inside : 1 ≤ m ∧ m ≤ 12) (rest : List Char) :
    Part.month.scan c (padded 2 m ++ rest) = .ok ({ c with month := m }, rest) := by
  rw [scan, scan_bind (scanField_padded inside (by decide) rest)]
  rfl

theorem scan_day (c : Civil) {n : Nat} (inside : 1 ≤ n ∧ n ≤ 31) (rest : List Char) :
    Part.day.scan c (padded 2 n ++ rest) = .ok ({ c with day := n }, rest) := by
  rw [scan, scan_bind (scanField_padded inside (by decide) rest)]
  rfl

theorem scan_hour (c : Civil) {n : Nat} (inside : n ≤ 23) (rest : List Char) :
    Part.hour.scan c (padded 2 n ++ rest) = .ok ({ c with hour := n }, rest) := by
  rw [scan, scan_bind (scanField_padded ⟨Nat.zero_le n, inside⟩ (by decide) rest)]
  rfl

theorem scan_minute (c : Civil) {n : Nat} (inside : n ≤ 59) (rest : List Char) :
    Part.minute.scan c (padded 2 n ++ rest) = .ok ({ c with minute := n }, rest) := by
  rw [scan, scan_bind (scanField_padded ⟨Nat.zero_le n, inside⟩ (by decide) rest)]
  rfl

theorem scan_second (c : Civil) {n : Nat} (inside : n ≤ 60) (rest : List Char) :
    Part.second.scan c (padded 2 n ++ rest) = .ok ({ c with second := n }, rest) := by
  rw [scan, scan_bind (scanField_padded ⟨Nat.zero_le n, inside⟩ (by decide) rest)]
  rfl

theorem scan_fraction (c : Civil) {nano : Nat} {cs rest : List Char}
    (h : scanFraction cs = .ok (nano, rest)) :
    Part.fraction.scan c cs = .ok ({ c with nano := nano }, rest) := by
  rw [scan, scan_bind h]
  rfl

theorem scan_space (c : Civil) {rest : List Char} (h : NoneFollows Text.isSpace rest) :
    Part.space.scan c rest = .ok (c, rest) := by
  have hspace : skipSpace rest = .ok ((), rest) := by
    rw [skipSpace, Text.skipSpace_of_noneFollows h]
  rw [scan, scan_bind hspace]
  rfl

theorem scan_literal (c : Civil) (d : Char) (rest : List Char) :
    (Part.literal d).scan c (d :: rest) = .ok (c, rest) := by
  rw [scan, scan_bind (scanChar_self d rest)]
  rfl

end Part

theorem Layout.scan_cons {part : Part} {layout : Layout} {c c' : Civil} {cs rest : List Char}
    (h : part.scan c cs = .ok (c', rest)) : scan (part :: layout) c cs = scan layout c' rest :=
  scan_bind h

theorem scan_looseDate (d : Date) (c : Civil) (rest : List Char) :
    Layout.looseDate.scan c (d.chars ++ rest) =
      .ok ({ c with year := d.year, month := d.month, day := d.day }, rest) := by
  have hdash (more : List Char) : NoneFollows Text.isSpace ('-' :: more) :=
    Text.noneFollows_cons (by decide)
  simp only [Date.chars, List.append_assoc, List.cons_append]
  rw [Layout.looseDate,
    Layout.scan_cons (Part.scan_year c d.year_bounds (Text.noneFollows_cons (by decide))),
    Layout.scan_cons (Part.scan_space _ (hdash _)), Layout.scan_cons (Part.scan_literal _ '-' _),
    Layout.scan_cons (Part.scan_month _ d.month_bounds _), Layout.scan_cons (Part.scan_space _ (hdash _)),
    Layout.scan_cons (Part.scan_literal _ '-' _), Layout.scan_cons (Part.scan_day _ d.day_inside _)]
  rfl

namespace Instant

/-- The fields that a clock in UTC shows. -/
def civil (t : Instant) : Civil :=
  ⟨t.date.year, t.date.month, t.date.day, t.second / 3600, t.second / 60 % 60,
    t.second % 60 + t.nano / 1000000000, t.nano % 1000000000⟩

/-- The second of a minute, with the leap second after the last one. -/
theorem shownSecond_le (t : Instant) : t.second % 60 + t.nano / 1000000000 ≤ 60 := by
  have hnano := t.nano_lt
  omega

end Instant

theorem scan_looseClock (t : Instant) (c : Civil) {rest : List Char}
    (digit : NoneFollows Char.isDigit rest) (point : NoneFollows (· == '.') rest)
    (space : NoneFollows Text.isSpace rest) :
    Layout.looseClock.scan c (t.clockChars ++ rest) =
      .ok ({ c with
        hour := t.second / 3600
        minute := t.second / 60 % 60
        second := t.second % 60 + t.nano / 1000000000
        nano := t.nano % 1000000000 }, rest) := by
  have hsecond := t.second_lt
  have hcolon (more : List Char) : NoneFollows Text.isSpace (':' :: more) :=
    Text.noneFollows_cons (by decide)
  have hfraction : scanFraction (fractionChars (t.nano % 1000000000) ++ rest) =
      .ok (t.nano % 1000000000, rest) :=
    scanFraction_fractionChars (Nat.mod_lt _ (by decide)) digit point
  simp only [Instant.clockChars, List.append_assoc, List.cons_append]
  rw [Layout.looseClock, Layout.scan_cons (Part.scan_hour _ (by omega) _),
    Layout.scan_cons (Part.scan_space _ (hcolon _)), Layout.scan_cons (Part.scan_literal _ ':' _),
    Layout.scan_cons (Part.scan_minute _ (by omega) _), Layout.scan_cons (Part.scan_space _ (hcolon _)),
    Layout.scan_cons (Part.scan_literal _ ':' _), Layout.scan_cons (Part.scan_second _ t.shownSecond_le _),
    Layout.scan_cons (Part.scan_fraction _ hfraction), Layout.scan_cons (Part.scan_space _ space)]
  rfl

/-! ## Whole texts -/

namespace Instant

theorem ofParts?_self (t : Instant) : ofParts? t.date t.second t.nano = some t := by
  rw [ofParts?, dif_pos ⟨t.second_lt, t.nano_lt⟩]

theorem instant?_civil (t : Instant) : t.civil.instant? = .ok t := by
  have hnano := t.nano_lt
  have hday := t.second_lt
  have hleap : (if t.second % 60 + t.nano / 1000000000 = 60 then 1 else 0) =
      t.nano / 1000000000 := by
    split <;> omega
  have hseconds : t.second / 3600 * 3600 + t.second / 60 % 60 * 60 +
      (t.second % 60 + t.nano / 1000000000 - t.nano / 1000000000) = t.second := by omega
  have hnanos : t.nano % 1000000000 + t.nano / 1000000000 * 1000000000 = t.nano := by omega
  rw [civil, Civil.instant?]
  dsimp only
  rw [Date.ofCivil?_self, hleap, hseconds, hnanos]
  dsimp only
  rw [ofParts?_self]

/-- The instant of a clock in UTC. -/
theorem inZone?_civil (t : Instant) : t.civil.inZone? 0 = .ok t := by
  have hsame : t.subOffset? 0 = some t := by
    have hday := t.second_lt
    have hzero : (t.second : Int) - 60 * 0 = t.second := by omega
    rw [subOffset?, hzero, if_neg (by omega), if_pos (by omega)]
    exact t.ofParts?_self
  simp only [Civil.inZone?, instant?_civil, hsame]
  rfl

theorem scanStamp_text (t : Instant) : scanStamp t.text.toList = .ok ((t.civil, 0), []) := by
  have hdivider (more : List Char) : scanDivider ('T' :: more) = .ok ((), more) := rfl
  have hzone : scanNamedZone ['Z'] = .ok (0, []) := rfl
  have hspace : skipSpace [] = .ok ((), []) := rfl
  have hclock (c : Civil) := scan_looseClock t c
    (Text.noneFollows_cons (by decide) : NoneFollows Char.isDigit ['Z'])
    (Text.noneFollows_cons (by decide)) (Text.noneFollows_cons (by decide))
  rw [text, String.toList_ofList, chars, scanStamp, List.append_assoc, List.cons_append,
    scan_bind (scan_looseDate t.date Civil.zero _), scan_bind (hdivider _), scan_bind (hclock _),
    scan_bind hzone, scan_bind hspace]
  rfl

/-- The text of an instant is read back as the instant. -/
theorem ofStamp?_text (t : Instant) : ofStamp? t.text = .ok t := by
  rw [ofStamp?, readZoned, scanStamp_text]
  exact t.inZone?_civil

end Instant

end Scim.Time
