import Scim.Proofs.DayNumber
import Scim.Proofs.WrittenInstant

/-!
# Spelled instants

An instant can be spelled in many ways: by the clock of any zone, with any number of digits after the
second, with its zone or, in UTC, without. Whatever the spelling, the reader of a filter finds this
instant. It tries four layouts in turn, so of a spelling without a zone it has to be shown as well
that no earlier layout reads it as something else.
-/

namespace Scim.Time

open Text (NoneFollows)

/-- Digits after a decimal point that stand for exactly these nanoseconds, or nothing for none. -/
inductive WritesFraction (nano : Nat) : List Char → Prop
  | none : nano = 0 → WritesFraction nano []
  | digits {ds : List Char} : ds ≠ [] → (∀ c ∈ ds, c.isDigit = true) →
      digitsValue ds * 10 ^ 9 = nano * 10 ^ ds.length → WritesFraction nano ('.' :: ds)

/-- A zone that many minutes ahead of UTC, and less than a day from it. -/
inductive WritesZone : Int → List Char → Prop
  | utc {c : Char} : c = 'Z' ∨ c = 'z' → WritesZone 0 [c]
  | ahead {h m : Nat} : h < 24 → m < 60 →
      WritesZone (60 * h + m) ('+' :: padded 2 h ++ ':' :: padded 2 m)
  | behind {h m : Nat} : h < 24 → m < 60 →
      WritesZone (-(60 * h + m)) ('-' :: padded 2 h ++ ':' :: padded 2 m)

namespace Instant

/-- The time of day with the given fraction of a second. -/
def clockWith (t : Instant) (fraction : List Char) : List Char :=
  padded 2 (t.second / 3600) ++ ':' :: padded 2 (t.second / 60 % 60) ++
    ':' :: padded 2 (t.second % 60 + t.nano / 1000000000) ++ fraction

/-- The date and the time of day, without a zone. -/
def charsWith (t : Instant) (divider : Char) (fraction : List Char) : List Char :=
  t.date.chars ++ divider :: t.clockWith fraction

/-- The year can be written with four digits and no sign. -/
def HasPlainYear (t : Instant) : Prop :=
  0 ≤ t.date.year ∧ t.date.year ≤ 9999

/-- The text is a spelling of the instant: by a clock in some zone, or by the clock of UTC without a
zone. -/
inductive Spells (t : Instant) : List Char → Prop
  | zoned {l : Instant} {offset : Int} {divider : Char} {fraction zone : List Char} :
      l.ShowsAt offset t → l.HasPlainYear → divider = 'T' ∨ divider = 't' ∨ divider = ' ' →
      WritesFraction (l.nano % 1000000000) fraction → WritesZone offset zone →
      Spells t (l.charsWith divider fraction ++ zone)
  | plain {divider : Char} {fraction : List Char} :
      t.HasPlainYear → divider = 'T' ∨ divider = ' ' →
      WritesFraction (t.nano % 1000000000) fraction → Spells t (t.charsWith divider fraction)

end Instant

/-! ## Fractions of a second -/

theorem digitsValue_append (ds es : List Char) :
    digitsValue (ds ++ es) = digitsValue ds * 10 ^ es.length + digitsValue es := by
  have hvalue (ds : List Char) : digitsValue ds = Nat.ofDigitChars 10 ds 0 := rfl
  rw [hvalue, hvalue, hvalue, Nat.ofDigitChars_append, Nat.ofDigitChars_eq_ofDigitChars_zero,
    Nat.mul_comm]

theorem digitsValue_lt {ds : List Char} (digits : ∀ c ∈ ds, c.isDigit = true) :
    digitsValue ds < 10 ^ ds.length := by
  induction ds with
  | nil => decide
  | cons d ds ih =>
    rw [List.forall_mem_cons] at digits
    have hd : digitOf d ≤ 9 := by
      have hdigit : 48 ≤ d.toNat ∧ d.toNat ≤ 57 := by
        simpa [Char.isDigit, UInt32.le_iff_toNat_le, ← Char.toNat_val] using digits.1
      have hzero : '0'.toNat = 48 := rfl
      rw [digitOf, hzero]
      omega
    have hone : digitsValue [d] = digitOf d := by
      simp [digitsValue]
    have hsplit := digitsValue_append [d] ds
    have hrest := ih digits.2
    rw [hone, List.singleton_append] at hsplit
    rw [hsplit, List.length_cons, Nat.pow_succ]
    have hbound : digitOf d * 10 ^ ds.length ≤ 9 * 10 ^ ds.length := Nat.mul_le_mul_right _ hd
    omega

/-- The digits past the ninth are zeros and do not count. -/
theorem value_of_take {ds : List Char} {nano : Nat} (digits : ∀ c ∈ ds, c.isDigit = true)
    (value : digitsValue ds * 10 ^ 9 = nano * 10 ^ ds.length) :
    digitsValue (ds.take 9) * 10 ^ (9 - (ds.take 9).length) = nano := by
  by_cases hshort : ds.length ≤ 9
  · rw [List.take_of_length_le hshort]
    refine Nat.eq_of_mul_eq_mul_right (Nat.pow_pos (n := ds.length) (by decide : 0 < 10)) ?_
    rw [← value, Nat.mul_assoc, ← Nat.pow_add, Nat.sub_add_cancel hshort]
  · have hlength : (ds.take 9).length = 9 := by
      rw [List.length_take]
      omega
    have hsplit := digitsValue_append (ds.take 9) (ds.drop 9)
    rw [List.take_append_drop] at hsplit
    have hdropped : digitsValue (ds.drop 9) < 10 ^ (ds.drop 9).length :=
      digitsValue_lt fun c hc => digits c (List.mem_of_mem_drop hc)
    have hpow : 10 ^ ds.length = 10 ^ (ds.drop 9).length * 10 ^ 9 := by
      rw [← Nat.pow_add, List.length_drop, Nat.sub_add_cancel (by omega)]
    rw [hpow, ← Nat.mul_assoc] at value
    have hvalue := Nat.eq_of_mul_eq_mul_right (by decide) value
    rw [hsplit] at hvalue
    have hpositive : 0 < 10 ^ (ds.drop 9).length := Nat.pow_pos (by decide)
    rw [hlength, Nat.sub_self, Nat.pow_zero, Nat.mul_one]
    calc digitsValue (ds.take 9)
        = (digitsValue (ds.drop 9) + digitsValue (ds.take 9) * 10 ^ (ds.drop 9).length) /
            10 ^ (ds.drop 9).length := by
          rw [Nat.add_mul_div_right _ _ hpositive, Nat.div_eq_of_lt hdropped, Nat.zero_add]
      _ = nano := by
          rw [Nat.add_comm, hvalue, Nat.mul_div_cancel _ hpositive]

theorem scanDecimals_run {ds rest : List Char} (some_digit : ds ≠ [])
    (digits : ∀ c ∈ ds, c.isDigit = true) (ends : NoneFollows Char.isDigit rest) :
    scanDecimals (ds ++ rest) =
      .ok (digitsValue (ds.take 9) * 10 ^ (9 - (ds.take 9).length), rest) := by
  have htaken : takeDigits (some 9) (ds ++ rest) = ds.take 9 := by
    rw [takeDigits, Text.takeWhile_run digits ends]
  have hlength : (ds.take 9).length ≤ 9 := List.length_take_le 9 ds
  have hfits : digitsValue (ds.take 9) < 10 ^ 9 :=
    lt_of_lt_of_le (digitsValue_lt fun c hc => digits c (List.mem_of_mem_take hc))
      (Nat.pow_le_pow_right (by decide) hlength)
  have hsome : (ds.take 9).isEmpty = false := by
    cases ds with
    | nil => exact absurd rfl some_digit
    | cons d ds => rfl
  have hnonempty : (ds ++ rest).isEmpty = false := by
    cases ds with
    | nil => exact absurd rfl some_digit
    | cons d ds => rfl
  have hdrop : (ds ++ rest).drop (ds.take 9).length = ds.drop 9 ++ rest := by
    have hsplit : ds ++ rest = ds.take 9 ++ (ds.drop 9 ++ rest) := by
      rw [← List.append_assoc, List.take_append_drop]
    rw [hsplit]
    exact List.drop_left
  have hnumber : scanNumber (some 9) (ds ++ rest) =
      .ok (digitsValue (ds.take 9), ds.drop 9 ++ rest) := by
    rw [scanNumber_eq, htaken, hsome, hnonempty, if_neg Bool.false_ne_true,
      if_neg Bool.false_ne_true, if_neg (by omega), hdrop]
  have hread : (ds ++ rest).length - (ds.drop 9 ++ rest).length = (ds.take 9).length := by
    rw [List.length_append, List.length_append, List.length_take, List.length_drop]
    omega
  have hrest : (ds.drop 9 ++ rest).dropWhile Char.isDigit = rest :=
    Text.dropWhile_run (fun c hc => digits c (List.mem_of_mem_drop hc)) ends
  rw [scanDecimals, hnumber]
  change Except.ok (_ * 10 ^ (9 - _), (ds.drop 9 ++ rest).dropWhile Char.isDigit) = _
  rw [hread, hrest]

/-- A fraction is read as the nanoseconds that it stands for. -/
theorem WritesFraction.scan {nano : Nat} {fraction rest : List Char}
    (h : WritesFraction nano fraction) (ends : NoneFollows Char.isDigit rest)
    (point : NoneFollows (· == '.') rest) : scanFraction (fraction ++ rest) = .ok (nano, rest) := by
  cases h with
  | none hnano =>
    rw [List.nil_append, hnano]
    exact scanFraction_absent point
  | digits some_digit digits value =>
    rw [List.cons_append, scanFraction, scanDecimals_run some_digit digits ends,
      value_of_take digits value]

/-- The fewest digits that lose nothing are such a fraction. -/
theorem writesFraction_fractionChars {nano : Nat} (bound : nano < 1000000000) :
    WritesFraction nano (fractionChars nano) := by
  have written {width n : Nat} (positive : 0 < width) (fits : n < 10 ^ width)
      (value : n * 10 ^ 9 = nano * 10 ^ width) : WritesFraction nano ('.' :: padded width n) := by
    refine .digits (padded_ne_nil width n) (fun c => isDigit_of_mem_padded) ?_
    rw [digitsValue_padded, length_padded positive fits, value]
  rw [fractionChars]
  split
  · exact .none ‹_›
  split
  · exact written (by decide) (by omega) (by omega)
  split
  · exact written (by decide) (by omega) (by omega)
  · exact written (by decide) (by omega) rfl

theorem isSpace_of_mem_padded {width n : Nat} {c : Char} (h : c ∈ padded width n) :
    Text.isSpace c = false :=
  Text.isSpace_of_isDigit (isDigit_of_mem_padded h)

theorem WritesFraction.noSpace {nano : Nat} {fraction : List Char} (h : WritesFraction nano fraction) :
    ∀ c ∈ fraction, Text.isSpace c = false := by
  cases h with
  | none => exact nofun
  | digits _ digits =>
    intro c hc
    rcases List.mem_cons.mp hc with rfl | hc
    · decide
    · exact Text.isSpace_of_isDigit (digits c hc)

/-! ## Zones -/

theorem scanTwoDigits_padded {n : Nat} (fits : n < 100) (rest : List Char) :
    scanTwoDigits (padded 2 n ++ rest) = .ok (n, rest) := by
  obtain ⟨a, b, hpair⟩ := List.length_eq_two.mp (length_padded (by decide) fits)
  have hdigit (c : Char) (hc : c ∈ [a, b]) : c.isDigit = true := isDigit_of_mem_padded (hpair ▸ hc)
  have hvalue : 10 * digitOf a + digitOf b = n := by
    have hpadded := digitsValue_padded 2 n
    rw [hpair] at hpadded
    simpa [digitsValue] using hpadded
  rw [hpair, List.cons_append, List.singleton_append, scanTwoDigits, hdigit a (by simp),
    hdigit b (by simp), hvalue]
  rfl

theorem scanHoursMinutes_padded {h m : Nat} (hours : h < 24) (minutes : m < 60) (sign : Int) :
    scanHoursMinutes (scanChar ':') sign (padded 2 h ++ ':' :: padded 2 m) =
      .ok (sign * (60 * h + m), []) := by
  have hminutes : scanTwoDigits (padded 2 m) = .ok (m, []) := by
    have hread := scanTwoDigits_padded (n := m) (by omega) []
    rw [List.append_nil] at hread
    exact hread
  rw [scanHoursMinutes, scan_bind (scanTwoDigits_padded (by omega) _), scan_bind (scanChar_self _ _),
    scan_bind hminutes, if_neg (by omega)]
  rfl

theorem WritesZone.scan {offset : Int} {zone : List Char} (h : WritesZone offset zone) :
    scanZone (scanChar ':') zone = .ok (offset, []) := by
  cases h with
  | utc letter => exact if_pos letter
  | @ahead h m hours minutes =>
    rw [List.cons_append, scanZone, if_neg (by decide), if_pos rfl,
      scanHoursMinutes_padded hours minutes, Int.one_mul]
  | @behind h m hours minutes =>
    rw [List.cons_append, scanZone, if_neg (by decide), if_neg (by decide), if_pos (.inl rfl),
      scanHoursMinutes_padded hours minutes, Int.neg_one_mul]

/-- A zone starts with a letter or a sign. -/
theorem WritesZone.noneFollows {offset : Int} {zone : List Char} (h : WritesZone offset zone)
    {p : Char → Bool} (none_starts : ['Z', 'z', '+', '-'].any p = false) : NoneFollows p zone := by
  have hnone (c : Char) (hc : c ∈ ['Z', 'z', '+', '-']) : p c = false :=
    Bool.eq_false_iff.mpr (List.any_eq_false.mp none_starts c hc)
  cases h with
  | utc letter =>
    refine Text.noneFollows_cons (hnone _ ?_)
    rcases letter with rfl | rfl
    · simp
    · simp
  | ahead => exact Text.noneFollows_cons (hnone '+' (by simp))
  | behind => exact Text.noneFollows_cons (hnone '-' (by simp))

theorem WritesZone.ne_nil {offset : Int} {zone : List Char} (h : WritesZone offset zone) :
    zone ≠ [] := by
  cases h with
  | utc letter => exact List.cons_ne_nil _ _
  | ahead => exact List.cons_ne_nil _ _
  | behind => exact List.cons_ne_nil _ _

theorem WritesZone.noSpace {offset : Int} {zone : List Char} (h : WritesZone offset zone) :
    ∀ c ∈ zone, Text.isSpace c = false := by
  have signed {sign : Char} (hsign : Text.isSpace sign = false) (h m : Nat) :
      ∀ c ∈ sign :: padded 2 h ++ ':' :: padded 2 m, Text.isSpace c = false := by
    intro c hc
    rcases List.mem_append.mp hc with hc | hc
    · rcases List.mem_cons.mp hc with rfl | hc
      · exact hsign
      · exact isSpace_of_mem_padded hc
    · rcases List.mem_cons.mp hc with rfl | hc
      · decide
      · exact isSpace_of_mem_padded hc
  cases h with
  | utc letter =>
    intro c hc
    rw [List.mem_singleton] at hc
    rcases letter with rfl | rfl <;> rw [hc] <;> decide
  | ahead => exact signed (by decide) _ _
  | behind => exact signed (by decide) _ _

theorem WritesZone.natAbs_lt {offset : Int} {zone : List Char} (h : WritesZone offset zone) :
    offset.natAbs < 1440 := by
  cases h <;> omega

/-- Every zone of whole minutes less than a day from UTC can be written. -/
theorem exists_writesZone {offset : Int} (small : offset.natAbs < 1440) :
    ∃ zone, WritesZone offset zone := by
  have hours : offset.natAbs / 60 < 24 := by omega
  have minutes : offset.natAbs % 60 < 60 := by omega
  by_cases hsign : 0 ≤ offset
  · have hoffset : 60 * ((offset.natAbs / 60 : Nat) : Int) + ((offset.natAbs % 60 : Nat) : Int) = offset := by
      omega
    have hzone := WritesZone.ahead hours minutes
    rw [hoffset] at hzone
    exact ⟨_, hzone⟩
  · have hoffset : -(60 * ((offset.natAbs / 60 : Nat) : Int) + ((offset.natAbs % 60 : Nat) : Int)) = offset := by
      omega
    have hzone := WritesZone.behind hours minutes
    rw [hoffset] at hzone
    exact ⟨_, hzone⟩

/-! ## The strict form -/

theorem scanExactly_padded {width low high n : Nat} (positive : 0 < width) (narrow : width ≤ 9)
    (fits : n < 10 ^ width) (inside : low ≤ n ∧ n ≤ high) (rest : List Char) :
    scanExactly width low high (padded width n ++ rest) = .ok (n, rest) := by
  have htake : (padded width n ++ rest).take width = padded width n :=
    List.take_left' (length_padded positive fits)
  have hdigits : (padded width n).all Char.isDigit = true :=
    List.all_eq_true.mpr fun c => isDigit_of_mem_padded
  have hnumber := scanNumber_exact positive narrow fits rest
  rw [scanExactly, htake, length_padded positive fits, if_neg (by omega), if_pos hdigits, inBounds,
    scan_bind hnumber, if_pos inside]
  rfl

theorem scanDivider_cons {divider : Char} (h : divider = 'T' ∨ divider = 't' ∨ divider = ' ')
    (rest : List Char) : scanDivider (divider :: rest) = .ok ((), rest) :=
  if_pos h

namespace Instant

/-- Up to the zone the strict form reads the clock, whatever its zone may be. -/
theorem scanStrict_charsWith {l : Instant} {divider : Char} {fraction rest : List Char}
    (year : l.HasPlainYear) (hdivider : divider = 'T' ∨ divider = 't' ∨ divider = ' ')
    (hfraction : WritesFraction (l.nano % 1000000000) fraction)
    (digit : NoneFollows Char.isDigit rest) (point : NoneFollows (· == '.') rest) :
    scanStrict (l.charsWith divider fraction ++ rest) =
      (scanZone (scanChar ':') rest).map fun r => ((l.civil, r.1), r.2) := by
  obtain ⟨hmin, hmax⟩ := year
  have hmonth := l.date.month_bounds
  have hday := l.date.day_inside
  have hsecond := l.second_lt
  have hshown := l.shownSecond_le
  have hyear : ((l.date.year.toNat : Nat) : Int) = l.date.year := by omega
  simp only [charsWith, clockWith, Date.chars, yearChars, if_pos (And.intro hmin hmax),
    List.append_assoc, List.cons_append]
  rw [scanStrict, scan_bind (scanExactly_padded (by decide) (by decide) (by omega) (by omega) _),
    scan_bind (scanChar_self _ _),
    scan_bind (scanExactly_padded (by decide) (by decide) (by omega) hmonth _),
    scan_bind (scanChar_self _ _),
    scan_bind (scanExactly_padded (by decide) (by decide) (by omega) hday _),
    scan_bind (scanDivider_cons hdivider _),
    scan_bind (scanExactly_padded (by decide) (by decide) (by omega) (by omega) _),
    scan_bind (scanChar_self _ _),
    scan_bind (scanExactly_padded (by decide) (by decide) (by omega) (by omega) _),
    scan_bind (scanChar_self _ _),
    scan_bind (scanExactly_padded (by decide) (by decide) (by omega)
      ⟨Nat.zero_le _, hshown⟩ _),
    scan_bind (hfraction.scan digit point), hyear]
  change (scanZone (scanChar ':') rest >>= fun r => _) = _
  cases scanZone (scanChar ':') rest with
  | error e => rfl
  | ok r => rfl

theorem HasPlainYear.inside {t : Instant} (h : t.HasPlainYear) :
    minYear < t.date.year ∧ t.date.year < maxYear := by
  obtain ⟨hmin, hmax⟩ := h
  rw [minYear, maxYear]
  omega

theorem ShowsAt.inZone? {l t : Instant} {offset : Int} (h : l.ShowsAt offset t)
    (year : l.HasPlainYear) (small : offset.natAbs < 1440) : l.civil.inZone? offset = .ok t := by
  simp only [Civil.inZone?, instant?_civil, h.subOffset? year.inside small]
  exact if_neg (by omega)

/-- A spelling with a zone is in the strict form. -/
theorem ofSpelling?_zoned {l t : Instant} {offset : Int} {divider : Char} {fraction zone : List Char}
    (shows : l.ShowsAt offset t) (year : l.HasPlainYear)
    (hdivider : divider = 'T' ∨ divider = 't' ∨ divider = ' ')
    (hfraction : WritesFraction (l.nano % 1000000000) fraction) (hzone : WritesZone offset zone) :
    ofSpelling? (String.ofList (l.charsWith divider fraction ++ zone)) = some t := by
  have hscan := scanStrict_charsWith year hdivider hfraction
    (hzone.noneFollows (by decide)) (hzone.noneFollows (by decide))
  rw [hzone.scan] at hscan
  have hread : readZoned scanStrict (String.ofList (l.charsWith divider fraction ++ zone)) = .ok t := by
    rw [readZoned, String.toList_ofList, hscan]
    exact shows.inZone? year hzone.natAbs_lt
  rw [ofSpelling?, hread]

/-! ## The layouts without a zone -/

/-- The strict form ends where the zone should be. -/
theorem readZoned_plain {t : Instant} {divider : Char} {fraction : List Char} (year : t.HasPlainYear)
    (hdivider : divider = 'T' ∨ divider = 't' ∨ divider = ' ')
    (hfraction : WritesFraction (t.nano % 1000000000) fraction) :
    readZoned scanStrict (String.ofList (t.charsWith divider fraction)) = .error .tooShort := by
  have hscan : scanStrict (t.charsWith divider fraction ++ []) = _ :=
    scanStrict_charsWith year hdivider hfraction nofun nofun
  rw [List.append_nil] at hscan
  rw [readZoned, String.toList_ofList, hscan]
  rfl

end Instant

theorem scan_date (d : Date) (c : Civil) (layout : Layout) {rest : List Char} :
    Layout.scan (Layout.date ++ layout) c (d.chars ++ rest) =
      layout.scan { c with year := d.year, month := d.month, day := d.day } rest := by
  simp only [Date.chars, List.append_assoc, List.cons_append]
  rw [Layout.date, List.cons_append,
    Layout.scan_cons (Part.scan_year c d.year_bounds (Text.noneFollows_cons (by decide))),
    List.cons_append, Layout.scan_cons (Part.scan_literal _ '-' _), List.cons_append,
    Layout.scan_cons (Part.scan_month _ d.month_bounds _), List.cons_append,
    Layout.scan_cons (Part.scan_literal _ '-' _), List.cons_append,
    Layout.scan_cons (Part.scan_day _ d.day_inside _), List.nil_append]

theorem scan_clock {t : Instant} {fraction : List Char}
    (hfraction : WritesFraction (t.nano % 1000000000) fraction) (c : Civil) :
    Layout.clock.scan c (t.clockWith fraction) =
      .ok ({ c with
        hour := t.second / 3600
        minute := t.second / 60 % 60
        second := t.second % 60 + t.nano / 1000000000
        nano := t.nano % 1000000000 }, []) := by
  have hsecond := t.second_lt
  have hscan : scanFraction (fraction ++ []) = .ok (t.nano % 1000000000, []) :=
    hfraction.scan nofun nofun
  rw [List.append_nil] at hscan
  simp only [Instant.clockWith, List.append_assoc, List.cons_append]
  rw [Layout.clock, Layout.scan_cons (Part.scan_hour _ (by omega) _),
    Layout.scan_cons (Part.scan_literal _ ':' _), Layout.scan_cons (Part.scan_minute _ (by omega) _),
    Layout.scan_cons (Part.scan_literal _ ':' _),
    Layout.scan_cons (Part.scan_second _ t.shownSecond_le _),
    Layout.scan_cons (Part.scan_fraction _ hscan)]
  rfl

namespace Instant

/-- A layout reads the instant if it passes over the divider. -/
theorem read_charsWith {t : Instant} {divider : Char} {fraction : List Char} {part : Part}
    (hfraction : WritesFraction (t.nano % 1000000000) fraction)
    (hpart : ∀ c, part.scan c (divider :: t.clockWith fraction) = .ok (c, t.clockWith fraction)) :
    Layout.read (Layout.date ++ part :: Layout.clock) (t.charsWith divider fraction) = .ok t := by
  rw [Layout.read, charsWith, scan_date, Layout.scan_cons (hpart _), scan_clock hfraction]
  exact t.instant?_civil

/-- A space is not taken for the letter. -/
theorem read_space (t : Instant) (fraction : List Char) :
    Layout.read (Layout.date ++ .literal 'T' :: Layout.clock) (t.charsWith ' ' fraction) =
      .error .invalid := by
  rw [Layout.read, charsWith, scan_date]
  rfl

theorem noneFollows_clockWith (t : Instant) (fraction : List Char) :
    NoneFollows Text.isSpace (t.clockWith fraction) := by
  simp only [clockWith, List.append_assoc]
  exact noneFollows_padded _ _ _

theorem skipSpace_clockWith (t : Instant) (fraction : List Char) :
    skipSpace (' ' :: t.clockWith fraction) = .ok ((), t.clockWith fraction) := by
  have hdrop : ([' '] ++ t.clockWith fraction).dropWhile Text.isSpace = t.clockWith fraction :=
    Text.dropWhile_run (List.all_eq_true.mp rfl) (t.noneFollows_clockWith fraction)
  exact congrArg (fun cs => Except.ok ((), cs)) hdrop

theorem ofSpelling?_plain {t : Instant} {divider : Char} {fraction : List Char}
    (year : t.HasPlainYear) (hdivider : divider = 'T' ∨ divider = ' ')
    (hfraction : WritesFraction (t.nano % 1000000000) fraction) :
    ofSpelling? (String.ofList (t.charsWith divider fraction)) = some t := by
  have hstrict := readZoned_plain year (hdivider.imp_right .inr) hfraction
  rw [ofSpelling?, hstrict]
  dsimp only
  rw [String.toList_ofList, plainLayouts, List.findSome?_cons]
  rcases hdivider with rfl | rfl
  · rw [read_charsWith hfraction fun c => Part.scan_literal c 'T' _]
    rfl
  · have hspace (c : Civil) :
        Part.space.scan c (' ' :: t.clockWith fraction) = .ok (c, t.clockWith fraction) := by
      rw [Part.scan, scan_bind (skipSpace_clockWith t fraction)]
      rfl
    rw [read_space, List.findSome?_cons, read_charsWith hfraction hspace]
    rfl

/-- Every spelling is read as its instant. -/
theorem Spells.ofSpelling? {t : Instant} {cs : List Char} (h : t.Spells cs) :
    Instant.ofSpelling? (String.ofList cs) = some t := by
  cases h with
  | zoned shows year divider fraction zone =>
    exact ofSpelling?_zoned shows year divider fraction zone
  | plain year divider fraction => exact ofSpelling?_plain year divider fraction

/-! ## White space around a spelling -/

theorem noneFollows_charsWith (t : Instant) (divider : Char) (fraction rest : List Char) :
    NoneFollows Text.isSpace (t.charsWith divider fraction ++ rest) := by
  simp only [charsWith, Date.chars, List.append_assoc]
  exact noneFollows_yearChars _ _

theorem Spells.starts {t : Instant} {cs : List Char} (h : t.Spells cs) :
    NoneFollows Text.isSpace cs := by
  cases h with
  | zoned => exact noneFollows_charsWith _ _ _ _
  | @plain divider fraction =>
    have hfirst := noneFollows_charsWith t divider fraction []
    rw [List.append_nil] at hfirst
    exact hfirst

theorem clockWith_ne_nil (t : Instant) (fraction : List Char) : t.clockWith fraction ≠ [] := by
  simp [clockWith]

theorem clockWith_noSpace {t : Instant} {fraction : List Char}
    (hfraction : WritesFraction (t.nano % 1000000000) fraction) :
    ∀ c ∈ t.clockWith fraction, Text.isSpace c = false := by
  have hcolon : Text.isSpace ':' = false := by decide
  intro c hc
  simp only [clockWith, List.mem_append, List.mem_cons] at hc
  rcases hc with ((hc | rfl | hc) | rfl | hc) | hc
  · exact isSpace_of_mem_padded hc
  · exact hcolon
  · exact isSpace_of_mem_padded hc
  · exact hcolon
  · exact isSpace_of_mem_padded hc
  · exact hfraction.noSpace c hc

theorem Spells.ends {t : Instant} {cs : List Char} (h : t.Spells cs) :
    NoneFollows Text.isSpace cs.reverse := by
  cases h with
  | zoned _ _ _ _ zone => exact Text.noneFollows_reverse_append _ zone.ne_nil zone.noSpace
  | @plain divider fraction _ _ hfraction =>
    have hsplit : t.charsWith divider fraction =
        (t.date.chars ++ [divider]) ++ t.clockWith fraction := by
      simp [charsWith]
    rw [hsplit]
    exact Text.noneFollows_reverse_append _ (t.clockWith_ne_nil fraction) (clockWith_noSpace hfraction)

/-- The white space around a spelling does not count. -/
theorem Spells.ofSpelling?_trim {t : Instant} {front cs back : List Char} (h : t.Spells cs)
    (before : ∀ c ∈ front, Text.isSpace c = true) (after : ∀ c ∈ back, Text.isSpace c = true) :
    Instant.ofSpelling? (Text.trim (String.ofList (front ++ cs ++ back))) = some t := by
  rw [Text.trim, String.toList_ofList, Text.trimChars_between before after h.starts h.ends]
  exact h.ofSpelling?

/-! ## Written forms -/

theorem showsAt_zero (t : Instant) : t.ShowsAt 0 t :=
  ⟨by omega, rfl⟩

theorem chars_eq (t : Instant) (zone : List Char) :
    t.chars zone = t.charsWith 'T' (fractionChars (t.nano % 1000000000)) ++ zone := by
  simp [chars, charsWith, clockChars, clockWith]

/-- The text by a clock in some zone, with the fewest digits that lose nothing. -/
theorem ShowsAt.spells_chars {l t : Instant} {offset : Int} {zone : List Char}
    (h : l.ShowsAt offset t) (year : l.HasPlainYear) (hzone : WritesZone offset zone) :
    t.Spells (l.chars zone) := by
  rw [chars_eq]
  exact .zoned h year (.inl rfl) (writesFraction_fractionChars (Nat.mod_lt _ (by decide))) hzone

theorem HasPlainYear.spells_text {t : Instant} (year : t.HasPlainYear) : t.Spells t.text.toList := by
  rw [text, String.toList_ofList]
  exact t.showsAt_zero.spells_chars year (.utc (.inl rfl))

theorem HasPlainYear.spells_offsetText {t : Instant} (year : t.HasPlainYear) :
    t.Spells t.offsetText.toList := by
  rw [offsetText, String.toList_ofList]
  exact t.showsAt_zero.spells_chars year (.ahead (h := 0) (m := 0) (by decide) (by decide))

end Instant

end Scim.Time
