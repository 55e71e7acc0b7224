import Mathlib.Algebra.BigOperators.Intervals
import Mathlib.Algebra.Order.BigOperators.Group.Finset
import Mathlib.Order.Interval.Finset.Nat
import Scim.Proofs.TimeOrder

/-!
# The count of days

Days are counted through months, leap years and centuries. The day after a day has the next number,
and no two days have the same one. So what a clock ahead of UTC or behind it shows at an instant is
told by numbers: the seconds that it shows differ from those of the instant by its offset.
-/

namespace Scim.Time

/-- The days from the start of year 1 to the start of a year. -/
def daysBeforeYear (y : Int) : Int :=
  365 * (y - 1) + (y - 1) / 4 - (y - 1) / 100 + (y - 1) / 400

/-- The days from the start of a year to the start of a month, or to its end before month 13. -/
def daysBeforeMonth (y : Int) (m : Nat) : Nat :=
  ∑ k ∈ Finset.Ico 1 m, daysInMonth y k

theorem daysBeforeMonth_succ (y : Int) {m : Nat} (h : 1 ≤ m) :
    daysBeforeMonth y (m + 1) = daysBeforeMonth y m + daysInMonth y m :=
  Finset.sum_Ico_succ_top h _

theorem daysBeforeMonth_mono (y : Int) {m n : Nat} (h : m ≤ n) :
    daysBeforeMonth y m ≤ daysBeforeMonth y n := by
  refine Finset.sum_le_sum_of_subset ?_
  intro k hk
  rw [Finset.mem_Ico] at hk ⊢
  omega

/-- The twelve months make up the year, which is longer by a day every fourth year, but for three
centuries of four. -/
theorem daysBeforeYear_succ (y : Int) :
    daysBeforeYear (y + 1) = daysBeforeYear y + daysBeforeMonth y 13 := by
  have hmonths : daysBeforeMonth y 13 = 337 + daysInMonth y 2 := by
    simp [daysBeforeMonth, Finset.sum_Ico_succ_top, daysInMonth]
    omega
  rw [hmonths, daysInMonth, if_pos rfl]
  simp only [daysBeforeYear, isLeapYear, Bool.and_eq_true, Bool.or_eq_true, beq_iff_eq, bne_iff_ne]
  split <;> omega

theorem daysBeforeYear_mono {y z : Int} (h : y ≤ z) : daysBeforeYear y ≤ daysBeforeYear z := by
  simp only [daysBeforeYear]
  omega

namespace Date

/-- The number of the day, the first day of year 1 being day 1. -/
def dayNumber (d : Date) : Int :=
  daysBeforeYear d.year + daysBeforeMonth d.year d.month + d.day

/-- A day lies within its month. -/
theorem dayNumber_le_month (d : Date) :
    d.dayNumber ≤ daysBeforeYear d.year + daysBeforeMonth d.year (d.month + 1) := by
  have hday := d.day_bounds.2
  rw [daysBeforeMonth_succ d.year d.month_bounds.1, dayNumber]
  omega

/-- A day lies within its year. -/
theorem dayNumber_le_year (d : Date) : d.dayNumber ≤ daysBeforeYear (d.year + 1) := by
  have hmonth := d.month_bounds.2
  have hmono := daysBeforeMonth_mono d.year (m := d.month + 1) (n := 13) (by omega)
  have hday := d.dayNumber_le_month
  rw [daysBeforeYear_succ]
  omega

theorem month_lt_dayNumber (d : Date) :
    daysBeforeYear d.year + daysBeforeMonth d.year d.month < d.dayNumber := by
  have hday := d.day_bounds.1
  rw [dayNumber]
  omega

theorem dayNumber_lt_of_year {d e : Date} (h : d.year < e.year) : d.dayNumber < e.dayNumber := by
  have hmono := daysBeforeYear_mono (y := d.year + 1) (z := e.year) h
  have hd := d.dayNumber_le_year
  have he := e.month_lt_dayNumber
  omega

theorem dayNumber_lt_of_month {d e : Date} (hyear : d.year = e.year) (h : d.month < e.month) :
    d.dayNumber < e.dayNumber := by
  have hmono := daysBeforeMonth_mono e.year (m := d.month + 1) (n := e.month) h
  have hd := d.dayNumber_le_month
  have he := e.month_lt_dayNumber
  rw [hyear] at hd
  omega

/-- No two days have the same number. -/
theorem dayNumber_injective {d e : Date} (h : d.dayNumber = e.dayNumber) : d = e := by
  have hyear : d.year = e.year := by
    by_contra hne
    rcases Int.lt_or_gt_of_ne hne with hlt | hgt
    · have := dayNumber_lt_of_year hlt
      omega
    · have := dayNumber_lt_of_year hgt
      omega
  have hmonth : d.month = e.month := by
    by_contra hne
    rcases Nat.lt_or_gt_of_ne hne with hlt | hgt
    · have := dayNumber_lt_of_month hyear hlt
      omega
    · have := dayNumber_lt_of_month hyear.symm hgt
      omega
  refine Date.ext hyear hmonth ?_
  simp only [dayNumber, hyear, hmonth] at h
  omega

theorem position_injective {d e : Date} (h : d.position = e.position) : d = e := by
  have hmonth := d.month_bounds
  have hmonth' := e.month_bounds
  have hday := d.day_inside
  have hday' := e.day_inside
  simp only [position] at h
  exact Date.ext (by omega) (by omega) (by omega)

/-- Days are numbered in the order of dates. -/
theorem position_lt_iff {d e : Date} : d.position < e.position ↔ d.dayNumber < e.dayNumber := by
  have grows {d e : Date} (h : d.position < e.position) : d.dayNumber < e.dayNumber := by
    have hd := d.month_bounds
    have he := e.month_bounds
    have hday := d.day_inside
    have hday' := e.day_inside
    simp only [position] at h
    rcases Int.lt_trichotomy d.year e.year with hyear | hyear | hyear
    · exact dayNumber_lt_of_year hyear
    · rcases Nat.lt_trichotomy d.month e.month with hmonth | hmonth | hmonth
      · exact dayNumber_lt_of_month hyear hmonth
      · simp only [dayNumber, hyear, hmonth] at h ⊢
        omega
      · omega
    · omega
  constructor
  · exact grows
  · intro h
    by_contra hposition
    rcases Int.lt_or_eq_of_le (Int.not_lt.mp hposition) with hlt | heq
    · have := grows hlt
      omega
    · rw [position_injective heq] at h
      omega

theorem dayNumber_next? {d e : Date} (h : d.next? = some e) : e.dayNumber = d.dayNumber + 1 := by
  have hday := d.day_bounds
  have hmonth := d.month_bounds
  rw [next?] at h
  split at h
  · obtain ⟨hy, hm, hd⟩ := ofCivil?_eq_some h
    rw [dayNumber, dayNumber, hy, hm, hd]
    omega
  split at h
  · obtain ⟨hy, hm, hd⟩ := ofCivil?_eq_some h
    rw [dayNumber, dayNumber, hy, hm, hd, daysBeforeMonth_succ d.year hmonth.1]
    omega
  · obtain ⟨hy, hm, hd⟩ := ofCivil?_eq_some h
    have hlast : d.month = 12 := by omega
    have hfull : d.day = daysInMonth d.year d.month := by omega
    rw [hlast] at hfull
    have hfirst : daysBeforeMonth (d.year + 1) 1 = 0 := rfl
    rw [dayNumber, dayNumber, hy, hm, hd, hfirst, daysBeforeYear_succ, hlast,
      daysBeforeMonth_succ d.year (by decide)]
    omega

theorem dayNumber_prev? {d e : Date} (h : d.prev? = some e) : e.dayNumber = d.dayNumber - 1 := by
  have hday := d.day_bounds
  have hmonth := d.month_bounds
  rw [prev?] at h
  split at h
  · obtain ⟨hy, hm, hd⟩ := ofCivil?_eq_some h
    rw [dayNumber, dayNumber, hy, hm, hd]
    omega
  split at h
  · obtain ⟨hy, hm, hd⟩ := ofCivil?_eq_some h
    have hsucc := daysBeforeMonth_succ d.year (m := d.month - 1) (by omega)
    rw [Nat.sub_add_cancel hmonth.1] at hsucc
    rw [dayNumber, dayNumber, hy, hm, hd, hsucc]
    omega
  · obtain ⟨hy, hm, hd⟩ := ofCivil?_eq_some h
    have hone : d.month = 1 := by omega
    have hfirst : daysBeforeMonth d.year 1 = 0 := rfl
    have hsucc := daysBeforeYear_succ (d.year - 1)
    rw [Int.sub_add_cancel, daysBeforeMonth_succ _ (by decide)] at hsucc
    have hdecember : daysInMonth (d.year - 1) 12 = 31 := rfl
    rw [dayNumber, dayNumber, hy, hm, hd, hone, hfirst, hsucc, hdecember]
    omega

theorem exists_ofCivil? {y : Int} {m n : Nat} (year : minYear ≤ y ∧ y ≤ maxYear)
    (month : 1 ≤ m ∧ m ≤ 12) (day : 1 ≤ n ∧ n ≤ daysInMonth y m) : ∃ d, ofCivil? y m n = some d :=
  ⟨⟨y, m, n, year, month, day⟩, dif_pos ⟨year, month, day⟩⟩

/-- There is a day after every day that is not of the last year. -/
theorem exists_next? {d : Date} (h : d.year < maxYear) : ∃ e, d.next? = some e := by
  have hyear := d.year_bounds
  have hmonth := d.month_bounds
  have hday := d.day_bounds
  rw [next?]
  split
  · exact exists_ofCivil? hyear hmonth (by omega)
  split
  · exact exists_ofCivil? hyear (by omega) ⟨le_rfl, daysInMonth_pos _ _⟩
  · exact exists_ofCivil? (by omega) (by decide) ⟨le_rfl, daysInMonth_pos _ _⟩

theorem exists_prev? {d : Date} (h : minYear < d.year) : ∃ e, d.prev? = some e := by
  have hyear := d.year_bounds
  have hmonth := d.month_bounds
  have hday := d.day_bounds
  rw [prev?]
  split
  · exact exists_ofCivil? hyear hmonth (by omega)
  split
  · exact exists_ofCivil? hyear (by omega) ⟨daysInMonth_pos _ _, le_rfl⟩
  · have hdecember : daysInMonth (d.year - 1) 12 = 31 := rfl
    exact exists_ofCivil? (by omega) (by decide) (by omega)

end Date

namespace Instant

/-- The seconds on the clock since the day before day 1. -/
def seconds (t : Instant) : Int :=
  t.date.dayNumber * 86400 + t.second

/-- A clock that is `offset` minutes ahead of UTC shows `l` at the instant `t`. -/
def ShowsAt (l : Instant) (offset : Int) (t : Instant) : Prop :=
  l.seconds = t.seconds + 60 * offset ∧ l.nano = t.nano

theorem eq_of_seconds {t u : Instant} (seconds : t.seconds = u.seconds) (nano : t.nano = u.nano) :
    t = u := by
  have ht := t.second_lt
  have hu := u.second_lt
  simp only [Instant.seconds] at seconds
  have hday : t.date.dayNumber = u.date.dayNumber := by omega
  exact Instant.ext (Date.dayNumber_injective hday) (by omega) nano

/-- Instants are ordered by the seconds on the clock and, within a second, by the nanoseconds. -/
theorem le_iff_seconds {t u : Instant} :
    t ≤ u ↔ t.seconds < u.seconds ∨ t.seconds = u.seconds ∧ t.nano ≤ u.nano := by
  have ht := t.second_lt
  have hu := u.second_lt
  have htnano := t.nano_lt_limit
  have hunano := u.nano_lt_limit
  rw [le_iff, position_eq, position_eq]
  simp only [seconds]
  rcases Int.lt_trichotomy t.date.dayNumber u.date.dayNumber with h | h | h
  · have hposition := Date.position_lt_iff.mpr h
    omega
  · have hdate := Date.dayNumber_injective h
    rw [hdate]
    omega
  · have hposition := Date.position_lt_iff.mpr h
    omega

/-- Whole minutes keep the second of the minute, and so the place of a leap second. -/
theorem exists_ofParts? (t : Instant) (d : Date) {s : Int} (inside : 0 ≤ s ∧ s < 86400)
    (minutes : (60 : Int) ∣ s - t.second) :
    ∃ u, ofParts? d s.toNat t.nano = some u ∧ u.seconds = d.dayNumber * 86400 + s ∧
      u.nano = t.nano := by
  have hnano := t.nano_lt
  have hparts : s.toNat < 86400 ∧
      (t.nano < 1000000000 ∨ (s.toNat % 60 = 59 ∧ t.nano < 2000000000)) := by omega
  refine ⟨⟨d, s.toNat, t.nano, hparts.1, hparts.2⟩, dif_pos hparts, ?_, rfl⟩
  simp only [seconds]
  omega

/-- Away from the first and the last year, a clock in any zone shows some instant. -/
theorem exists_subOffset? {t : Instant} {offset : Int} (years : minYear < t.date.year ∧ t.date.year < maxYear)
    (small : offset.natAbs < 1440) :
    ∃ u, t.subOffset? offset = some u ∧ u.seconds = t.seconds - 60 * offset ∧ u.nano = t.nano := by
  have hsecond := t.second_lt
  obtain ⟨before, hbefore⟩ := Date.exists_prev? years.1
  obtain ⟨after, hafter⟩ := Date.exists_next? years.2
  have hprev := Date.dayNumber_prev? hbefore
  have hnext := Date.dayNumber_next? hafter
  simp only [subOffset?]
  split
  · obtain ⟨u, hu, hseconds, hnano⟩ := t.exists_ofParts? before
      (s := t.second - 60 * offset + 86400) (by omega) (by omega)
    refine ⟨u, ?_, ?_, hnano⟩
    · rw [hbefore]
      exact hu
    · rw [hseconds, seconds]
      omega
  split
  · obtain ⟨u, hu, hseconds, hnano⟩ := t.exists_ofParts? t.date (s := t.second - 60 * offset)
      (by omega) (by omega)
    refine ⟨u, hu, ?_, hnano⟩
    rw [hseconds, seconds]
    omega
  · obtain ⟨u, hu, hseconds, hnano⟩ := t.exists_ofParts? after
      (s := t.second - 60 * offset - 86400) (by omega) (by omega)
    refine ⟨u, ?_, ?_, hnano⟩
    · rw [hafter]
      exact hu
    · rw [hseconds, seconds]
      omega

/-- What a clock shows is taken back to the instant. -/
theorem ShowsAt.subOffset? {l t : Instant} {offset : Int} (h : l.ShowsAt offset t)
    (years : minYear < l.date.year ∧ l.date.year < maxYear) (small : offset.natAbs < 1440) :
    l.subOffset? offset = some t := by
  obtain ⟨u, hu, hseconds, hnano⟩ := exists_subOffset? years small
  have heq : u = t := by
    refine eq_of_seconds ?_ (hnano.trans h.2)
    rw [hseconds, h.1]
    omega
  rw [hu, heq]

/-- A clock shows one date and time at an instant. -/
theorem existsUnique_showsAt {t : Instant} (years : minYear < t.date.year ∧ t.date.year < maxYear)
    {offset : Int} (small : offset.natAbs < 1440) : ∃! l : Instant, l.ShowsAt offset t := by
  obtain ⟨l, -, hseconds, hnano⟩ := @exists_subOffset? t (-offset) years (by omega)
  refine ⟨l, ⟨?_, hnano⟩, ?_⟩
  · rw [hseconds]
    omega
  · intro k hk
    refine eq_of_seconds ?_ (hk.2.trans hnano.symm)
    rw [hk.1, hseconds]
    omega

end Instant

end Scim.Time
