import Scim.Proofs.ResourceForm
import Scim.Proofs.TimeOrder

/-!
# The time of a modification

A change is stamped with the reading of the clock, or one microsecond after the stored time where the
clock has not passed that. The stamp exists as long as there is room for the microsecond: only where
the stored time lies in the last microsecond of all, of the last second or of a leap second after it,
and the clock has not passed it, there is no stamp, although there may still be later instants.
-/

namespace Scim

open Time (Instant)

namespace Time

/-! ## The end of time -/

namespace Date

theorem ofCivil?_eq_none_iff {y : Int} {m n : Nat} : ofCivil? y m n = none ↔
    ¬ ((minYear ≤ y ∧ y ≤ maxYear) ∧ (1 ≤ m ∧ m ≤ 12) ∧ (1 ≤ n ∧ n ≤ daysInMonth y m)) := by
  rw [ofCivil?]
  split
  · exact iff_of_false (Option.some_ne_none _) fun h => h ‹_›
  · exact iff_of_true rfl ‹_›

/-- Only the last day of the last year has no day after it. -/
theorem next?_eq_none_iff {d : Date} :
    d.next? = none ↔ d.year = maxYear ∧ d.month = 12 ∧ d.day = 31 := by
  have hyear := d.year_bounds
  have hmonth := d.month_bounds
  have hday := d.day_bounds
  rw [next?]
  split
  · rw [ofCivil?_eq_none_iff]
    have hlength := daysInMonth_le d.year d.month
    omega
  split
  · rw [ofCivil?_eq_none_iff]
    have hfirst := daysInMonth_pos d.year (d.month + 1)
    omega
  · rw [ofCivil?_eq_none_iff]
    have hfirst := daysInMonth_pos (d.year + 1) 1
    have hdecember : d.month = 12 := by omega
    have hlength : daysInMonth d.year d.month = 31 := by
      rw [hdecember]
      rfl
    omega

end Date

namespace Instant

/-- Less than a microsecond is left of the last second that there is, or of the leap second there. -/
structure InLastMicrosecond (t : Instant) : Prop where
  year : t.date.year = maxYear
  month : t.date.month = 12
  day : t.date.day = 31
  second : t.second = 86399
  nano : 999999000 ≤ t.nano % 1000000000

theorem ofParts?_eq_none_iff {d : Date} {second nano : Nat} : ofParts? d second nano = none ↔
    ¬ (second < 86400 ∧ (nano < 1000000000 ∨ (second % 60 = 59 ∧ nano < 2000000000))) := by
  rw [ofParts?]
  split
  · exact iff_of_false (Option.some_ne_none _) fun h => h ‹_›
  · exact iff_of_true rfl ‹_›

/-- The start of the next second is missing only after the last one. -/
theorem nextSecond?_eq_none_iff {t : Instant} {nano : Nat} (h : nano < 1000000000) :
    t.nextSecond? nano = none ↔ t.second = 86399 ∧ t.date.next? = none := by
  have hsecond := t.second_lt
  rw [nextSecond?]
  split
  · rw [ofParts?_eq_none_iff]
    omega
  · cases hnext : t.date.next? with
    | none =>
      refine iff_of_true rfl ⟨?_, rfl⟩
      omega
    | some d =>
      rw [Option.bind_some, ofParts?_eq_none_iff]
      refine iff_of_false ?_ fun h => Option.some_ne_none d h.2
      omega

theorem addMicrosecond?_eq_none_iff {t : Instant} :
    t.addMicrosecond? = none ↔ t.InLastMicrosecond := by
  have hsecond := t.second_lt
  have hnano := t.nano_lt
  simp only [addMicrosecond?]
  -- the second ends at one billion, and a leap second at two
  have hlimit : ∃ limit, (if t.nano < 1000000000 then 1000000000 else 2000000000) = limit ∧
      t.nano < limit ∧ (limit = 1000000000 ∨ t.second % 60 = 59 ∧ limit = 2000000000) ∧
      t.nano % 1000000000 + limit = t.nano + 1000000000 := by
    by_cases hplain : t.nano < 1000000000
    · exact ⟨1000000000, if_pos hplain, hplain, .inl rfl, by omega⟩
    · exact ⟨2000000000, if_neg hplain, by omega, .inr ⟨by omega, rfl⟩, by omega⟩
  obtain ⟨limit, heq, hinside, hends, hmod⟩ := hlimit
  rw [heq]
  by_cases hwithin : t.nano + 1000 < limit
  · rw [if_pos hwithin, ofParts?_eq_none_iff]
    refine iff_of_false (by omega) fun last => ?_
    have hlast := last.nano
    omega
  · rw [if_neg hwithin, nextSecond?_eq_none_iff (by omega), Date.next?_eq_none_iff]
    constructor
    · rintro ⟨hs, hy, hm, hd⟩
      exact ⟨hy, hm, hd, hs, by omega⟩
    · intro last
      exact ⟨last.second, last.year, last.month, last.day⟩

/-- There is no stamp only where the clock has not passed the stored time and that lies in the last
microsecond. -/
theorem after?_eq_none_iff {previous : Option Instant} {now : Instant} :
    after? previous now = none ↔ ∃ p, previous = some p ∧ now ≤ p ∧ p.InLastMicrosecond := by
  cases previous with
  | none =>
    refine iff_of_false (Option.some_ne_none now) ?_
    rintro ⟨p, hp, -⟩
    cases hp
  | some p =>
    simp only [after?, Option.some.injEq, exists_eq_left']
    by_cases hbehind : now ≤ p
    · rw [if_pos hbehind, addMicrosecond?_eq_none_iff, and_iff_right hbehind]
    · rw [if_neg hbehind]
      exact iff_of_false (Option.some_ne_none now) fun h => hbehind h.1

/-- A clock that has passed the stored time is taken at its word. -/
theorem after?_of_passed {previous : Option Instant} {now : Instant}
    (passed : ∀ p, previous = some p → p < now) : after? previous now = some now := by
  cases previous with
  | none => rfl
  | some p =>
    have hpassed : p.position < now.position := passed p rfl
    refine if_neg ?_
    rw [le_iff]
    omega

end Instant

end Time

namespace Metadata

/-- The metadata of a change at `now`: what stays is taken over, and the time is later than the stored
one, being the reading of the clock if that is. -/
structure Follows (m stored : Metadata) (now : Instant) : Prop where
  resourceType : m.resourceType = stored.resourceType
  created : m.created = stored.created
  location : m.location = stored.location
  later : ∃ t, m.lastModified = some t ∧ ∀ p, stored.lastModified = some p → p < t
  reading : (∀ p, stored.lastModified = some p → p < now) → m.lastModified = some now

theorem follows_of_forModification? {stored m : Metadata} {now : Instant}
    (h : forModification? stored now = some m) : m.Follows stored now := by
  obtain ⟨t, ht, rfl⟩ := Option.map_eq_some_iff.mp h
  refine ⟨rfl, rfl, rfl, ⟨t, rfl, fun p hp => ?_⟩, fun passed => ?_⟩
  · rw [hp] at ht
    exact Instant.lt_after? ht
  · rw [Instant.after?_of_passed passed] at ht
    exact ht.symm

/-- The metadata move forward with every change, whatever was stored and whatever the clock reads,
unless no microsecond is left for it. -/
theorem modification_moves_forward_iff (stored : Metadata) (now : Instant) :
    (∃ m, forModification? stored now = some m ∧ m.Follows stored now) ↔
      ∀ p, stored.lastModified = some p → now ≤ p → ¬ p.InLastMicrosecond := by
  have hends : forModification? stored now = none ↔
      ∃ p, stored.lastModified = some p ∧ now ≤ p ∧ p.InLastMicrosecond := by
    rw [forModification?, Option.map_eq_none_iff, Instant.after?_eq_none_iff]
  constructor
  · rintro ⟨m, hm, -⟩ p hp hbehind last
    rw [hends.mpr ⟨p, hp, hbehind, last⟩] at hm
    cases hm
  · intro room
    cases hm : forModification? stored now with
    | none =>
      obtain ⟨p, hp, hbehind, last⟩ := hends.mp hm
      exact absurd last (room p hp hbehind)
    | some m => exact ⟨m, rfl, follows_of_forModification? hm⟩

/-- A point of time that is told by its parts. -/
def moment (year : Int) (month day second nano : Nat) (exist : ((Time.Date.ofCivil? year month day).bind
    fun date => Instant.ofParts? date second nano).isSome = true) : Instant :=
  Option.get _ exist

def modifiedAt (t : Instant) : Metadata :=
  { empty with lastModified := some t }

theorem decode_lastModified {t : Instant} {text : String} (h : t.text = text) :
    decode (.obj [("lastModified", .str text)]) = .ok (modifiedAt t) := by
  rw [← h]
  exact codec.back (modifiedAt t)

/-- What was modified a nanosecond before the last one can be read but not be modified any more, and
it could have been modified in the last one. -/
theorem no_modification_before_last_nanosecond :
    ∃ stored later : Metadata,
      decode (.obj [("lastModified", .str "+262142-12-31T23:59:59.999999998Z")]) = .ok stored ∧
      decode (.obj [("lastModified", .str "+262142-12-31T23:59:59.999999999Z")]) = .ok later ∧
      later.Follows stored (moment 2024 1 1 0 0 (by decide)) ∧
      forModification? stored (moment 2024 1 1 0 0 (by decide)) = none := by
  have hstored : (moment 262142 12 31 86399 999999998 (by decide)).text =
      "+262142-12-31T23:59:59.999999998Z" := by
    decide +kernel
  have hlater : (moment 262142 12 31 86399 999999999 (by decide)).text =
      "+262142-12-31T23:59:59.999999999Z" := by
    decide +kernel
  refine ⟨_, _, decode_lastModified hstored, decode_lastModified hlater, ?_, rfl⟩
  refine ⟨rfl, rfl, rfl, ⟨_, rfl, fun p hp => ?_⟩, fun passed => ?_⟩
  · cases hp
    decide
  · exact absurd (passed _ rfl) (by decide)

end Metadata

end Scim
