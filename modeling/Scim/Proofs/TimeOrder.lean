import Scim.Time.Instant

/-!
# The order of time

The number that stands for an instant grows with the next day, the next second and the next
microsecond, also through a leap second. The time of a change therefore lies after the stored one,
whatever the clock reads.
-/

namespace Scim.Time

namespace Date

/-- A number that grows with the date. -/
def position (d : Date) : Int :=
  (d.year * 13 + d.month) * 32 + d.day

theorem ofCivil?_eq_some {y : Int} {m n : Nat} {d : Date} (h : ofCivil? y m n = some d) :
    d.year = y ∧ d.month = m ∧ d.day = n := by
  rw [ofCivil?] at h
  split at h
  · cases h
    exact ⟨rfl, rfl, rfl⟩
  · cases h

theorem position_lt_of_next? {d e : Date} (h : d.next? = some e) : d.position < e.position := by
  have hmonth := d.month_bounds
  have hday : d.day ≤ 31 := Nat.le_trans d.day_bounds.2 (daysInMonth_le d.year d.month)
  simp only [position]
  rw [next?] at h
  split at h
  · obtain ⟨hy, hm, hd⟩ := ofCivil?_eq_some h
    rw [hy, hm, hd]
    omega
  split at h
  · obtain ⟨hy, hm, hd⟩ := ofCivil?_eq_some h
    rw [hy, hm, hd]
    omega
  · obtain ⟨hy, hm, hd⟩ := ofCivil?_eq_some h
    rw [hy, hm, hd]
    omega

end Date

namespace Instant

theorem position_eq (t : Instant) :
    t.position = (t.date.position * 86400 + t.second) * 2000000000 + t.nano :=
  rfl

theorem lt_iff {a b : Instant} : a < b ↔ a.position < b.position :=
  Iff.rfl

theorem le_iff {a b : Instant} : a ≤ b ↔ a.position ≤ b.position :=
  Iff.rfl

theorem le_refl (a : Instant) : a ≤ a :=
  Int.le_refl a.position

theorem le_of_le_of_lt {a b c : Instant} (hab : a ≤ b) (hbc : b < c) : a ≤ c :=
  Int.le_of_lt (Int.lt_of_le_of_lt hab hbc)

theorem lt_trans {a b c : Instant} (hab : a < b) (hbc : b < c) : a < c :=
  Int.lt_trans hab hbc

theorem nano_lt_limit (t : Instant) : t.nano < 2000000000 := by
  rcases t.nano_lt with h | h
  · omega
  · exact h.2

theorem ofParts?_eq_some {d : Date} {second nano : Nat} {t : Instant}
    (h : ofParts? d second nano = some t) : t.date = d ∧ t.second = second ∧ t.nano = nano := by
  rw [ofParts?] at h
  split at h
  · cases h
    exact ⟨rfl, rfl, rfl⟩
  · cases h

/-- The start of the next second is later than all of this one, a leap second included. -/
theorem lt_nextSecond? {t u : Instant} {nano : Nat} (h : t.nextSecond? nano = some u) : t < u := by
  have hnano := t.nano_lt_limit
  have hsecond := t.second_lt
  rw [lt_iff, position_eq, position_eq]
  rw [nextSecond?] at h
  split at h
  · obtain ⟨hd, hs, hn⟩ := ofParts?_eq_some h
    rw [hd, hs, hn]
    omega
  · obtain ⟨d, hnext, hparts⟩ := Option.bind_eq_some_iff.mp h
    obtain ⟨hd, hs, hn⟩ := ofParts?_eq_some hparts
    have hlater := Date.position_lt_of_next? hnext
    rw [hd, hs, hn]
    omega

theorem lt_addMicrosecond? {t u : Instant} (h : t.addMicrosecond? = some u) : t < u := by
  simp only [addMicrosecond?] at h
  -- the end of the second does not matter, only whether it is reached
  generalize (if t.nano < 1000000000 then 1000000000 else 2000000000) = limit at h
  by_cases hwithin : t.nano + 1000 < limit
  · rw [if_pos hwithin] at h
    obtain ⟨hd, hs, hn⟩ := ofParts?_eq_some h
    rw [lt_iff, position_eq, position_eq, hd, hs, hn]
    omega
  · rw [if_neg hwithin] at h
    exact lt_nextSecond? h

/-- The time of a change is later than the stored one. -/
theorem lt_after? {p now t : Instant} (h : after? (some p) now = some t) : p < t := by
  simp only [after?] at h
  by_cases hbehind : now ≤ p
  · rw [if_pos hbehind] at h
    exact lt_addMicrosecond? h
  · rw [if_neg hbehind] at h
    cases h
    rw [lt_iff]
    rw [le_iff] at hbehind
    omega

end Instant

end Scim.Time
