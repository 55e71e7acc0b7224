/-!
# Dates

Days of the proleptic Gregorian calendar, in years -262143 to 262142. Year 0 precedes year 1.
-/

namespace Scim.Time

def minYear : Int := -262143

def maxYear : Int := 262142

def isLeapYear (y : Int) : Bool :=
  y % 4 == 0 && (y % 100 != 0 || y % 400 == 0)

def daysInMonth (y : Int) (m : Nat) : Nat :=
  if m = 2 then (if isLeapYear y then 29 else 28)
  else if m = 4 ∨ m = 6 ∨ m = 9 ∨ m = 11 then 30
  else 31

theorem daysInMonth_pos (y : Int) (m : Nat) : 1 ≤ daysInMonth y m := by
  unfold daysInMonth; split <;> (try split) <;> omega

theorem daysInMonth_le (y : Int) (m : Nat) : daysInMonth y m ≤ 31 := by
  unfold daysInMonth; split <;> (try split) <;> omega

@[ext] structure Date where
  year : Int
  month : Nat
  day : Nat
  year_bounds : minYear ≤ year ∧ year ≤ maxYear
  month_bounds : 1 ≤ month ∧ month ≤ 12
  day_bounds : 1 ≤ day ∧ day ≤ daysInMonth year month
  deriving DecidableEq, Repr

namespace Date

def ofCivil? (y : Int) (m d : Nat) : Option Date :=
  if h : (minYear ≤ y ∧ y ≤ maxYear) ∧ (1 ≤ m ∧ m ≤ 12) ∧ (1 ≤ d ∧ d ≤ daysInMonth y m) then
    some ⟨y, m, d, h.1, h.2.1, h.2.2⟩
  else none

theorem ofCivil?_self (d : Date) : ofCivil? d.year d.month d.day = some d := by
  simp [ofCivil?, d.year_bounds, d.month_bounds, d.day_bounds]

theorem day_inside (d : Date) : 1 ≤ d.day ∧ d.day ≤ 31 :=
  ⟨d.day_bounds.1, Nat.le_trans d.day_bounds.2 (daysInMonth_le d.year d.month)⟩

/-- The day after. -/
def next? (d : Date) : Option Date :=
  if d.day < daysInMonth d.year d.month then ofCivil? d.year d.month (d.day + 1)
  else if d.month < 12 then ofCivil? d.year (d.month + 1) 1
  else ofCivil? (d.year + 1) 1 1

/-- The day before. -/
def prev? (d : Date) : Option Date :=
  if 1 < d.day then ofCivil? d.year d.month (d.day - 1)
  else if 1 < d.month then ofCivil? d.year (d.month - 1) (daysInMonth d.year (d.month - 1))
  else ofCivil? (d.year - 1) 12 31

end Date

end Scim.Time
