import Scim.Time.Date

/-!
# Instants

A point of time in UTC to the nanosecond. The last second of a minute may be a leap second, which
is kept as that second with a billion nanoseconds more: it comes after every other point of its
minute and before the next one.
-/

namespace Scim.Time

@[ext] structure Instant where
  date : Date
  /-- The second of the day. -/
  second : Nat
  nano : Nat
  second_lt : second < 86400
  nano_lt : nano < 1000000000 ∨ (second % 60 = 59 ∧ nano < 2000000000)
  deriving DecidableEq, Repr

namespace Instant

/-- A number that grows with time. It is no duration: months count 32 days and every second is long
enough for a leap second. -/
def position (t : Instant) : Int :=
  (((t.date.year * 13 + t.date.month) * 32 + t.date.day) * 86400 + t.second) * 2000000000 + t.nano

instance : LE Instant := ⟨fun a b => a.position ≤ b.position⟩

instance : LT Instant := ⟨fun a b => a.position < b.position⟩

instance (a b : Instant) : Decidable (a ≤ b) :=
  inferInstanceAs (Decidable (a.position ≤ b.position))

instance (a b : Instant) : Decidable (a < b) :=
  inferInstanceAs (Decidable (a.position < b.position))

def ofParts? (date : Date) (second nano : Nat) : Option Instant :=
  if h : second < 86400 ∧ (nano < 1000000000 ∨ (second % 60 = 59 ∧ nano < 2000000000)) then
    some ⟨date, second, nano, h.1, h.2⟩
  else none

/-- The start of the next second and `nano` nanoseconds. -/
def nextSecond? (t : Instant) (nano : Nat) : Option Instant :=
  if t.second + 1 < 86400 then ofParts? t.date (t.second + 1) nano
  else t.date.next?.bind fun d => ofParts? d 0 nano

/-- One microsecond later, or `none` past the last instant. A leap second is gone through to its
end. -/
def addMicrosecond? (t : Instant) : Option Instant :=
  let limit := if t.nano < 1000000000 then 1000000000 else 2000000000
  if t.nano + 1000 < limit then ofParts? t.date t.second (t.nano + 1000)
  else t.nextSecond? (t.nano + 1000 - limit)

/-- The instant in UTC of a clock that shows `t` and is `offset` minutes ahead, less than a day. -/
def subOffset? (t : Instant) (offset : Int) : Option Instant :=
  let s := (t.second : Int) - 60 * offset
  if s < 0 then t.date.prev?.bind fun d => ofParts? d (s + 86400).toNat t.nano
  else if s < 86400 then ofParts? t.date s.toNat t.nano
  else t.date.next?.bind fun d => ofParts? d (s - 86400).toNat t.nano

/-- The first reading of a clock that has passed `previous`: `now`, or one microsecond after
`previous` where `now` has not passed it. -/
def after? (previous : Option Instant) (now : Instant) : Option Instant :=
  match previous with
  | none => some now
  | some p => if now ≤ p then p.addMicrosecond? else some now

end Instant

end Scim.Time
