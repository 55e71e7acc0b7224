import Scim.Text.Blank
import Scim.Time.Instant

/-!
# Layouts of dates and times

A layout is a list of parts that a text is read by, from left to right. What is read are the civil
fields; whether they name a day and a time is decided afterwards.
-/

namespace Scim.Time

/-- Why a text is not the instant it should be. -/
inductive ReadError where
  | tooShort
  | invalid
  | outOfRange
  | impossible
  | trailing
  deriving DecidableEq, Repr

namespace ReadError

def message : ReadError → String
  | .tooShort => "premature end of input"
  | .invalid => "input contains invalid characters"
  | .outOfRange => "input is out of range"
  | .impossible => "no possible date and time matching input"
  | .trailing => "trailing input"

end ReadError

/-- Reads a value off the front of a text and leaves the rest. -/
abbrev Scan := StateT (List Char) (Except ReadError)

/-- The fields of a civil date and time as written. -/
structure Civil where
  year : Int
  month : Nat
  day : Nat
  hour : Nat
  minute : Nat
  second : Nat
  nano : Nat
  deriving DecidableEq, Repr

namespace Civil

def zero : Civil := ⟨0, 0, 0, 0, 0, 0, 0⟩

/-- The instant that a clock shows by these fields, as if it were UTC. Second sixty is a leap
second. -/
def instant? (c : Civil) : Except ReadError Instant :=
  match Date.ofCivil? c.year c.month c.day with
  | none => .error .outOfRange
  | some d =>
    let leap := if c.second = 60 then 1 else 0
    match Instant.ofParts? d (c.hour * 3600 + c.minute * 60 + (c.second - leap))
        (c.nano + leap * 1000000000) with
    | none => .error .outOfRange
    | some t => .ok t

end Civil

def digitOf (c : Char) : Nat :=
  c.toNat - '0'.toNat

/-- The number written by at most `width` digits at the start of the text, at least one. Without a
width all digits are taken, and the number has to fit a signed word of sixty-four bits. -/
def scanNumber (width : Option Nat) : Scan Nat := fun cs =>
  let all := cs.takeWhile Char.isDigit
  let ds := match width with | some w => all.take w | none => all
  let n := ds.foldl (fun n c => 10 * n + digitOf c) 0
  if cs.isEmpty then .error .tooShort
  else if ds.isEmpty then .error .invalid
  else if 0x8000000000000000 ≤ n then .error .outOfRange
  else .ok (n, cs.drop ds.length)

def scanChar (c : Char) : Scan Unit
  | [] => .error .tooShort
  | d :: rest => if d = c then .ok ((), rest) else .error .invalid

def skipSpace : Scan Unit := fun cs =>
  .ok ((), Text.skipSpace cs)

/-- Digits after a decimal point, as nanoseconds; those past the ninth are dropped. -/
def scanDecimals : Scan Nat := fun cs => do
  let (n, rest) ← scanNumber (some 9) cs
  return (n * Nat.pow 10 (9 - (cs.length - rest.length)), rest.dropWhile Char.isDigit)

/-- A decimal point and digits, or nothing. -/
def scanFraction : Scan Nat
  | '.' :: cs => scanDecimals cs
  | cs => .ok (0, cs)

/-- A year has an optional sign; with one it may have any number of digits. -/
def scanSignedYear : Scan Int
  | '-' :: cs => (scanNumber none cs).map fun (n, rest) => (-(n : Int), rest)
  | '+' :: cs => (scanNumber none cs).map fun (n, rest) => ((n : Int), rest)
  | cs => (scanNumber (some 4) cs).map fun (n, rest) => ((n : Int), rest)

/-- A year fits a signed word of thirty-two bits. -/
def scanYear : Scan Int := do
  let y ← scanSignedYear
  if -2147483648 ≤ y ∧ y ≤ 2147483647 then return y else throw .outOfRange

/-- The field is refused at once where no date or time could have it. -/
def inBounds (low high : Nat) (scan : Scan Nat) : Scan Nat := do
  let n ← scan
  if low ≤ n ∧ n ≤ high then return n else throw .outOfRange

/-- White space, then at most two digits. -/
def scanField (low high : Nat) : Scan Nat := do
  skipSpace
  inBounds low high (scanNumber (some 2))

/-- A part of a layout. Before a number white space is skipped. -/
inductive Part where
  | year
  | month
  | day
  | hour
  | minute
  | second
  | fraction
  /-- White space, possibly none. -/
  | space
  | literal (c : Char)

namespace Part

def scan (part : Part) (c : Civil) : Scan Civil :=
  match part with
  | .year => do
    skipSpace
    return { c with year := ← scanYear }
  | .month => return { c with month := ← scanField 1 12 }
  | .day => return { c with day := ← scanField 1 31 }
  | .hour => return { c with hour := ← scanField 0 23 }
  | .minute => return { c with minute := ← scanField 0 59 }
  | .second => return { c with second := ← scanField 0 60 }
  | .fraction => return { c with nano := ← scanFraction }
  | .space => do
    skipSpace
    return c
  | .literal d => do
    scanChar d
    return c

end Part

abbrev Layout := List Part

namespace Layout

def scan : Layout → Civil → Scan Civil
  | [], c => return c
  | part :: rest, c => do scan rest (← part.scan c)

/-- The instant of a whole text in this layout, its clock being UTC. -/
def read (layout : Layout) (cs : List Char) : Except ReadError Instant := do
  let (c, rest) ← layout.scan Civil.zero cs
  if rest.isEmpty then c.instant? else throw .trailing

def date : Layout :=
  [.year, .literal '-', .month, .literal '-', .day]

def clock : Layout :=
  [.hour, .literal ':', .minute, .literal ':', .second, .fraction]

/-- A date with white space allowed before its separators. -/
def looseDate : Layout :=
  [.year, .space, .literal '-', .month, .space, .literal '-', .day]

/-- A time of day with white space allowed before its separators and after it. -/
def looseClock : Layout :=
  [.hour, .space, .literal ':', .minute, .space, .literal ':', .second, .fraction, .space]

end Layout

end Scim.Time
