import Scim.Time.Layout

/-!
# Spellings of instants

Two readers. `Instant.ofStamp?` reads the timestamps of stored resources, a date and time with an
offset, and lets white space stand in many places. `Instant.ofSpelling?` reads what a filter
compares with: the strict form of RFC 3339 or a date with or without a time of day, taken as UTC.
-/

namespace Scim.Time

/-- Two digits. A single character is too short only where it takes one byte. -/
def scanTwoDigits : Scan Nat
  | [] => .error .tooShort
  | [c] => if c.toNat < 0x80 then .error .tooShort else .error .invalid
  | a :: b :: rest =>
    if a.isDigit && b.isDigit then .ok (10 * digitOf a + digitOf b, rest) else .error .invalid

/-- Hours and minutes of a zone. `separator` passes over what stands between them. -/
def scanHoursMinutes (separator : Scan Unit) (sign : Int) : Scan Int := do
  let hours ← scanTwoDigits
  separator
  let minutes ← scanTwoDigits
  if 59 < minutes then throw .outOfRange
  return sign * (60 * hours + minutes)

/-- A zone, in minutes ahead of UTC: the letter Z or a sign with hours and minutes. -/
def scanZone (separator : Scan Unit) : Scan Int
  | [] => .error .tooShort
  | c :: rest =>
    if c = 'Z' ∨ c = 'z' then .ok (0, rest)
    else if c = '+' then scanHoursMinutes separator 1 rest
    else if c = '-' ∨ c = '\u2212' then scanHoursMinutes separator (-1) rest
    else .error .invalid

/-- Any run of colons and white space. -/
def skipSeparators : Scan Unit := fun cs =>
  .ok ((), cs.dropWhile fun c => c == ':' || Text.isSpace c)

/-- A zone in which colons and spaces may stand between hours and minutes, and for which `UTC` in
any case may stand. -/
def scanNamedZone : Scan Int
  | u :: t :: c :: rest =>
    if u.toLower = 'u' ∧ t.toLower = 't' ∧ c.toLower = 'c' then .ok (0, rest)
    else scanZone skipSeparators (u :: t :: c :: rest)
  | cs => scanZone skipSeparators cs

/-- One of `T`, `t` and a space between a date and a time. -/
def scanDivider : Scan Unit
  | [] => .error .tooShort
  | c :: rest => if c = 'T' ∨ c = 't' ∨ c = ' ' then .ok ((), rest) else .error .invalid

/-- The instant of a civil date and time in a zone less than a day from UTC. -/
def Civil.inZone? (c : Civil) (offset : Int) : Except ReadError Instant :=
  match c.instant? with
  | .error e => .error e
  | .ok t =>
    if 1440 ≤ offset.natAbs then .error .outOfRange
    else match t.subOffset? offset with
      | some t => .ok t
      | none => .error .impossible

def scanStamp : Scan (Civil × Int) := do
  let c ← Layout.looseDate.scan Civil.zero
  scanDivider
  let c ← Layout.looseClock.scan c
  let offset ← scanNamedZone
  skipSpace
  return (c, offset)

/-- A number of exactly `width` digits. -/
def scanExactly (width low high : Nat) : Scan Nat := fun cs =>
  if (cs.take width).length < width then .error .tooShort
  else if (cs.take width).all Char.isDigit then inBounds low high (scanNumber (some width)) cs
  else .error .invalid

/-- The strict form of RFC 3339: every number at its full width and no white space. -/
def scanStrict : Scan (Civil × Int) := do
  let year ← scanExactly 4 0 9999
  scanChar '-'
  let month ← scanExactly 2 1 12
  scanChar '-'
  let day ← scanExactly 2 1 31
  scanDivider
  let hour ← scanExactly 2 0 23
  scanChar ':'
  let minute ← scanExactly 2 0 59
  scanChar ':'
  let second ← scanExactly 2 0 60
  let nano ← scanFraction
  let offset ← scanZone (scanChar ':')
  return (⟨year, month, day, hour, minute, second, nano⟩, offset)

/-- The instant that a scan of a whole text yields. -/
def readZoned (scan : Scan (Civil × Int)) (s : String) : Except ReadError Instant :=
  match scan s.toList with
  | .error e => .error e
  | .ok ((c, offset), rest) => if rest.isEmpty then c.inZone? offset else .error .trailing

/-- The layouts tried where a text is not in the strict form. -/
def plainLayouts : List Layout :=
  [Layout.date ++ .literal 'T' :: Layout.clock, Layout.date ++ .space :: Layout.clock, Layout.date]

namespace Instant

def ofStamp? (s : String) : Except ReadError Instant :=
  readZoned scanStamp s

/-- The first of the spellings that reads the whole text. -/
def ofSpelling? (s : String) : Option Instant :=
  match readZoned scanStrict s with
  | .ok t => some t
  | .error _ => plainLayouts.findSome? fun layout => (layout.read s.toList).toOption

end Instant

end Scim.Time
