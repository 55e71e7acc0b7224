import Scim.Time.Instant

/-!
# Written instants

The text of an instant in UTC: a date and a time of day with no fraction or one of three, six or
nine digits, the fewest that lose nothing. Years outside 0 to 9999 carry a sign.
-/

namespace Scim.Time

/-- The digits of `n`, filled up to `width` with zeros in front. -/
def padded (width n : Nat) : List Char :=
  let ds := Nat.toDigits 10 n
  List.replicate (width - ds.length) '0' ++ ds

def yearChars (y : Int) : List Char :=
  if 0 ≤ y ∧ y ≤ 9999 then padded 4 y.toNat
  else (if y < 0 then '-' else '+') :: padded 4 y.natAbs

def fractionChars (nano : Nat) : List Char :=
  if nano = 0 then []
  else if nano % 1000000 = 0 then '.' :: padded 3 (nano / 1000000)
  else if nano % 1000 = 0 then '.' :: padded 6 (nano / 1000)
  else '.' :: padded 9 nano

def Date.chars (d : Date) : List Char :=
  yearChars d.year ++ '-' :: padded 2 d.month ++ '-' :: padded 2 d.day

namespace Instant

/-- The time of day. A leap second shows as second sixty. -/
def clockChars (t : Instant) : List Char :=
  let leap := t.nano / 1000000000
  padded 2 (t.second / 3600) ++ ':' :: padded 2 (t.second / 60 % 60) ++
    ':' :: padded 2 (t.second % 60 + leap) ++ fractionChars (t.nano % 1000000000)

def chars (t : Instant) (zone : List Char) : List Char :=
  t.date.chars ++ 'T' :: t.clockChars ++ zone

/-- The form used in JSON, with the zone as `Z`. -/
def text (t : Instant) : String :=
  String.ofList (t.chars ['Z'])

/-- The form used in messages, with the zone as an offset. -/
def offsetText (t : Instant) : String :=
  String.ofList (t.chars "+00:00".toList)

end Instant

end Scim.Time
