import Scim.Decimal.Binary64

/-!
# Shortest decimals

The decimal with the fewest digits that reads back as a given double, and of those the nearest to
it. The search is by exact arithmetic on the interval of reals that round to the double.
-/

namespace Scim.Decimal

/-- The number `digits * 10 ^ exponent`. -/
structure Scientific where
  digits : Nat
  exponent : Int
  deriving DecidableEq, Repr

/-- A positive number `middle / unit` with the ends `low / unit` and `high / unit` of the interval
that rounds to it. The ends belong to the interval when `closed`. -/
structure Interval where
  low : Nat
  middle : Nat
  high : Nat
  unit : Nat
  closed : Bool

namespace Interval

/-- The interval of a positive finite double. Below a power of two doubles are twice as close. -/
def ofBinary64 (x : Binary64) : Interval :=
  let m := x.significand
  let q := x.exponent
  let up := Nat.pow 2 q.toNat
  let below := if x.fraction = 0 && 1 < x.biasedExponent then 1 else 2
  { low := (4 * m - below) * up
    middle := 4 * m * up
    high := (4 * m + 2) * up
    unit := 4 * Nat.pow 2 (-q).toNat
    closed := m % 2 == 0 }

/-- The count of digits before the decimal point; for a number below one tenth, the count of zeros
after it with a minus sign. -/
def places (i : Interval) : Int :=
  if i.unit ≤ i.middle then ((Nat.toDigits 10 (i.middle / i.unit)).length : Int)
  else -(((List.range 400).find? fun j => i.unit ≤ i.middle * Nat.pow 10 (j + 1)).getD 0 : Nat)

/-- Whether `n * 10 ^ e` lies in the interval. -/
def holds (i : Interval) (n : Nat) (e : Int) : Bool :=
  let down := Nat.pow 10 (-e).toNat
  let value := n * Nat.pow 10 e.toNat * i.unit
  if i.closed then i.low * down ≤ value && value ≤ i.high * down
  else i.low * down < value && value < i.high * down

/-- Of the two neighbours on the grid of multiples of `10 ^ e`, the nearer one that lies in the
interval; halfway between them the even one. -/
def nearest? (i : Interval) (e : Int) : Option Nat :=
  let down := Nat.pow 10 (-e).toNat
  let step := Nat.pow 10 e.toNat * i.unit
  let n := i.middle * down / step
  let past := i.middle * down - n * step
  let upper := 2 * past > step || (2 * past == step && n % 2 == 1)
  match i.holds n e, i.holds (n + 1) e with
  | true, true => some (if upper then n + 1 else n)
  | true, false => some n
  | false, true => some (n + 1)
  | false, false => none

end Interval

/-- The shortest decimal of a finite double's magnitude. -/
def shortest (x : Binary64) : Scientific :=
  if x.significand = 0 then ⟨0, 0⟩
  else
    let i := Interval.ofBinary64 x
    let found := (List.range 17).findSome? fun (k : Nat) =>
      let e := i.places - (k + 1 : Nat)
      (i.nearest? e).map fun n => (⟨n, e⟩ : Scientific)
    match found with
    | some s => if s.digits % 10 = 0 then ⟨s.digits / 10, s.exponent + 1⟩ else s
    | none => ⟨x.significand, x.exponent⟩

end Scim.Decimal
