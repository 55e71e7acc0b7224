/-!
# Doubles

A double is kept by its bits, so that two of them are told apart exactly. Reading takes the
sixty-four bits of a decimal significand to the nearest double and scales it by one power of ten.
-/

namespace Scim.Decimal

structure Binary64 where
  bits : UInt64
  deriving DecidableEq, Repr, Inhabited

namespace Binary64

def ofFloat (x : Float) : Binary64 :=
  ⟨x.toBits⟩

def isNegative (x : Binary64) : Bool :=
  x.bits >>> 63 == 1

def biasedExponent (x : Binary64) : Nat :=
  ((x.bits >>> 52) &&& 0x7FF).toNat

def fraction (x : Binary64) : Nat :=
  (x.bits &&& 0xFFFFFFFFFFFFF).toNat

/-- Neither infinite nor a NaN. -/
def isFinite (x : Binary64) : Bool :=
  x.biasedExponent != 0x7FF

/-- The magnitude of a finite double is `significand * 2 ^ exponent`. -/
def significand (x : Binary64) : Nat :=
  if x.biasedExponent = 0 then x.fraction else 0x10000000000000 + x.fraction

def exponent (x : Binary64) : Int :=
  if x.biasedExponent = 0 then -1074 else x.biasedExponent - 1075

/-- `x * 10 ^ e`, or `none` past the largest double. An exponent below -308 is reached in steps. -/
def scale (x : Float) (e : Int) : Option Float :=
  if e.natAbs ≤ 308 then
    if 0 ≤ e then
      let y := x * Float.ofScientific 1 false e.natAbs
      if y.isInf then none else some y
    else some (x / Float.ofScientific 1 false e.natAbs)
  else if x == 0.0 then some x
  else if 0 ≤ e then none
  else scale (x / 1e308) (e + 308)
termination_by e.natAbs
decreasing_by omega

/-- The double written as a significand below `2 ^ 64` and a power of ten. -/
def ofDecimal? (negative : Bool) (significand : Nat) (e : Int) : Option Binary64 :=
  (scale significand.toUInt64.toFloat e).map fun x => ofFloat (if negative then -x else x)

end Binary64

end Scim.Decimal
