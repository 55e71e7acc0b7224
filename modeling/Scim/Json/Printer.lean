import Scim.Json.Basic
import Scim.Decimal.Shortest

/-!
# JSON text

The compact text of a value: no blanks, fields in the order in which they stand, and characters
outside ASCII as themselves.
-/

namespace Scim.Json

open Decimal

/-- An exponent as written after the mark, with its sign. -/
def exponentChars (e : Int) : List Char :=
  (if e < 0 then '-' else '+') :: Nat.toDigits 10 e.natAbs

/-- Positional from `1e-5` up to below `1e16`, always with a point; otherwise one digit before the
point and a signed exponent. -/
def scientificChars (s : Scientific) : List Char :=
  let ds := Nat.toDigits 10 s.digits
  let leading : Int := (ds.length : Int) - 1 + s.exponent
  if -5 ≤ leading ∧ leading ≤ 15 then
    if 0 ≤ s.exponent then ds ++ List.replicate s.exponent.toNat '0' ++ ['.', '0']
    else if 0 ≤ leading then
      ds.take (leading.toNat + 1) ++ '.' :: ds.drop (leading.toNat + 1)
    else '0' :: '.' :: List.replicate (-leading - 1).toNat '0' ++ ds
  else
    match ds with
    | [d] => d :: 'e' :: exponentChars leading
    | d :: rest => d :: '.' :: rest ++ 'e' :: exponentChars leading
    | [] => []

/-- The shortest text that reads back as the same double. A number that is not finite has no text
of its own. -/
def floatChars (x : Binary64) : List Char :=
  if x.isFinite then
    (if x.isNegative then ['-'] else []) ++ scientificChars (shortest x)
  else "null".toList

def intChars (n : Int) : List Char :=
  (if n < 0 then ['-'] else []) ++ Nat.toDigits 10 n.natAbs

def hexDigit (n : Nat) : Char :=
  Nat.digitChar n

/-- One character of a string. Quotes, backslashes and control characters are escaped. -/
def escapedChar (c : Char) : List Char :=
  if c = '"' then ['\\', '"']
  else if c = '\\' then ['\\', '\\']
  else if c = '\x08' then ['\\', 'b']
  else if c = '\t' then ['\\', 't']
  else if c = '\n' then ['\\', 'n']
  else if c = '\x0c' then ['\\', 'f']
  else if c = '\r' then ['\\', 'r']
  else if c.toNat < 0x20 then
    ['\\', 'u', '0', '0', hexDigit (c.toNat / 16), hexDigit (c.toNat % 16)]
  else [c]

def stringChars (s : String) : List Char :=
  '"' :: s.toList.flatMap escapedChar ++ ['"']

/-- The parts with a comma between each two. -/
def commaSeparated : List (List Char) → List Char
  | [] => []
  | [p] => p
  | p :: q :: rest => p ++ ',' :: commaSeparated (q :: rest)

mutual

def chars : Json → List Char
  | .null => ['n', 'u', 'l', 'l']
  | .bool true => ['t', 'r', 'u', 'e']
  | .bool false => ['f', 'a', 'l', 's', 'e']
  | .int n => intChars n
  | .float x => floatChars x
  | .str s => stringChars s
  | .arr items => '[' :: commaSeparated (itemChars items) ++ [']']
  | .obj fields => '\x7b' :: commaSeparated (fieldChars fields) ++ ['\x7d']

def itemChars : List Json → List (List Char)
  | [] => []
  | v :: rest => v.chars :: itemChars rest

def fieldChars : List (String × Json) → List (List Char)
  | [] => []
  | (k, v) :: rest => (stringChars k ++ ':' :: v.chars) :: fieldChars rest

end

/-- The compact text of the value as it stands. -/
def print (v : Json) : String :=
  String.ofList v.chars

/-- The compact text with the keys of every object in ascending order. -/
def compact (v : Json) : String :=
  v.sorted.print

end Scim.Json
