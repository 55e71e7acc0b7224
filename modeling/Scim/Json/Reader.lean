import Scim.Json.Basic

/-!
# Reading JSON text

A reader of whole texts. An integer that fits sixty-four bits, signed or unsigned, stays an
integer; every other number, minus zero included, is a double. Each reading function answers the
value and the text that follows it.
-/

namespace Scim.Json

open Decimal

def isBlankChar (c : Char) : Bool :=
  c == ' ' || c == '\t' || c == '\n' || c == '\r'

def skipBlanks (cs : List Char) : List Char :=
  cs.dropWhile isBlankChar

def digitValue (c : Char) : Nat :=
  c.toNat - '0'.toNat

def naturalValue (ds : List Char) : Nat :=
  ds.foldl (fun n c => 10 * n + digitValue c) 0

/-- How many values a word of sixty-four bits has. -/
def wordValues : Nat := 0x10000000000000000

/-- Takes digits into the significand while it fits a word of sixty-four bits. Answers the
significand and how many digits it took. -/
def gatherDigits (significand taken : Nat) : List Char → Nat × Nat
  | [] => (significand, taken)
  | c :: rest =>
    let next := 10 * significand + digitValue c
    if next < wordValues then gatherDigits next (taken + 1) rest else (significand, taken)

/-- The double of a number given by its digits before and after the point and its exponent. -/
def floatOfParts (negative : Bool) (whole fraction : List Char) (e : Int) : Option Json :=
  let (significand, kept) := gatherDigits 0 0 whole
  let (significand, placed) := gatherDigits significand 0 fraction
  (Binary64.ofDecimal? negative significand (e + (whole.length - kept : Nat) - placed)).map .float

def integerOfDigits (negative : Bool) (whole : List Char) : Option Json :=
  let n := naturalValue whole
  if negative then
    if n = 0 ∨ wordValues < 2 * n then floatOfParts true whole [] 0 else some (.int (-n))
  else if n < wordValues then some (.int n)
  else floatOfParts false whole [] 0

def readExponent : List Char → Option (Int × List Char)
  | '-' :: cs => digits cs |>.map fun (n, rest) => (-n, rest)
  | '+' :: cs => digits cs
  | cs => digits cs
where
  digits (cs : List Char) : Option (Int × List Char) :=
    match cs.span Char.isDigit with
    | ([], _) => none
    | (ds, rest) => some ((naturalValue ds : Int), rest)

/-- Digits of the whole part: a zero stands alone. -/
def readWhole (cs : List Char) : Option (List Char × List Char) :=
  match cs.span Char.isDigit with
  | ([], _) => none
  | ('0' :: _ :: _, _) => none
  | split => some split

def readUnsigned (negative : Bool) (cs : List Char) : Option (Json × List Char) := do
  let (whole, rest) ← readWhole cs
  match rest with
  | '.' :: rest =>
    match rest.span Char.isDigit with
    | ([], _) => none
    | (fraction, 'e' :: rest) | (fraction, 'E' :: rest) =>
      let (e, rest) ← readExponent rest
      let v ← floatOfParts negative whole fraction e
      return (v, rest)
    | (fraction, rest) =>
      let v ← floatOfParts negative whole fraction 0
      return (v, rest)
  | 'e' :: rest | 'E' :: rest =>
    let (e, rest) ← readExponent rest
    let v ← floatOfParts negative whole [] e
    return (v, rest)
  | rest =>
    let v ← integerOfDigits negative whole
    return (v, rest)

def readNumber : List Char → Option (Json × List Char)
  | '-' :: cs => readUnsigned true cs
  | cs => readUnsigned false cs

def hexValue? (c : Char) : Option Nat :=
  if '0' ≤ c ∧ c ≤ '9' then some (c.toNat - '0'.toNat)
  else if 'a' ≤ c ∧ c ≤ 'f' then some (c.toNat - 'a'.toNat + 10)
  else if 'A' ≤ c ∧ c ≤ 'F' then some (c.toNat - 'A'.toNat + 10)
  else none

def unitValue? (a b c d : Char) : Option Nat := do
  return ((16 * (← hexValue? a) + (← hexValue? b)) * 16 + (← hexValue? c)) * 16 + (← hexValue? d)

/-- The character of a one-letter escape. -/
def escapeValue? (c : Char) : Option Char :=
  if c = '"' then some '"'
  else if c = '\\' then some '\\'
  else if c = '/' then some '/'
  else if c = 'b' then some '\x08'
  else if c = 't' then some '\t'
  else if c = 'n' then some '\n'
  else if c = 'f' then some '\x0c'
  else if c = 'r' then some '\r'
  else none

/-- The characters of a string up to its closing quote. A character beyond sixteen bits may be
written as a pair of surrogates; a surrogate on its own is refused. -/
def readStringTail : List Char → Option (List Char × List Char)
  | [] => none
  | c :: rest =>
    if c = '"' then some ([], rest)
    else if c = '\\' then
      match rest with
      | [] => none
      | e :: more =>
        match escapeValue? e with
        | some x => (readStringTail more).map fun (s, r) => (x :: s, r)
        | none =>
          match e, more with
          | 'u', h1 :: h2 :: h3 :: h4 :: tail =>
            match unitValue? h1 h2 h3 h4 with
            | none => none
            | some high =>
              if 0xD800 ≤ high ∧ high < 0xDC00 then
                match tail with
                | '\\' :: 'u' :: l1 :: l2 :: l3 :: l4 :: tail =>
                  match unitValue? l1 l2 l3 l4 with
                  | none => none
                  | some low =>
                    if 0xDC00 ≤ low ∧ low < 0xE000 then
                      (readStringTail tail).map fun (s, r) =>
                        (Char.ofNat (0x10000 + 0x400 * (high - 0xD800) + (low - 0xDC00)) :: s, r)
                    else none
                | _ => none
              else if 0xDC00 ≤ high ∧ high < 0xE000 then none
              else (readStringTail tail).map fun (s, r) => (Char.ofNat high :: s, r)
          | _, _ => none
    else if c.toNat < 0x20 then none
    else (readStringTail rest).map fun (s, r) => (c :: s, r)

mutual

/-- One value; `depth` bounds how many values and separators may still be entered. -/
def readValue (depth : Nat) (cs : List Char) : Option (Json × List Char) :=
  match depth with
  | 0 => none
  | depth + 1 =>
    match skipBlanks cs with
    | 'n' :: 'u' :: 'l' :: 'l' :: rest => some (.null, rest)
    | 't' :: 'r' :: 'u' :: 'e' :: rest => some (.bool true, rest)
    | 'f' :: 'a' :: 'l' :: 's' :: 'e' :: rest => some (.bool false, rest)
    | '"' :: rest => (readStringTail rest).map fun (s, r) => (.str (String.ofList s), r)
    | '[' :: rest =>
      match skipBlanks rest with
      | ']' :: rest => some (.arr [], rest)
      | rest => (readItems depth rest).map fun (items, r) => (.arr items, r)
    | '\x7b' :: rest =>
      match skipBlanks rest with
      | '\x7d' :: rest => some (.obj [], rest)
      | rest => (readFields depth rest).map fun (fields, r) => (object fields, r)
    | rest => readNumber rest

/-- Values up to the closing bracket, at least one. -/
def readItems (depth : Nat) (cs : List Char) : Option (List Json × List Char) :=
  match depth with
  | 0 => none
  | depth + 1 =>
    match readValue depth cs with
    | none => none
    | some (v, rest) =>
      match skipBlanks rest with
      | ']' :: rest => some ([v], rest)
      | ',' :: rest => (readItems depth rest).map fun (items, r) => (v :: items, r)
      | _ => none

/-- Fields up to the closing brace, at least one. -/
def readFields (depth : Nat) (cs : List Char) : Option (List (String × Json) × List Char) :=
  match depth with
  | 0 => none
  | depth + 1 =>
    match skipBlanks cs with
    | '"' :: rest =>
      match readStringTail rest with
      | none => none
      | some (key, rest) =>
        match skipBlanks rest with
        | ':' :: rest =>
          match readValue depth rest with
          | none => none
          | some (v, rest) =>
            match skipBlanks rest with
            | '\x7d' :: rest => some ([(String.ofList key, v)], rest)
            | ',' :: rest =>
              (readFields depth rest).map fun (fields, r) => ((String.ofList key, v) :: fields, r)
            | _ => none
        | _ => none
    | _ => none

end

/-- The value of a whole text. -/
def read (s : String) : Option Json :=
  let cs := s.toList
  match readValue (cs.length + 1) cs with
  | some (v, rest) => if (skipBlanks rest).isEmpty then some v else none
  | none => none

end Scim.Json
