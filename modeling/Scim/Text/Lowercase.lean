import Scim.Text.CaseTable

/-!
# Lower case

The full lower-case mapping of Unicode in two readings. `lowerEach` maps every character on its
own. `lowerWhole` maps a text as a whole, where a capital sigma at the end of a word becomes the
final form.
-/

namespace Scim.Text

/-- The lower-case mapping of one character on its own. Capital I with a dot above is the only
letter that becomes two. -/
def lowerChar (c : Char) : List Char :=
  if c = '\u0130' then ['i', '\u0307']
  else match lowerRuns.find? (·.covers c.toNat) with
    | some run => [Char.ofNat (run.map c.toNat)]
    | none => [c]

def lowerEach (s : String) : String :=
  String.ofList (s.toList.flatMap lowerChar)

def isCased (c : Char) : Bool :=
  inRanges casedRanges c.toNat

def isCaseIgnorable (c : Char) : Bool :=
  inRanges caseIgnorableRanges c.toNat

/-- The first character that is not case-ignorable is a cased one. -/
def opensCased (cs : List Char) : Bool :=
  match cs.dropWhile isCaseIgnorable with
  | [] => false
  | c :: _ => isCased c

/-- The condition Final_Sigma: a cased letter before, none after, case-ignorable characters
skipped. The text before is given in reverse. -/
def endsWord (before after : List Char) : Bool :=
  opensCased before && !opensCased after

/-- Lower case of the text that follows `before`, which is given in reverse. -/
def lowerFrom (before : List Char) : List Char → List Char
  | [] => []
  | c :: after =>
    (if c = 'Σ' then [if endsWord before after then 'ς' else 'σ'] else lowerChar c) ++
      lowerFrom (c :: before) after

def lowerWhole (s : String) : String :=
  String.ofList (lowerFrom [] s.toList)

end Scim.Text
