/-!
# Blank text

The White_Space property of Unicode, trimming, and blankness. An attribute value, an identifier
and a setting all count as absent when every character of theirs is white space, and the reading
of filters, paths and timestamps skips the same set.
-/

namespace Scim.Text

/-- The White_Space property. -/
def isSpace (c : Char) : Bool :=
  let n := c.toNat
  (0x09 ≤ n && n ≤ 0x0D) || n == 0x20 || n == 0x85 || n == 0xA0 || n == 0x1680 ||
    (0x2000 ≤ n && n ≤ 0x200A) || n == 0x2028 || n == 0x2029 || n == 0x202F || n == 0x205F ||
    n == 0x3000

/-- Core's white space is part of the property. -/
theorem isSpace_of_isWhitespace {c : Char} (h : c.isWhitespace = true) : isSpace c = true := by
  simp only [Char.isWhitespace, Bool.or_eq_true, decide_eq_true_eq] at h
  rcases h with ((h | h) | h) | h <;> subst h <;> decide

def skipSpace (cs : List Char) : List Char :=
  cs.dropWhile isSpace

def trimChars (cs : List Char) : List Char :=
  (skipSpace (skipSpace cs).reverse).reverse

/-- The text without white space at either end. -/
def trim (s : String) : String :=
  String.ofList (trimChars s.toList)

/-- No character stands out from white space; the empty text is blank. -/
def isBlank (s : String) : Bool :=
  s.toList.all isSpace

/-- The text without the trailing characters that equal `c`. -/
def trimEndOf (c : Char) (s : String) : String :=
  String.ofList (s.toList.reverse.dropWhile (· == c)).reverse

theorem skipSpace_eq_nil_iff (cs : List Char) : skipSpace cs = [] ↔ cs.all isSpace = true := by
  induction cs with
  | nil => simp [skipSpace]
  | cons c rest ih =>
    cases h : isSpace c with
    | false => simp [skipSpace, h]
    | true =>
      rw [skipSpace, List.dropWhile_cons_of_pos h, List.all_cons, h, Bool.true_and]
      exact ih

end Scim.Text
