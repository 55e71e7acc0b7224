import Scim.Filter.Basic
import Scim.Text.Blank

/-!
# Tokens of filters

A filter text is cut into words and quoted literals. White space separates them and is dropped; a
literal also ends the word before it. In a literal a backslash takes the next character as it is.
-/

namespace Scim.Filter

inductive Token where
  | word (text : String)
  | quoted (text : String)
  deriving DecidableEq, Repr

def isBracket (c : Char) : Bool :=
  c == '(' || c == ')' || c == '[' || c == ']'

def isWordChar (c : Char) : Bool :=
  !Text.isSpace c && c != '"' && !isBracket c

namespace Token

/-- The characters of a literal after its opening quote, and the text after its closing one. -/
def literalTail : List Char → Option (List Char × List Char)
  | [] => none
  | '"' :: rest => some ([], rest)
  | '\\' :: [] => none
  | '\\' :: c :: rest => (literalTail rest).map fun (v, r) => (c :: v, r)
  | c :: rest => (literalTail rest).map fun (v, r) => (c :: v, r)

theorem length_literalTail {cs v rest : List Char} (h : literalTail cs = some (v, rest)) :
    rest.length < cs.length := by
  fun_induction literalTail cs generalizing v rest with
  | case1 => simp at h
  | case2 => simp_all
  | case3 => simp at h
  | case4 c more ih =>
    simp only [Option.map_eq_some_iff, Prod.mk.injEq, Prod.exists] at h
    obtain ⟨v', r, hr, -, rfl⟩ := h
    have := ih hr
    simp only [List.length_cons]
    omega
  | case5 c more _ _ _ ih =>
    simp only [Option.map_eq_some_iff, Prod.mk.injEq, Prod.exists] at h
    obtain ⟨v', r, hr, -, rfl⟩ := h
    have := ih hr
    simp only [List.length_cons]
    omega

/-- The tokens of a text, or the first flaw in it. -/
def scan (cs : List Char) : Except Flaw (List Token) :=
  match cs with
  | [] => .ok []
  | c :: rest =>
    if Text.isSpace c then scan rest
    else if c = '"' then
      match h : literalTail rest with
      | none => .error .unterminatedLiteral
      | some (v, after) =>
        have := length_literalTail h
        (scan after).map (.quoted (String.ofList v) :: ·)
    else if isBracket c then .error (.grouping c)
    else
      have := (List.dropWhile_sublist isWordChar (l := rest)).length_le
      (scan (rest.dropWhile isWordChar)).map
        (.word (String.ofList (c :: rest.takeWhile isWordChar)) :: ·)
termination_by cs.length
decreasing_by all_goals simp only [List.length_cons]; omega

end Token

end Scim.Filter
