/-!
# ASCII letters

Keywords, operators, schema identifiers and attribute names of a patch are compared without regard
to the case of `A`–`Z`. No other letter is folded here.
-/

namespace Scim.Text

/-- The text with `A`–`Z` made small. -/
def smallAscii (s : String) : String :=
  String.ofList (s.toList.map Char.toLower)

/-- Equality up to the case of `A`–`Z`. -/
def sameLetters (a b : String) : Bool :=
  smallAscii a == smallAscii b

@[simp] theorem sameLetters_refl (a : String) : sameLetters a a = true := by
  simp [sameLetters]

end Scim.Text
