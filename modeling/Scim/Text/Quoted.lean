import Scim.Text.CaseTable
import Scim.Text.QuotedTable

/-!
# Quoted display

How a message shows a text between double quotes. A character that would not be seen, or would
join the one before it, is written by its number in braces.
-/

namespace Scim.Text

def hexDigits (n : Nat) : List Char :=
  Nat.toDigits 16 n

/-- One character between double quotes. -/
def quotedChar (c : Char) : List Char :=
  if c = '\x00' then ['\\', '0']
  else if c = '\t' then ['\\', 't']
  else if c = '\n' then ['\\', 'n']
  else if c = '\r' then ['\\', 'r']
  else if c = '"' then ['\\', '"']
  else if c = '\\' then ['\\', '\\']
  else if inRanges hiddenRanges c.toNat then
    ['\\', 'u', '\x7b'] ++ hexDigits c.toNat ++ ['\x7d']
  else [c]

def quoted (s : String) : String :=
  String.ofList ('"' :: s.toList.flatMap quotedChar ++ ['"'])

end Scim.Text
