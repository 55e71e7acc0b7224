import Scim.Json.Decoding
import Scim.Text.Letters

/-!
# Filters

A filter is a list of alternatives, each a list of terms that all have to hold. A term compares an
attribute, named by its path, with a value. The empty filter lets every resource through.
-/

namespace Scim.Filter

inductive Operator where
  | equals
  | notEquals
  | contains
  | startsWith
  | endsWith
  | greater
  | atLeast
  | less
  | atMost
  | present
  deriving DecidableEq, Repr

namespace Operator

def word : Operator → String
  | .equals => "eq"
  | .notEquals => "ne"
  | .contains => "co"
  | .startsWith => "sw"
  | .endsWith => "ew"
  | .greater => "gt"
  | .atLeast => "ge"
  | .less => "lt"
  | .atMost => "le"
  | .present => "pr"

def all : List Operator :=
  [.equals, .notEquals, .contains, .startsWith, .endsWith, .greater, .atLeast, .less, .atMost,
    .present]

/-- The operator that a word names, in any case. -/
def ofWord? (s : String) : Option Operator :=
  all.find? fun o => o.word == Text.smallAscii s

/-- In JSON only the small words are understood. -/
def decode : Json → Decoded Operator :=
  Decode.variant (all.map fun o => (o.word, o))

def encode (o : Operator) : Json :=
  .str o.word

end Operator

structure Term where
  path : String
  operator : Operator
  value : String
  deriving DecidableEq, Repr

namespace Term

/-- The value stands between quotes as it is. -/
def display (t : Term) : String :=
  s!"{t.path} {t.operator.word} \"" ++ t.value ++ "\""

def record : Record Term :=
  Record.start Term.mk
    |>.required "attributePath" Decode.text
    |>.required "operator" Operator.decode
    |>.required "comparisonValue" Decode.text

def decode : Json → Decoded Term :=
  record.decode "FilterTerm"

def encode (t : Term) : Json :=
  .obj [("attributePath", .str t.path), ("operator", t.operator.encode),
    ("comparisonValue", .str t.value)]

end Term

/-- Terms that all have to hold. -/
structure Conjunction where
  terms : List Term
  deriving DecidableEq, Repr

namespace Conjunction

def ofTerm (t : Term) : Conjunction :=
  ⟨[t]⟩

/-- The conjunction with one more term at its end. -/
def and (c : Conjunction) (t : Term) : Conjunction :=
  ⟨c.terms ++ [t]⟩

def isEmpty (c : Conjunction) : Bool :=
  c.terms.isEmpty

def display (c : Conjunction) : String :=
  " and ".intercalate (c.terms.map Term.display)

def decode (v : Json) : Decoded Conjunction :=
  (Decode.list Term.decode v).map Conjunction.mk

def encode (c : Conjunction) : Json :=
  .arr (c.terms.map Term.encode)

end Conjunction

/-- The alternatives as one text. -/
def display (alternatives : List Conjunction) : String :=
  " or ".intercalate (alternatives.map Conjunction.display)

/-- Why a text is no filter, or a filter cannot be used. -/
inductive Flaw where
  | unterminatedLiteral
  | grouping (bracket : Char)
  | negation
  | pathExpected (found : String)
  | endsAfterLogicalOperator
  | operatorExpected (path : String)
  | unknownOperator (word : String)
  | valueExpected (path : String) (operator : Operator)
  | logicalOperatorExpected (found : String)
  | emptyConjunction
  | blankPath
  | blankValue (path : String)
  | notBoolean (value path : String)
  | notTimestamp (value path : String)
  deriving DecidableEq, Repr

/-- The text for a word that names no operator. -/
def unknownOperatorText (word : String) : String :=
  s!"unknown comparison operator '{Text.smallAscii word}'"

namespace Flaw

def message : Flaw → String
  | .unterminatedLiteral => "unterminated string literal"
  | .grouping bracket => "grouping with '" ++ bracket.toString ++ "' is not supported"
  | .negation => "'not' is not supported"
  | .pathExpected found => "expected attribute path, found \"" ++ found ++ "\""
  | .endsAfterLogicalOperator => "filter ends after a logical operator"
  | .operatorExpected path => s!"expected operator after '{path}'"
  | .unknownOperator word => unknownOperatorText word
  | .valueExpected path operator => s!"expected value after '{path} {operator.word}'"
  | .logicalOperatorExpected found => s!"expected 'and' or 'or', found '{found}'"
  | .emptyConjunction => "filter contains a conjunction without terms"
  | .blankPath => "filter term has a blank attribute path"
  | .blankValue path => s!"filter term on '{path}' has a blank comparison value"
  | .notBoolean value path => s!"'{value}' is not a boolean value for '{path}'"
  | .notTimestamp value path => s!"'{value}' is not a timestamp value for '{path}'"

end Flaw

end Scim.Filter
