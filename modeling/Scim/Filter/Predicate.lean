import Scim.Filter.Attribute
import Scim.Text.Lowercase

/-!
# Predicates

A filter is compiled against a type of resources before any resource is looked at. What comes out
is a predicate of matchers that cannot fail; a bad filter fails in its first bad term, or its first
conjunction without terms.
-/

namespace Scim.Filter

open Time (Instant)

inductive Matcher (α : Type) where
  /-- Equal when both are made small letter by letter; `expected` already is. -/
  | textEquals (read : α → Option String) (expected : String)
  | booleanEquals (read : α → Bool) (expected : Bool)
  | notBefore (read : α → Option Instant) (bound : Instant)
  | notAfter (read : α → Option Instant) (bound : Instant)

namespace Matcher

def holds {α : Type} (m : Matcher α) (r : α) : Bool :=
  match m with
  | .textEquals read expected =>
    match read r with
    | some actual => Text.lowerEach actual == expected
    | none => false
  | .booleanEquals read expected => read r == expected
  | .notBefore read bound =>
    match read r with
    | some t => bound ≤ t
    | none => false
  | .notAfter read bound =>
    match read r with
    | some t => t ≤ bound
    | none => false

end Matcher

structure Predicate (α : Type) where
  alternatives : List (List (Matcher α))

namespace Predicate

variable {α : Type}

/-- Lets every resource through. -/
def always : Predicate α :=
  ⟨[]⟩

def isMatchAll (p : Predicate α) : Bool :=
  p.alternatives.isEmpty

def holds (p : Predicate α) (r : α) : Bool :=
  p.isMatchAll || p.alternatives.any fun ms => ms.all (·.holds r)

/-- The count of terms in each alternative. -/
def sizes (p : Predicate α) : List Nat :=
  p.alternatives.map List.length

/-- One line that shows the sizes. -/
def display (p : Predicate α) : String :=
  "Predicate \x7b alternatives: [" ++
    ", ".intercalate (p.sizes.map fun n => String.ofList (Nat.toDigits 10 n)) ++ "] \x7d"

end Predicate

/-- A truth value, in any case and with white space around it. -/
def readBoolean (path value : String) : Except Flaw Bool :=
  let v := Text.trim value
  if Text.sameLetters v "true" then .ok true
  else if Text.sameLetters v "false" then .ok false
  else .error (.notBoolean v path)

/-- An instant in one of its spellings, with white space around it. -/
def readTimestamp (path value : String) : Except Flaw Instant :=
  let v := Text.trim value
  match Instant.ofSpelling? v with
  | some t => .ok t
  | none => .error (.notTimestamp v path)

/-- The matcher of one term. Text and truth values are compared for equality alone, instants by
their order. -/
def compileTerm (α : Type) [Filterable α] (t : Term) : Except Fault (Matcher α) :=
  if Text.isBlank t.path then .error (.invalidFilter .blankPath)
  else if Text.isBlank t.value then .error (.invalidFilter (.blankValue t.path))
  else match Filterable.reading? α t.path, t.operator with
    | none, _ => .error (.unsupportedFilterAttribute t.path)
    | some (.text read), .equals => .ok (.textEquals read (Text.lowerEach t.value))
    | some (.boolean read), .equals =>
      (Fault.ofFiltered (readBoolean t.path t.value)).map (.booleanEquals read)
    | some (.timestamp read), .atLeast =>
      (Fault.ofFiltered (readTimestamp t.path t.value)).map (.notBefore read)
    | some (.timestamp read), .atMost =>
      (Fault.ofFiltered (readTimestamp t.path t.value)).map (.notAfter read)
    | some _, o => .error (.unsupportedFilterOperator t.path o)

def compileTerms (α : Type) [Filterable α] : List Term → Except Fault (List (Matcher α))
  | [] => .ok []
  | t :: rest => do return (← compileTerm α t) :: (← compileTerms α rest)

def compileConjunction (α : Type) [Filterable α] (c : Conjunction) :
    Except Fault (List (Matcher α)) :=
  if c.isEmpty then .error (.invalidFilter .emptyConjunction) else compileTerms α c.terms

def compileAll (α : Type) [Filterable α] : List Conjunction → Except Fault (List (List (Matcher α)))
  | [] => .ok []
  | c :: rest => do return (← compileConjunction α c) :: (← compileAll α rest)

/-- The predicate of a list of alternatives. -/
def compile (α : Type) [Filterable α] (alternatives : List Conjunction) :
    Except Fault (Predicate α) :=
  (compileAll α alternatives).map Predicate.mk

end Scim.Filter
