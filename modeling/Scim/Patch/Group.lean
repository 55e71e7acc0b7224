import Scim.Filter.Grammar
import Scim.Group
import Scim.Patch.Basic

/-!
# Patching groups

As for users, an operation on a group is first read as an edit. White space around a path is passed
over. Members can be removed one by one through a path that selects them by their value, written as
a filter between brackets.
-/

namespace Scim.Patch

/-- What a path can name in a group. -/
inductive GroupTarget where
  | displayName
  | externalId
  | members
  /-- The members that the filter text between the brackets selects. -/
  | selected (selector : List Char)
  deriving DecidableEq, Repr

namespace GroupTarget

/-- The paths in small letters. -/
def paths : List (String × GroupTarget) := [
  ("displayname", .displayName),
  ("externalid", .externalId),
  ("members", .members)]

/-- The text between the brackets of a path that selects members. -/
def selector? (path : List Char) : Option (List Char) :=
  if (path.take 8).map Char.toLower = "members[".toList then
    match (path.drop 8).reverse with
    | ']' :: inner => some inner.reverse
    | _ => none
  else none

def ofPath? (path : String) : Option GroupTarget :=
  let t := Text.trim path
  match paths.lookup (Text.smallAscii t) with
  | some target => some target
  | none => (selector? t.toList).map .selected

end GroupTarget

inductive GroupEdit where
  | setDisplayName (value : Option String)
  | setExternalId (value : Option String)
  | addMembers (members : List Member)
  | setMembers (members : List Member)
  /-- Drops the members whose value is listed. -/
  | dropMembers (values : List String)
  deriving DecidableEq, Repr

namespace GroupEdit

def apply : GroupEdit → Group → Group
  | .setDisplayName value, g => { g with displayName := value }
  | .setExternalId value, g => { g with externalId := value }
  | .addMembers members, g => g.addMembers members
  | .setMembers members, g => { g with members }
  | .dropMembers values, g => values.foldl Group.removeMember g

/-- The members of a list are all checked, in order. -/
def checkAll (o : Operation) : List Member → Except Fault (List Member)
  | [] => .ok []
  | m :: rest =>
    match m.validate with
    | .error e => .error (o.invalid e.message)
    | .ok m => do return m :: (← checkAll o rest)

def membersValue (o : Operation) : Except Fault (List Member) := do
  checkAll o (← o.listValue Member.decode)

/-- The value that a selector asks for: the filter has to be one term that compares `value` for
equality. -/
def selectedValue? (selector : List Char) : Option String :=
  match Filter.parse (String.ofList selector) with
  | .ok [⟨[t]⟩] =>
    if Text.sameLetters t.path "value" ∧ t.operator = .equals then some t.value else none
  | _ => none

def memberEdit (o : Operation) : Except Fault GroupEdit :=
  match o.op with
  | .add => (membersValue o).map .addMembers
  | .replace => (membersValue o).map .setMembers
  | .remove =>
    match o.given? with
    | some _ => (membersValue o).map fun ms => .dropMembers (ms.map (·.value))
    | none => .ok (.setMembers [])

def selectedEdit (o : Operation) (selector : List Char) : Except Fault GroupEdit :=
  match o.op, selectedValue? selector with
  | .remove, some value => .ok (.dropMembers [value])
  | _, _ => .error o.unsupported

def ofOperation (o : Operation) : Except Fault GroupEdit :=
  match GroupTarget.ofPath? o.path with
  | none => .error o.unsupported
  | some .displayName => o.textValue.map .setDisplayName
  | some .externalId => o.textValue.map .setExternalId
  | some .members => memberEdit o
  | some (.selected selector) => selectedEdit o selector

end GroupEdit

end Scim.Patch
