import Scim.Fault
import Scim.Metadata
import Scim.Schema

/-!
# Groups

A group and its members, who are referred to by the value of an identifier. Members keep the order
in which they were given or added.
-/

namespace Scim

structure Member where
  value : String
  display : Option String
  type : Option String
  deriving DecidableEq, Repr

namespace Member

/-- A member is well formed when its value is not blank and its type, if any, is a kind of
resource. -/
def validate (m : Member) : Except Invalid Member :=
  if Text.isBlank m.value then .error (.missingRequiredAttribute "members.value")
  else match m.type with
    | none => .ok m
    | some t =>
      if t = "User" ∨ t = "Group" then .ok m
      else .error (.custom s!"Member type must be 'User' or 'Group', got '{t}'")

/-- A well-formed member that refers to a user. -/
def ofUser (value : String) (display : Option String) : Except Invalid Member :=
  validate ⟨value, display, some "User"⟩

def record : Record Member :=
  Record.start Member.mk
    |>.required "value" Decode.text
    |>.optional "display" Decode.text
    |>.optional "type" Decode.text

def decode : Json → Decoded Member :=
  record.decode "GroupMember"

def encode (m : Member) : Json :=
  .obj <| [("value", .str m.value)] ++ Encode.text "display" m.display ++ Encode.text "type" m.type

end Member

structure Group where
  schemas : List String
  id : Option String
  externalId : Option String
  displayName : Option String
  members : List Member
  metadata : Metadata
  deriving DecidableEq, Repr

namespace Group

def named (displayName : String) : Group :=
  ⟨[groupSchema], none, none, some displayName, [], .empty⟩

/-- Adds a member at the end, whatever its value. -/
def appendMember (g : Group) (m : Member) : Group :=
  { g with members := g.members ++ [m] }

/-- Adds a member at the end, unless its value is there already. -/
def insertMember (members : List Member) (m : Member) : List Member :=
  if members.any (·.value == m.value) then members else members ++ [m]

/-- Adds the members one after the other. -/
def addMembers (g : Group) (added : List Member) : Group :=
  { g with members := added.foldl insertMember g.members }

/-- Drops every member of that value. -/
def removeMember (g : Group) (value : String) : Group :=
  { g with members := g.members.filter (·.value != value) }

def hasMember (g : Group) (value : String) : Bool :=
  g.members.any (·.value == value)

def record : Record Group :=
  Record.start Group.mk
    |>.defaulted "schemas" (Decode.list Decode.text) [groupSchema]
    |>.optional "id" Decode.text
    |>.optional "externalId" Decode.text
    |>.optional "displayName" Decode.text
    |>.defaulted "members" (Decode.list Member.decode) []
    |>.defaulted "meta" Metadata.decode .empty

def decode : Json → Decoded Group :=
  record.decode "Group"

/-- The JSON form with its fields in the order of their declaration. A list of no members is left
out. -/
def encode (g : Group) : Json :=
  .obj <|
    [("schemas", Encode.texts g.schemas)] ++
    Encode.text "id" g.id ++
    Encode.text "externalId" g.externalId ++
    Encode.text "displayName" g.displayName ++
    Encode.optional "members"
      (if g.members.isEmpty then none else some (.arr (g.members.map Member.encode))) ++
    [("meta", g.metadata.encode)]

end Group

end Scim
