import Scim.Json.Printer
import Scim.Text.Blank
import Scim.Text.Letters

/-!
# Kinds of resources

There are users and groups. A schema identifier or the bare name of a kind says which is meant,
in any case of the ASCII letters and with white space around it. A message declares its schemas in
a list.
-/

namespace Scim

def userSchema : String := "urn:ietf:params:scim:schemas:core:2.0:User"

/-- A resource that carries this extension is still a user. -/
def enterpriseUserSchema : String := "urn:ietf:params:scim:schemas:extension:enterprise:2.0:User"

def groupSchema : String := "urn:ietf:params:scim:schemas:core:2.0:Group"

inductive Kind where
  | user
  | group
  deriving DecidableEq, Repr

namespace Kind

def name : Kind → String
  | .user => "User"
  | .group => "Group"

def schema : Kind → String
  | .user => userSchema
  | .group => groupSchema

/-- The path segment under which the resources of a kind are found. -/
def endpoint : Kind → String
  | .user => "Users"
  | .group => "Groups"

/-- Every identifier that means the kind. -/
def identifiers : Kind → List String
  | .user => [userSchema, enterpriseUserSchema, "User"]
  | .group => [groupSchema, "Group"]

def ofIdentifier? (s : String) : Option Kind :=
  let t := Text.trim s
  if (identifiers .user).any (Text.sameLetters t) then some .user
  else if (identifiers .group).any (Text.sameLetters t) then some .group
  else none

end Kind

/-- The texts in the list of schemas that a value declares. -/
def declaredSchemas (v : Json) : List String :=
  match v.get? "schemas" with
  | some (.arr items) => items.filterMap fun
    | .str s => some s
    | _ => none
  | _ => []

/-- How a message shows the schemas of a value that were not understood. -/
def schemasDisplay (v : Json) : String :=
  match v.get? "schemas" with
  | some schemas => schemas.compact
  | none => "<missing schemas>"

end Scim
