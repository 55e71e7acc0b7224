import Scim.Group
import Scim.User

/-!
# Resources

What users and groups have in common, and the sum of the two. The natural key of a resource is the
attribute by which its callers know it: the user name of a user, the display name of a group.
-/

namespace Scim

/-- A type of resources. -/
class Resource (α : Type) where
  kind : Kind
  naturalKeyName : String
  id : α → Option String
  withId : α → String → α
  metadata : α → Metadata
  withMetadata : α → Metadata → α
  naturalKey : α → Option String
  encode : α → Json
  decode : Json → Decoded α

instance : Resource User where
  kind := .user
  naturalKeyName := "userName"
  id := User.id
  withId u id := { u with id := some id }
  metadata := User.metadata
  withMetadata u m := { u with metadata := m }
  naturalKey := User.userName
  encode := User.encode
  decode := User.decode

instance : Resource Group where
  kind := .group
  naturalKeyName := "displayName"
  id := Group.id
  withId g id := { g with id := some id }
  metadata := Group.metadata
  withMetadata g m := { g with metadata := m }
  naturalKey := Group.displayName
  encode := Group.encode
  decode := Group.decode

/-- The name of a type of resources. -/
def Resource.typeName (α : Type) [Resource α] : String :=
  (Resource.kind α).name

/-- The compact text of a resource, with its fields in the order of their declaration. -/
def Resource.text {α : Type} [Resource α] (r : α) : String :=
  (Resource.encode r).print

inductive AnyResource where
  | user (u : User)
  | group (g : Group)
  deriving DecidableEq, Repr

namespace AnyResource

def kind : AnyResource → Kind
  | .user _ => .user
  | .group _ => .group

def id : AnyResource → Option String
  | .user u => u.id
  | .group g => g.id

def metadata : AnyResource → Metadata
  | .user u => u.metadata
  | .group g => g.metadata

def naturalKey : AnyResource → Option String
  | .user u => u.userName
  | .group g => g.displayName

def encode : AnyResource → Json
  | .user u => u.encode
  | .group g => g.encode

/-- The JSON form with its keys in ascending order. -/
def toJson (r : AnyResource) : Json :=
  r.encode.sorted

/-- The kind that the first telling schema of a JSON resource means. -/
def kindOf? (v : Json) : Option Kind :=
  (declaredSchemas v).findSome? Kind.ofIdentifier?

/-- Reads a resource whose kind is told by its schemas. -/
def ofJson? (v : Json) : Except Fault AnyResource :=
  match kindOf? v with
  | none => .error (.unsupportedResourceType (schemasDisplay v))
  | some .user => (Fault.ofDecoded (User.decode v)).map .user
  | some .group => (Fault.ofDecoded (Group.decode v)).map .group

end AnyResource

end Scim
