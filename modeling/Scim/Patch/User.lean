import Scim.Patch.Basic
import Scim.User

/-!
# Patching users

An operation on a user is first read as an edit, for which the user is not looked at, and the edit
is then made. A path names an attribute in any letter case but exactly otherwise.
-/

namespace Scim

namespace Patch

/-- The attributes of a user that hold one text. -/
inductive UserText where
  | userName
  | displayName
  | externalId
  | nickName
  | title
  | userType
  | preferredLanguage
  | locale
  | timezone
  deriving DecidableEq, Repr

inductive NamePart where
  | formatted
  | familyName
  | givenName
  deriving DecidableEq, Repr

/-- What a path can name in a user. -/
inductive UserTarget where
  | text (field : UserText)
  | active
  | name
  | namePart (part : NamePart)
  | emails
  deriving DecidableEq, Repr

namespace UserTarget

/-- The paths in small letters. -/
def paths : List (String × UserTarget) := [
  ("username", .text .userName),
  ("displayname", .text .displayName),
  ("externalid", .text .externalId),
  ("nickname", .text .nickName),
  ("title", .text .title),
  ("usertype", .text .userType),
  ("preferredlanguage", .text .preferredLanguage),
  ("locale", .text .locale),
  ("timezone", .text .timezone),
  ("active", .active),
  ("name", .name),
  ("name.givenname", .namePart .givenName),
  ("name.familyname", .namePart .familyName),
  ("name.formatted", .namePart .formatted),
  ("emails", .emails)]

def ofPath? (path : String) : Option UserTarget :=
  paths.lookup (Text.smallAscii path)

end UserTarget

inductive UserEdit where
  | setText (field : UserText) (value : Option String)
  | setActive (value : Bool)
  | setName (value : Option Name)
  | setNamePart (part : NamePart) (value : Option String)
  | addEmails (emails : List Email)
  | setEmails (emails : List Email)
  /-- Drops the addresses whose value is listed. -/
  | dropEmails (values : List String)
  deriving DecidableEq, Repr

end Patch

namespace Name

def setPart (n : Name) (part : Patch.NamePart) (value : Option String) : Name :=
  match part with
  | .formatted => { n with formatted := value }
  | .familyName => { n with familyName := value }
  | .givenName => { n with givenName := value }

/-- A name without parts is no name. -/
def orNone (n : Name) : Option Name :=
  if n.isEmpty then none else some n

end Name

namespace User

def setText (u : User) (field : Patch.UserText) (value : Option String) : User :=
  match field with
  | .userName => { u with userName := value }
  | .displayName => { u with displayName := value }
  | .externalId => { u with externalId := value }
  | .nickName => { u with nickName := value }
  | .title => { u with title := value }
  | .userType => { u with userType := value }
  | .preferredLanguage => { u with preferredLanguage := value }
  | .locale => { u with locale := value }
  | .timezone => { u with timezone := value }

/-- Adds an address at the end, unless its value is there already. -/
def insertEmail (emails : List Email) (e : Email) : List Email :=
  if emails.any (·.value == e.value) then emails else emails ++ [e]

end User

namespace Patch

namespace UserEdit

def apply : UserEdit → User → User
  | .setText field value, u => u.setText field value
  | .setActive value, u => { u with active := value }
  | .setName value, u => { u with name := value }
  | .setNamePart part value, u =>
    { u with name := ((u.name.getD .empty).setPart part value).orNone }
  | .addEmails emails, u => { u with emails := emails.foldl User.insertEmail u.emails }
  | .setEmails emails, u => { u with emails }
  | .dropEmails values, u => { u with emails := u.emails.filter fun e => !values.contains e.value }

/-- The whole name given by an operation; any failure to read it is one of type. -/
def nameValue (o : Operation) : Except Fault (Option Name) :=
  match o.op with
  | .remove => .ok none
  | _ => do
    let v ← o.requireValue
    match Name.decode v with
    | .ok n => return n.orNone
    | .error _ => throw (o.wrongType "a name object" v)

def emailEdit (o : Operation) : Except Fault UserEdit :=
  match o.op with
  | .add => (o.listValue Email.decode).map .addEmails
  | .replace => (o.listValue Email.decode).map .setEmails
  | .remove =>
    match o.given? with
    | some _ => (o.listValue Email.decode).map fun es => .dropEmails (es.map (·.value))
    | none => .ok (.setEmails [])

def ofOperation (o : Operation) : Except Fault UserEdit :=
  match UserTarget.ofPath? o.path with
  | none => .error o.unsupported
  | some (.text field) => o.textValue.map (.setText field)
  | some .active => o.truthValue.map fun b => .setActive (b.getD false)
  | some .name => (nameValue o).map .setName
  | some (.namePart part) => o.textValue.map (.setNamePart part)
  | some .emails => emailEdit o

end UserEdit

end Patch

end Scim
