import Scim.Metadata
import Scim.Schema

/-!
# Users

A user with its name and email addresses, and the JSON form of each. The user name identifies a
user to its callers; it may be absent here because a request can leave it out.
-/

namespace Scim

structure Name where
  formatted : Option String
  familyName : Option String
  givenName : Option String
  deriving DecidableEq, Repr

namespace Name

def empty : Name := ⟨none, none, none⟩

def isEmpty (n : Name) : Bool :=
  n.formatted.isNone && n.familyName.isNone && n.givenName.isNone

def record : Record Name :=
  Record.start Name.mk
    |>.optional "formatted" Decode.text
    |>.optional "familyName" Decode.text
    |>.optional "givenName" Decode.text

def decode : Json → Decoded Name :=
  record.decode "Name"

def encode (n : Name) : Json :=
  .obj <|
    Encode.text "formatted" n.formatted ++
    Encode.text "familyName" n.familyName ++
    Encode.text "givenName" n.givenName

end Name

structure Email where
  value : String
  type : Option String
  isPrimary : Bool
  deriving DecidableEq, Repr

namespace Email

def record : Record Email :=
  Record.start Email.mk
    |>.required "value" Decode.text
    |>.optional "type" Decode.text
    |>.defaulted "primary" Decode.boolean false

def decode : Json → Decoded Email :=
  record.decode "Email"

def encode (e : Email) : Json :=
  .obj <| [("value", .str e.value)] ++ Encode.text "type" e.type ++ [("primary", .bool e.isPrimary)]

end Email

structure User where
  schemas : List String
  id : Option String
  externalId : Option String
  userName : Option String
  displayName : Option String
  name : Option Name
  nickName : Option String
  title : Option String
  userType : Option String
  preferredLanguage : Option String
  locale : Option String
  timezone : Option String
  active : Bool
  emails : List Email
  metadata : Metadata
  deriving DecidableEq, Repr

namespace User

/-- An active user of that name and nothing else. -/
def named (userName : String) : User where
  schemas := [userSchema]
  id := none
  externalId := none
  userName := some userName
  displayName := none
  name := none
  nickName := none
  title := none
  userType := none
  preferredLanguage := none
  locale := none
  timezone := none
  active := true
  emails := []
  metadata := .empty

/-- The user with one more address at work. -/
def addWorkEmail (u : User) (value : String) (isPrimary : Bool) : User :=
  { u with emails := u.emails ++ [⟨value, some "work", isPrimary⟩] }

def record : Record User :=
  Record.start User.mk
    |>.defaulted "schemas" (Decode.list Decode.text) [userSchema]
    |>.optional "id" Decode.text
    |>.optional "externalId" Decode.text
    |>.optional "userName" Decode.text
    |>.optional "displayName" Decode.text
    |>.optional "name" Name.decode
    |>.optional "nickName" Decode.text
    |>.optional "title" Decode.text
    |>.optional "userType" Decode.text
    |>.optional "preferredLanguage" Decode.text
    |>.optional "locale" Decode.text
    |>.optional "timezone" Decode.text
    |>.defaulted "active" Decode.boolean false
    |>.defaulted "emails" (Decode.list Email.decode) []
    |>.defaulted "meta" Metadata.decode .empty

def decode : Json → Decoded User :=
  record.decode "User"

/-- The JSON form with its fields in the order of their declaration. A list of no addresses is left
out. -/
def encode (u : User) : Json :=
  .obj <|
    [("schemas", Encode.texts u.schemas)] ++
    Encode.text "id" u.id ++
    Encode.text "externalId" u.externalId ++
    Encode.text "userName" u.userName ++
    Encode.text "displayName" u.displayName ++
    Encode.optional "name" (u.name.map Name.encode) ++
    Encode.text "nickName" u.nickName ++
    Encode.text "title" u.title ++
    Encode.text "userType" u.userType ++
    Encode.text "preferredLanguage" u.preferredLanguage ++
    Encode.text "locale" u.locale ++
    Encode.text "timezone" u.timezone ++
    [("active", .bool u.active)] ++
    Encode.optional "emails"
      (if u.emails.isEmpty then none else some (.arr (u.emails.map Email.encode))) ++
    [("meta", u.metadata.encode)]

end User

end Scim
