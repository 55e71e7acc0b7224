import Scim.Proofs.JsonRecord
import Scim.Proofs.WrittenInstant
import Scim.Resource

/-!
# The JSON form of resources

Users, groups and their parts are read back from their JSON form as they were written, whatever
their fields hold.
-/

namespace Scim

open Record (Codec Reads)

theorem Time.Instant.codec : Codec Instant.decode Instant.encode := by
  refine ⟨fun t => ?_, fun t => ?_⟩
  · rw [encode, Json.sorted, decode, t.ofStamp?_text]
  · rw [encode, Json.sorted]
    intro h
    cases h

namespace Name

def slots (n : Name) : List (String × Option Json) :=
  [("formatted", n.formatted.map .str), ("familyName", n.familyName.map .str),
    ("givenName", n.givenName.map .str)]

theorem encode_eq (n : Name) : n.encode = .obj (Json.present n.slots) := by
  simp only [encode, slots, Json.present_cons, Json.present, Encode.text, List.append_assoc,
    List.append_nil]

theorem reads (n : Name) : record.Reads n.slots n :=
  (Reads.start Name.mk).optional "formatted" .text n.formatted
    |>.optional "familyName" .text n.familyName
    |>.optional "givenName" .text n.givenName

theorem codec : Codec decode encode :=
  .record encode_eq reads (fun _ => by simp [slots]) "Name"

end Name

namespace Email

def slots (e : Email) : List (String × Option Json) :=
  [("value", some (.str e.value)), ("type", e.type.map .str), ("primary", some (.bool e.isPrimary))]

theorem encode_eq (e : Email) : e.encode = .obj (Json.present e.slots) := by
  simp only [encode, slots, Json.present_cons, Json.present, Encode.text, Encode.optional,
    List.append_assoc]

theorem reads (e : Email) : record.Reads e.slots e :=
  (Reads.start Email.mk).required "value" .text e.value
    |>.optional "type" .text e.type
    |>.defaulted "primary" .boolean e.isPrimary false

theorem codec : Codec decode encode :=
  .record encode_eq reads (fun _ => by simp [slots]) "Email"

end Email

namespace Member

def slots (m : Member) : List (String × Option Json) :=
  [("value", some (.str m.value)), ("display", m.display.map .str), ("type", m.type.map .str)]

theorem encode_eq (m : Member) : m.encode = .obj (Json.present m.slots) := by
  simp only [encode, slots, Json.present_cons, Json.present, Encode.text, Encode.optional,
    List.append_assoc, List.append_nil]

theorem reads (m : Member) : record.Reads m.slots m :=
  (Reads.start Member.mk).required "value" .text m.value
    |>.optional "display" .text m.display
    |>.optional "type" .text m.type

theorem codec : Codec decode encode :=
  .record encode_eq reads (fun _ => by simp [slots]) "GroupMember"

end Member

namespace Metadata

def slots (m : Metadata) : List (String × Option Json) :=
  [("resourceType", m.resourceType.map .str), ("created", m.created.map Time.Instant.encode),
    ("lastModified", m.lastModified.map Time.Instant.encode), ("location", m.location.map .str),
    ("version", m.version.map .str)]

theorem encode_eq (m : Metadata) : m.encode = .obj (Json.present m.slots) := by
  simp only [encode, slots, Json.present_cons, Json.present, Encode.text, List.append_assoc,
    List.append_nil]

theorem reads (m : Metadata) : record.Reads m.slots m :=
  (Reads.start Metadata.mk).optional "resourceType" .text m.resourceType
    |>.optional "created" Time.Instant.codec m.created
    |>.optional "lastModified" Time.Instant.codec m.lastModified
    |>.optional "location" .text m.location
    |>.optional "version" .text m.version

theorem codec : Codec decode encode :=
  .record encode_eq reads (fun _ => by simp [slots]) "Meta"

end Metadata

namespace User

def slots (u : User) : List (String × Option Json) :=
  [("schemas", some (Encode.texts u.schemas)), ("id", u.id.map .str),
    ("externalId", u.externalId.map .str), ("userName", u.userName.map .str),
    ("displayName", u.displayName.map .str), ("name", u.name.map Name.encode),
    ("nickName", u.nickName.map .str), ("title", u.title.map .str),
    ("userType", u.userType.map .str), ("preferredLanguage", u.preferredLanguage.map .str),
    ("locale", u.locale.map .str), ("timezone", u.timezone.map .str),
    ("active", some (.bool u.active)),
    ("emails", if u.emails.isEmpty then none else some (.arr (u.emails.map Email.encode))),
    ("meta", some u.metadata.encode)]

theorem encode_eq (u : User) : u.encode = .obj (Json.present u.slots) := by
  simp only [encode, slots, Json.present_cons, Json.present, Encode.text, List.append_assoc]
  rfl

theorem reads (u : User) : record.Reads u.slots u :=
  (Reads.start User.mk).defaulted "schemas" Codec.text.list u.schemas [userSchema]
    |>.optional "id" .text u.id
    |>.optional "externalId" .text u.externalId
    |>.optional "userName" .text u.userName
    |>.optional "displayName" .text u.displayName
    |>.optional "name" Name.codec u.name
    |>.optional "nickName" .text u.nickName
    |>.optional "title" .text u.title
    |>.optional "userType" .text u.userType
    |>.optional "preferredLanguage" .text u.preferredLanguage
    |>.optional "locale" .text u.locale
    |>.optional "timezone" .text u.timezone
    |>.defaulted "active" .boolean u.active false
    |>.unlessEmpty "emails" Email.codec.list u.emails
    |>.defaulted "meta" Metadata.codec u.metadata .empty

theorem codec : Codec decode encode :=
  .record encode_eq reads (fun _ => by simp [slots]) "User"

end User

namespace Group

def slots (g : Group) : List (String × Option Json) :=
  [("schemas", some (Encode.texts g.schemas)), ("id", g.id.map .str),
    ("externalId", g.externalId.map .str), ("displayName", g.displayName.map .str),
    ("members", if g.members.isEmpty then none else some (.arr (g.members.map Member.encode))),
    ("meta", some g.metadata.encode)]

theorem encode_eq (g : Group) : g.encode = .obj (Json.present g.slots) := by
  simp only [encode, slots, Json.present_cons, Json.present, Encode.text, List.append_assoc]
  rfl

theorem reads (g : Group) : record.Reads g.slots g :=
  (Reads.start Group.mk).defaulted "schemas" Codec.text.list g.schemas [groupSchema]
    |>.optional "id" .text g.id
    |>.optional "externalId" .text g.externalId
    |>.optional "displayName" .text g.displayName
    |>.unlessEmpty "members" Member.codec.list g.members
    |>.defaulted "meta" Metadata.codec g.metadata .empty

theorem codec : Codec decode encode :=
  .record encode_eq reads (fun _ => by simp [slots]) "Group"

end Group

end Scim
