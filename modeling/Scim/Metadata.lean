import Scim.Json.Decoding
import Scim.Time.Spelling
import Scim.Time.Written

/-!
# Metadata

What the service keeps about a resource: its type, when it was created and last changed, where it
is found and which version it is at. A resource that a caller sends may carry metadata too, of
which nothing is kept.
-/

namespace Scim

open Time (Instant)

namespace Time.Instant

def decode : Json → Decoded Instant
  | .str s =>
    match ofStamp? s with
    | .ok t => .ok t
    | .error e => .error (.refused e.message)
  | v => .error (.wrongType v.found "an RFC 3339 formatted date and time string")

def encode (t : Instant) : Json :=
  .str t.text

end Time.Instant

structure Metadata where
  resourceType : Option String
  created : Option Instant
  lastModified : Option Instant
  location : Option String
  version : Option String
  deriving DecidableEq, Repr

namespace Metadata

def empty : Metadata := ⟨none, none, none, none, none⟩

def record : Record Metadata :=
  Record.start Metadata.mk
    |>.optional "resourceType" Decode.text
    |>.optional "created" Instant.decode
    |>.optional "lastModified" Instant.decode
    |>.optional "location" Decode.text
    |>.optional "version" Decode.text

def decode : Json → Decoded Metadata :=
  record.decode "Meta"

def encode (m : Metadata) : Json :=
  .obj <|
    Encode.text "resourceType" m.resourceType ++
    Encode.optional "created" (m.created.map Instant.encode) ++
    Encode.optional "lastModified" (m.lastModified.map Instant.encode) ++
    Encode.text "location" m.location ++
    Encode.text "version" m.version

def forCreation (resourceType : String) (now : Instant) : Metadata :=
  ⟨some resourceType, some now, some now, none, none⟩

/-- The metadata after a change at `now`: the time of the change lies after the stored one, and the
version is yet to be found. There is none where no later instant exists. -/
def forModification? (stored : Metadata) (now : Instant) : Option Metadata :=
  (Instant.after? stored.lastModified now).map fun t =>
    ⟨stored.resourceType, stored.created, some t, stored.location, none⟩

/-- One line for messages. -/
def display (m : Metadata) : String :=
  let stamp (t : Option Instant) := (t.map Instant.offsetText).getD ""
  "Meta(resourceType=" ++ m.resourceType.getD "" ++ ", created=" ++ stamp m.created ++
    ", lastModified=" ++ stamp m.lastModified ++ ")"

end Metadata

/-- The address of a resource below a base address. -/
def locationOf (base endpoint id : String) : String :=
  Text.trimEndOf '/' base ++ "/" ++ endpoint ++ "/" ++ id

end Scim
