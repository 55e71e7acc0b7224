import Scim.Patch.Apply
import Scim.Query
import Scim.Resource

/-!
# Requests

What a caller can ask of a service: the address of a resource, a patch for one, and the six kinds of
requests, over the resources of one type or over both.
-/

namespace Scim

/-- The address of one resource by a schema or the name of a kind, and an id. -/
structure Address where
  schemaIdentifier : String
  identifier : String
  deriving DecidableEq, Repr

namespace Address

def ofKind (kind : Kind) (identifier : String) : Address :=
  ⟨kind.schema, identifier⟩

/-- The id without the white space around it. -/
def id? (a : Address) : Except Invalid String :=
  if Text.isBlank a.identifier then .error .missingId else .ok (Text.trim a.identifier)

def record : Record Address :=
  Record.start Address.mk
    |>.required "schemaIdentifier" Decode.text
    |>.required "identifier" Decode.text

def decode : Json → Decoded Address :=
  record.decode "ResourceIdentifier"

def encode (a : Address) : Json :=
  .obj [("schemaIdentifier", .str a.schemaIdentifier), ("identifier", .str a.identifier)]

end Address

/-- The parameters of a request to retrieve. -/
structure Retrieval where
  address : Address
  deriving DecidableEq, Repr

namespace Retrieval

def record : Record Retrieval :=
  Record.start Retrieval.mk |>.required "resourceIdentifier" Address.decode

def decode : Json → Decoded Retrieval :=
  record.decode "RetrievalParameters"

def encode (r : Retrieval) : Json :=
  .obj [("resourceIdentifier", r.address.encode)]

end Retrieval

/-- A patch on its way to one resource. Either half may be missing, which is reported when it is
asked for. -/
structure PatchMessage where
  address : Option Address
  payload : Option Patch.Payload

namespace PatchMessage

/-- The addressed resource; its id has to be there. -/
def target (m : PatchMessage) : Except Invalid Address :=
  match m.address with
  | none => .error .missingPatchTarget
  | some a => a.id?.map fun _ => a

/-- The operations, if the payload was recognised. -/
def request (m : PatchMessage) : Except Fault Patch.Request :=
  match m.payload with
  | none => .error (.validation .missingPatchPayload)
  | some (.operations q) => .ok q
  | some (.unrecognized schemas) => .error (.unsupportedPatchPayload schemas)

end PatchMessage

/-- A request about resources of type `α`. -/
inductive Request (α : Type) where
  | create (resource : α)
  | retrieve (address : Address)
  | replace (resource : α)
  | update (patch : PatchMessage)
  | delete (address : Address)
  | query (query : Query)

/-- The answer to a request that succeeded. -/
inductive Answer (α : Type) where
  | resource (r : α)
  | resources (rs : List α)
  | nothing

namespace Answer

def map {α β : Type} (f : α → β) : Answer α → Answer β
  | .resource r => .resource (f r)
  | .resources rs => .resources (rs.map f)
  | .nothing => .nothing

end Answer

/-- What a request is met with from outside: the identifier by which its log lines are known, the id
for a resource that it may create, and the reading of the clock. -/
structure Occasion where
  requestId : String
  freshId : String
  now : Time.Instant

/-- A request has to say by what identifier it is known. -/
def validateRequestId (requestId : String) : Except Invalid Unit :=
  if Text.isBlank requestId then .error .missingCorrelationIdentifier else .ok ()

end Scim
