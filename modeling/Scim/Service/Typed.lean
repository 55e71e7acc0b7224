import Scim.EntityTag
import Scim.Service.Request
import Scim.Service.Run

/-!
# Services of one type

The six operations on the resources of one type, over any repository. A service assigns the ids,
stamps the metadata, and checks natural keys before the repository sees a new resource.
-/

namespace Scim

/-- Types of resources that a service can manage. -/
class Managed (α : Type) extends Resource α, Filterable α, Patchable α

instance : Managed User where

instance : Managed Group where

/-- What a repository call was about, by which its refusal is understood. -/
structure Subject where
  id : Option String
  naturalKey : Option String

namespace Subject

def none : Subject := ⟨.none, .none⟩

def ofId (id : String) : Subject := ⟨some id, .none⟩

end Subject

namespace Service

variable {σ α : Type} [Managed α]

/-- The fault of a natural key that is taken. -/
def conflict (α : Type) [Resource α] (key : String) : Fault :=
  .conflict (Resource.typeName α) (Resource.naturalKeyName α) key

def notFound (α : Type) [Resource α] (id : String) : Fault :=
  .resourceNotFound (Resource.typeName α) id

/-- The fault that a refusal means for the subject of the call, if it is one of the caller's. -/
def classify? (α : Type) [Resource α] (subject : Subject) (refusal : Refusal) : Option Fault :=
  match subject.naturalKey, subject.id with
  | some key, id =>
    if refusal.isUniqueness then some (conflict α key)
    else match id with
      | some id => if refusal.isNotFound then some (notFound α id) else none
      | none => none
  | none, some id => if refusal.isNotFound then some (notFound α id) else none
  | none, none => none

/-- One call to the repository. A call that never ends is given up at the limit; where there is no
limit to name, it is given up without a word. -/
def call (α : Type) [Resource α] {β : Type} (config : Config) (name : String) (subject : Subject)
    (action : σ → Response σ β) : Run σ β := do
  match ← Run.perform action with
  | .done b => return b
  | .refused refusal =>
    match classify? α subject refusal with
    | some fault => throw fault
    | none =>
      Run.report .warn
        s!"Repository operation '{name}' on {Resource.typeName α} failed: {refusal.reason}"
      throw (.persistence name refusal.reason)
  | .stalled =>
    match config.timeoutMs with
    | some ms =>
      Run.report .warn
        s!"Repository operation '{name}' on {Resource.typeName α} exceeded {durationText ms}"
      throw (.timeout name)
    | none => throw (.timeout name)

/-- A natural key has to be there and not blank. -/
def requireNaturalKey (r : α) : Except Fault String :=
  match Resource.naturalKey r with
  | some key =>
    if Text.isBlank key then
      .error (.validation (.missingRequiredAttribute (Resource.naturalKeyName α)))
    else .ok key
  | none => .error (.validation (.missingRequiredAttribute (Resource.naturalKeyName α)))

/-- Sets the location of a resource and, once all else is final, its version. -/
def finishMetadata (config : Config) (id : String) (r : α) : α :=
  let location := config.resourceLocation (Resource.kind α).endpoint id
  let placed := Resource.withMetadata r
    { Resource.metadata r with location := some location, version := none }
  Resource.withMetadata placed
    { Resource.metadata placed with version := some (EntityTag.ofResource placed) }

/-- The resource as it is first stored. -/
def stampNew (config : Config) (o : Occasion) (r : α) : α :=
  finishMetadata config o.freshId <|
    Resource.withMetadata (Resource.withId r o.freshId)
      (Metadata.forCreation (Resource.typeName α) o.now)

/-- The resource as it is stored over an existing one. -/
def stampChanged (config : Config) (o : Occasion) (id : String) (existing r : α) :
    Except Fault α :=
  match Metadata.forModification? (Resource.metadata existing) o.now with
  | some m => .ok (finishMetadata config id (Resource.withMetadata r m))
  | none => .error .endOfTime

/-- Refuses a schema that names the other type. A schema that names none is let through. -/
def checkSchema (α : Type) [Resource α] (schemaIdentifier : String) : Except Fault Unit :=
  match Kind.ofIdentifier? schemaIdentifier with
  | some kind =>
    if kind = Resource.kind α then .ok ()
    else .error (.validation (.resourceTypeMismatch (Resource.typeName α) kind.name))
  | none => .ok ()

/-- The id of an addressed resource of this type. -/
def resolve (α : Type) [Resource α] (address : Address) : Except Fault String := do
  checkSchema α address.schemaIdentifier
  Fault.ofValidated address.id?

/-- The stored resource of an id. -/
def load (repo : Repository σ α) (config : Config) (id : String) : Run σ α := do
  match ← call α config "get_by_id" (Subject.ofId id) (repo.getById id) with
  | some r => return r
  | none =>
    Run.report .debug s!"{Resource.typeName α} '{id}' not found"
    throw (notFound α id)

/-- Stores a new resource, which has a natural key and no id yet. Answers what was stored. -/
def create (repo : Repository σ α) (config : Config) (o : Occasion) (r : α) : Run σ α := do
  Run.report .info s!"Creating {Resource.typeName α} resource (request: '{o.requestId}')"
  Run.report .trace ("Create data: " ++ Resource.text r)
  if (Resource.id r).isSome then
    Run.report .warn
      s!"Rejecting {Resource.typeName α} create with client-provided id (request: '{o.requestId}')"
    throw (.validation .clientProvidedId)
  let key ← Run.ofExcept (requireNaturalKey r)
  let taken ← call α config "check_exists" Subject.none (repo.checkExists none key)
  if taken then
    Run.report .warn <|
      s!"{Resource.typeName α} with {Resource.naturalKeyName α} '{key}' already exists " ++
        s!"(request: '{o.requestId}')"
    throw (conflict α key)
  let stored := stampNew config o r
  call α config "create" ⟨some o.freshId, some key⟩ (repo.create stored)
  Run.report .debug
    s!"Created {Resource.typeName α} '{o.freshId}' (request: '{o.requestId}')"
  return stored

def retrieve (repo : Repository σ α) (config : Config) (o : Occasion) (address : Address) :
    Run σ α := do
  Run.ofValidated (validateRequestId o.requestId)
  let id ← Run.ofExcept (resolve α address)
  Run.report .debug
    s!"Getting {Resource.typeName α} resource with ID '{id}' (request: '{o.requestId}')"
  load repo config id

/-- The id under which a resource asks to be kept, without the white space around it. -/
def ownId (r : α) : Except Fault String :=
  match Resource.id r with
  | some id => if Text.isBlank id then .error (.validation .missingId) else .ok (Text.trim id)
  | none => .error (.validation .missingId)

/-- Puts a resource in place of the stored one of its id. The time of creation stays, and the time
of modification moves forward. Answers what was stored. -/
def replace (repo : Repository σ α) (config : Config) (o : Occasion) (r : α) : Run σ α := do
  let id ← Run.ofExcept (ownId r)
  Run.report .info
    s!"Replacing {Resource.typeName α} resource with ID '{id}' (request: '{o.requestId}')"
  Run.report .trace ("Replace data: " ++ Resource.text r)
  let key ← Run.ofExcept (requireNaturalKey r)
  let existing ← load repo config id
  let stored ← Run.ofExcept (stampChanged config o id existing (Resource.withId r id))
  call α config "update_by_id" ⟨some id, some key⟩ (repo.updateById id stored)
  return stored

/-- Patches a stored resource. Nothing is written unless every operation succeeds. Answers what was
stored. -/
def update (repo : Repository σ α) (config : Config) (o : Occasion) (m : PatchMessage) :
    Run σ α := do
  let address ← Run.ofValidated m.target
  let id ← Run.ofExcept (resolve α address)
  let request ← Run.ofExcept m.request
  Run.report .info <|
    s!"Patching {Resource.typeName α} resource with ID '{id}' (" ++
      countText request.operations.length ++ s!" operation(s), request: '{o.requestId}')"
  let existing ← load repo config id
  Run.reportAll (Patch.announcements α request.operations)
  let patched ← Run.ofExcept (Patch.apply existing request)
  let key ← Run.ofExcept (requireNaturalKey patched)
  let stored ← Run.ofExcept (stampChanged config o id existing patched)
  call α config "update_by_id" ⟨some id, some key⟩ (repo.updateById id stored)
  return stored

/-- Removes a resource. One that is not stored is removed without a fault. -/
def delete (repo : Repository σ α) (config : Config) (o : Occasion) (address : Address) :
    Run σ Unit := do
  let id ← Run.ofExcept (resolve α address)
  Run.report .info
    s!"Deleting {Resource.typeName α} resource with ID '{id}' (request: '{o.requestId}')"
  call α config "delete_by_id" (Subject.ofId id) (repo.deleteById id)

/-- The stored resources that satisfy a query, in the order of the repository. -/
def query (repo : Repository σ α) (config : Config) (o : Occasion) (q : Query) :
    Run σ (List α) := do
  Run.ofValidated (validateRequestId o.requestId)
  Run.ofExcept q.validate
  Run.ofExcept (checkSchema α q.schemaIdentifier)
  Run.report .info <|
    s!"Querying {Resource.typeName α} resources with " ++ countText q.filters.length ++
      s!" filter alternative(s) (request: '{o.requestId}')"
  let all ← call α config "list_all" Subject.none repo.listAll
  let results ← Run.ofExcept (q.select all)
  Run.reportAll (q.report all results)
  return results

/-- Meets a request with the operation for it. -/
def handle (repo : Repository σ α) (config : Config) (o : Occasion) :
    Request α → Run σ (Answer α)
  | .create r => return .resource (← create repo config o r)
  | .retrieve address => return .resource (← retrieve repo config o address)
  | .replace r => return .resource (← replace repo config o r)
  | .update m => return .resource (← update repo config o m)
  | .delete address => do
    delete repo config o address
    return .nothing
  | .query q => return .resources (← query repo config o q)

end Service

end Scim
