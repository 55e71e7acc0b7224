import Scim.Proofs.Fallible
import Scim.Service.Directory

/-!
# What a request is about

The verb of a request, the kind of resources it is meant for, and the id of the one resource it is
about, as they can be read off the request itself. An id that is looked for is taken without the
white space around it; a creation is about the id that is generated for it. A query is about no
resource in particular.
-/

namespace Scim

open Fallible

inductive Verb where
  | create
  | retrieve
  | replace
  | update
  | delete
  | query
  deriving DecidableEq, Repr

namespace Verb

/-- Whether a request of the verb may write. -/
def isWrite : Verb → Bool
  | .retrieve => false
  | .query => false
  | _ => true

/-- Whether a request of the verb stores a resource. -/
def isStoring : Verb → Bool
  | .create => true
  | .replace => true
  | .update => true
  | _ => false

/-- Whether a request of the verb puts a resource in place of a stored one. -/
def isOverwrite : Verb → Bool
  | .replace => true
  | .update => true
  | _ => false

def isRemoval : Verb → Bool
  | .delete => true
  | _ => false

theorem isOverwrite_of_read {verb : Verb} (reads : verb.isWrite = false) :
    verb.isOverwrite = false := by
  cases verb with
  | retrieve => rfl
  | query => rfl
  | _ => cases reads

theorem isStoring_of_read {verb : Verb} (reads : verb.isWrite = false) :
    verb.isStoring = false := by
  cases verb with
  | retrieve => rfl
  | query => rfl
  | _ => cases reads

theorem isWrite_of_isOverwrite {verb : Verb} (overwrites : verb.isOverwrite = true) :
    verb.isWrite = true := by
  cases verb with
  | replace => rfl
  | update => rfl
  | _ => cases overwrites

end Verb

/-- An id without the white space around it, if there is more to it. -/
def givenId? (id : String) : Option String :=
  if Text.isBlank id then none else some (Text.trim id)

namespace Request

variable {α : Type}

def verb : Request α → Verb
  | .create _ => .create
  | .retrieve _ => .retrieve
  | .replace _ => .replace
  | .update _ => .update
  | .delete _ => .delete
  | .query _ => .query

/-- The id of the one resource that a request is about. -/
def subject? (idOf : α → Option String) (o : Occasion) : Request α → Option String
  | .create _ => some o.freshId
  | .retrieve address => givenId? address.identifier
  | .replace r => (idOf r).bind givenId?
  | .update m => m.address.bind fun address => givenId? address.identifier
  | .delete address => givenId? address.identifier
  | .query _ => none

/-- The resource that a request brings along. -/
def resource? : Request α → Option α
  | .create r => some r
  | .replace r => some r
  | _ => none

/-- The operations that a request asks to be made on a stored resource. -/
def operations : Request α → List Patch.Operation
  | .update m =>
    match m.payload with
    | some (.operations request) => request.operations
    | _ => []
  | _ => []

/-- The same request with another form of its resource. -/
def map {β : Type} (f : α → β) : Request α → Request β
  | .create r => .create (f r)
  | .retrieve address => .retrieve address
  | .replace r => .replace (f r)
  | .update m => .update m
  | .delete address => .delete address
  | .query q => .query q

theorem resource?_map {β : Type} (f : α → β) (q : Request α) :
    (q.map f).resource? = q.resource?.map f := by
  cases q <;> rfl

theorem operations_map {β : Type} (f : α → β) (q : Request α) :
    (q.map f).operations = q.operations := by
  cases q <;> rfl

/-- The kind of resources that a request means by its variant or its schema. -/
def kind? : Request AnyResource → Option Kind
  | .create r => some r.kind
  | .retrieve address => Kind.ofIdentifier? address.schemaIdentifier
  | .replace r => some r.kind
  | .update m => m.address.bind fun address => Kind.ofIdentifier? address.schemaIdentifier
  | .delete address => Kind.ofIdentifier? address.schemaIdentifier
  | .query q => Kind.ofIdentifier? q.schemaIdentifier

end Request

namespace DirectoryRequest

def verb : DirectoryRequest → Verb
  | .routed q => q.verb
  | .users q => q.verb
  | .groups q => q.verb

/-- The kind of resources that a request is meant for. -/
def kind? : DirectoryRequest → Option Kind
  | .routed q => q.kind?
  | .users _ => some .user
  | .groups _ => some .group

def subject? (o : Occasion) : DirectoryRequest → Option String
  | .routed q => q.subject? AnyResource.id o
  | .users q => q.subject? User.id o
  | .groups q => q.subject? Group.id o

/-- The resource that a request brings along. -/
def resource? : DirectoryRequest → Option AnyResource
  | .routed q => q.resource?
  | .users q => q.resource?.map .user
  | .groups q => q.resource?.map .group

/-- The request without the way that it takes. -/
def request : DirectoryRequest → Request AnyResource
  | .routed q => q
  | .users q => q.map .user
  | .groups q => q.map .group

theorem resource?_request (q : DirectoryRequest) : q.request.resource? = q.resource? := by
  cases q with
  | routed q => rfl
  | users q => exact Request.resource?_map _ q
  | groups q => exact Request.resource?_map _ q

end DirectoryRequest

/-! ## Ids that are found -/

theorem Address.id?_ok_iff {a : Address} {id : String} :
    a.id? = .ok id ↔ givenId? a.identifier = some id := by
  rw [id?, givenId?]
  by_cases hb : Text.isBlank a.identifier = true
  · rw [if_pos hb, if_pos hb]
    exact ⟨fun h => (by cases h), fun h => (by cases h)⟩
  · rw [if_neg hb, if_neg hb]
    exact ⟨fun h => congrArg some (Except.ok.inj h), fun h => congrArg Except.ok (Option.some.inj h)⟩

theorem PatchMessage.address_of_target {m : PatchMessage} {a : Address} (h : m.target = .ok a) :
    m.address = some a := by
  rw [target] at h
  cases hm : m.address with
  | none =>
    rw [hm] at h
    cases h
  | some b =>
    rw [hm] at h
    obtain ⟨-, -, heq⟩ := map_ok_iff.mp h
    rw [heq]

/-- A patch is for the resource of its address, if that has an id. -/
theorem PatchMessage.target_of_givenId? {m : PatchMessage} {a : Address} {id : String}
    (address : m.address = some a) (given : givenId? a.identifier = some id) : m.target = .ok a := by
  rw [target, address]
  exact map_ok_iff.mpr ⟨id, Address.id?_ok_iff.mpr given, rfl⟩

theorem PatchMessage.payload_of_request {m : PatchMessage} {request : Patch.Request}
    (h : m.request = .ok request) : m.payload = some (.operations request) := by
  rw [PatchMessage.request] at h
  cases hm : m.payload with
  | none =>
    rw [hm] at h
    cases h
  | some payload =>
    rw [hm] at h
    cases payload with
    | operations request => cases h; rfl
    | unrecognized schemas => cases h

namespace Service

variable {α : Type} [Managed α]

theorem resolve_ok_iff {a : Address} {id : String} :
    resolve α a = .ok id ↔
      checkSchema α a.schemaIdentifier = .ok () ∧ givenId? a.identifier = some id := by
  rw [resolve, bind_ok_iff]
  constructor
  · rintro ⟨⟨⟩, schema, h⟩
    exact ⟨schema, Address.id?_ok_iff.mp (ofValidated_ok_iff.mp h)⟩
  · rintro ⟨schema, given⟩
    exact ⟨(), schema, ofValidated_ok_iff.mpr (Address.id?_ok_iff.mpr given)⟩

theorem givenId?_of_resolve {a : Address} {id : String} (h : resolve α a = .ok id) :
    givenId? a.identifier = some id :=
  (resolve_ok_iff.mp h).2

theorem ownId_ok_iff {r : α} {id : String} :
    ownId r = .ok id ↔ (Resource.id r).bind givenId? = some id := by
  rw [ownId]
  cases Resource.id r with
  | none => exact ⟨fun h => (by cases h), fun h => (by cases h)⟩
  | some given =>
    simp only [Option.bind_some, givenId?]
    by_cases hb : Text.isBlank given = true
    · rw [if_pos hb, if_pos hb]
      exact ⟨fun h => (by cases h), fun h => (by cases h)⟩
    · rw [if_neg hb, if_neg hb]
      exact ⟨fun h => congrArg some (Except.ok.inj h),
        fun h => congrArg Except.ok (Option.some.inj h)⟩

end Service

end Scim
