import Scim.Service.Typed
import Scim.Store

/-!
# Directories

A directory joins a service of users and a service of groups. It sends each request to one of the
two, by the variant of the resource or by the schema that the request names, and either service can
also be asked directly.
-/

namespace Scim

/-- Something for the users and something for the groups. -/
structure Both (σ τ : Type) where
  users : σ
  groups : τ

abbrev Repositories (σ τ : Type) := Both (Repository σ User) (Repository τ Group)

namespace Directory

variable {σ τ β : Type}

def onUsers (run : Run σ β) : Run (Both σ τ) β :=
  run.onPart Both.users fun both users => ⟨users, both.groups⟩

def onGroups (run : Run τ β) : Run (Both σ τ) β :=
  run.onPart Both.groups fun both groups => ⟨both.users, groups⟩

/-- The kind that a request means by its schema. -/
def route (schemaIdentifier : String) : Except Fault Kind :=
  match Kind.ofIdentifier? schemaIdentifier with
  | some kind => .ok kind
  | none => .error (.unsupportedResourceType schemaIdentifier)

/-- Meets a request for users. -/
def handleUser (repos : Repositories σ τ) (config : Config) (o : Occasion) (q : Request User) :
    Run (Both σ τ) (Answer User) :=
  onUsers (Service.handle repos.users config o q)

/-- Meets a request for groups. -/
def handleGroup (repos : Repositories σ τ) (config : Config) (o : Occasion) (q : Request Group) :
    Run (Both σ τ) (Answer Group) :=
  onGroups (Service.handle repos.groups config o q)

/-- Gives a request that both services understand to the one of a kind. -/
def dispatch (repos : Repositories σ τ) (config : Config) (o : Occasion) (kind : Kind)
    (user : Request User) (group : Request Group) : Run (Both σ τ) (Answer AnyResource) :=
  match kind with
  | .user => do return (← handleUser repos config o user).map .user
  | .group => do return (← handleGroup repos config o group).map .group

/-- Meets a request whose type is yet to be found. A patch is answered with nothing. -/
def handle (repos : Repositories σ τ) (config : Config) (o : Occasion) :
    Request AnyResource → Run (Both σ τ) (Answer AnyResource)
  | .create (.user u) => do return (← handleUser repos config o (.create u)).map .user
  | .create (.group g) => do return (← handleGroup repos config o (.create g)).map .group
  | .replace (.user u) => do return (← handleUser repos config o (.replace u)).map .user
  | .replace (.group g) => do return (← handleGroup repos config o (.replace g)).map .group
  | .retrieve address => do
    let kind ← Run.ofExcept (route address.schemaIdentifier)
    dispatch repos config o kind (.retrieve address) (.retrieve address)
  | .update m => do
    let address ← Run.ofValidated m.target
    let kind ← Run.ofExcept (route address.schemaIdentifier)
    let _ ← dispatch repos config o kind (.update m) (.update m)
    return .nothing
  | .delete address => do
    let kind ← Run.ofExcept (route address.schemaIdentifier)
    dispatch repos config o kind (.delete address) (.delete address)
  | .query q => do
    Run.ofValidated (validateRequestId o.requestId)
    Run.ofExcept q.validate
    let kind ← Run.ofExcept (route q.schemaIdentifier)
    dispatch repos config o kind (.query q) (.query q)

end Directory

/-- A request on one of the three ways into a directory. -/
inductive DirectoryRequest where
  | routed (q : Request AnyResource)
  | users (q : Request User)
  | groups (q : Request Group)

namespace Directory

variable {σ τ : Type}

/-- Meets a request on its way. -/
def meet (repos : Repositories σ τ) (config : Config) (o : Occasion) :
    DirectoryRequest → Run (Both σ τ) (Answer AnyResource)
  | .routed q => handle repos config o q
  | .users q => do return (← handleUser repos config o q).map .user
  | .groups q => do return (← handleGroup repos config o q).map .group

/-- The two stores of a directory that keeps everything itself. -/
abbrev Stores := Both (Store User) (Store Group)

end Directory

end Scim
