import Scim.Repository
import Scim.Resource

/-!
# Rehearsals

A repository that only plays its part: it reads from fixed resources, writes nothing, answers or
fails as its script says, and keeps a list of the calls that were made on it.
-/

namespace Scim.Rehearsal

/-- A call that was made, with what it was about. -/
inductive Call where
  | create (id naturalKey : Option String)
  | getById (id : String)
  | listAll
  | checkExists (id : Option String) (naturalKey : String)
  | updateById (id : String) (naturalKey : Option String)
  | deleteById (id : String)
  deriving DecidableEq, Repr

namespace Call

def name : Call → String
  | .create _ _ => "create"
  | .getById _ => "get_by_id"
  | .listAll => "list_all"
  | .checkExists _ _ => "check_exists"
  | .updateById _ _ => "update_by_id"
  | .deleteById _ => "delete_by_id"

end Call

/-- How a call fails: it never ends, or it is refused for a reason of some kind. -/
inductive Failure where
  | stall
  | refuse (kind : String)
  deriving DecidableEq, Repr

structure Script where
  /-- What is said of every natural key. -/
  naturalKeyExists : Bool
  /-- The failures, by the names of the calls. -/
  failures : List (String × Failure)
  /-- Whether refusals say what kind they are of. -/
  classified : Bool

/-- The fixed resources and the calls so far. -/
structure Stage (α : Type) where
  resources : List α
  calls : List Call

namespace Script

def refusal (script : Script) (kind : String) : Refusal :=
  if script.classified then
    ⟨s!"scripted failure: {kind}", kind == "unique", kind == "notFound"⟩
  else ⟨s!"plain failure: {kind}", false, false⟩

variable {α β : Type}

/-- Notes the call, and answers it unless it is to fail. -/
def play (script : Script) (call : Call) (answer : β) (s : Stage α) : Response (Stage α) β :=
  let reply := match script.failures.lookup call.name with
    | some .stall => .stalled
    | some (.refuse kind) => .refused (script.refusal kind)
    | none => .done answer
  ⟨reply, ⟨s.resources, s.calls ++ [call]⟩, []⟩

def repository [Resource α] (script : Script) : Repository (Stage α) α where
  create r s := script.play (.create (Resource.id r) (Resource.naturalKey r)) () s
  getById id s :=
    script.play (.getById id) (s.resources.find? fun r => Resource.id r == some id) s
  listAll s := script.play .listAll s.resources s
  checkExists id key s := script.play (.checkExists id key) script.naturalKeyExists s
  updateById id r s := script.play (.updateById id (Resource.naturalKey r)) () s
  deleteById id s := script.play (.deleteById id) () s

end Script

end Scim.Rehearsal
