import Scim.Log
import Scim.Patch.Group
import Scim.Patch.User

/-!
# Applying patches

The operations of a request are made one after the other, each on what the one before it left, and
the first that fails is the failure of the whole.
-/

namespace Scim

/-- Types of resources that patch operations can be made on. -/
class Patchable (α : Type) where
  /-- What one operation does to every resource of the type, or why it does nothing. -/
  edit : Patch.Operation → Except Fault (α → α)

instance : Patchable User where
  edit o := (Patch.UserEdit.ofOperation o).map Patch.UserEdit.apply

instance : Patchable Group where
  edit o := (Patch.GroupEdit.ofOperation o).map Patch.GroupEdit.apply

namespace Patch

variable {α : Type} [Patchable α]

def applyOperation (r : α) (o : Operation) : Except Fault α :=
  (Patchable.edit o).map fun f => f r

def applyOperations (r : α) : List Operation → Except Fault α
  | [] => .ok r
  | o :: rest => do applyOperations (← applyOperation r o) rest

def apply (r : α) (q : Request) : Except Fault α :=
  applyOperations r q.operations

/-- What is reported before an operation is made. -/
def announcement (o : Operation) : LogLine :=
  ⟨.trace, s!"Applying patch operation {o.op.word} '{o.path}'"⟩

/-- The announcements of a run: every operation up to the first that fails, that one included. -/
def announcements (α : Type) [Patchable α] : List Operation → List LogLine
  | [] => []
  | o :: rest =>
    announcement o ::
      match (Patchable.edit o : Except Fault (α → α)) with
      | .ok _ => announcements α rest
      | .error _ => []

end Patch

end Scim
