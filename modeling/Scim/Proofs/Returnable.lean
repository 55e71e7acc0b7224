import Scim.Proofs.Asked
import Scim.Proofs.JsonEntry
import Scim.Proofs.KeptStores

/-!
# Records that can be returned

What a stored record needs so that a caller who has read it can send it back: its schemas tell its
kind, it has a natural key, and it is placed under an id that is not changed by trimming. All
records are like that where the resources that were stored had been read from JSON. Replacements
bring their own schemas, and patches leave them as they are.
-/

namespace Scim

/-- Types of resources that declare their schemas. Only a whole new resource brings others. -/
class Declared (α : Type) [Managed α] where
  schemas : α → List String
  schemas_withId (r : α) (id : String) : schemas (Resource.withId r id) = schemas r
  schemas_withMetadata (r : α) (m : Metadata) : schemas (Resource.withMetadata r m) = schemas r
  schemas_edit {o : Patch.Operation} {f : α → α} (h : Patchable.edit o = .ok f) (r : α) :
    schemas (f r) = schemas r

namespace Patch

theorem UserEdit.schemas_apply (e : UserEdit) (u : User) : (e.apply u).schemas = u.schemas := by
  cases e with
  | setText field value => cases field <;> rfl
  | _ => rfl

theorem GroupEdit.schemas_apply (e : GroupEdit) (g : Group) : (e.apply g).schemas = g.schemas := by
  cases e with
  | dropMembers values =>
    rw [apply, foldl_removeMember]
  | _ => rfl

end Patch

instance : Declared User where
  schemas := User.schemas
  schemas_withId _ _ := rfl
  schemas_withMetadata _ _ := rfl
  schemas_edit h u := by
    obtain ⟨e, -, rfl⟩ := Fallible.map_ok_iff.mp h
    exact Patch.UserEdit.schemas_apply e u

instance : Declared Group where
  schemas := Group.schemas
  schemas_withId _ _ := rfl
  schemas_withMetadata _ _ := rfl
  schemas_edit h g := by
    obtain ⟨e, -, rfl⟩ := Fallible.map_ok_iff.mp h
    exact Patch.GroupEdit.schemas_apply e g

variable {α : Type} [Managed α] [Declared α]

namespace Service

variable [LawfulManaged α]

variable {config : Config} {o : Occasion} {s t : Store α}

end Service

namespace Directory

variable {side : Side α} [LawfulManaged α]

end Directory

end Scim
