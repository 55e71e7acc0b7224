import Scim.Proofs.Fallible
import Scim.Service.Typed

/-!
# Laws of resources

What writing one part of a resource does to its other parts. Services rely on no more than this, so
whatever is shown of a service of lawful resources holds for users and for groups.
-/

namespace Scim

class LawfulResource (α : Type) [Resource α] : Prop where
  id_withId (r : α) (id : String) : Resource.id (Resource.withId r id) = some id
  naturalKey_withId (r : α) (id : String) :
    Resource.naturalKey (Resource.withId r id) = Resource.naturalKey r
  id_withMetadata (r : α) (m : Metadata) :
    Resource.id (Resource.withMetadata r m) = Resource.id r
  naturalKey_withMetadata (r : α) (m : Metadata) :
    Resource.naturalKey (Resource.withMetadata r m) = Resource.naturalKey r
  metadata_withMetadata (r : α) (m : Metadata) :
    Resource.metadata (Resource.withMetadata r m) = m

attribute [simp] LawfulResource.id_withId LawfulResource.naturalKey_withId
  LawfulResource.id_withMetadata LawfulResource.naturalKey_withMetadata
  LawfulResource.metadata_withMetadata

instance : LawfulResource User :=
  ⟨fun _ _ => rfl, fun _ _ => rfl, fun _ _ => rfl, fun _ _ => rfl, fun _ _ => rfl⟩

instance : LawfulResource Group :=
  ⟨fun _ _ => rfl, fun _ _ => rfl, fun _ _ => rfl, fun _ _ => rfl, fun _ _ => rfl⟩

/-- Resources for which to write a part as it was is to write nothing. -/
class Rewritable (α : Type) [Resource α] : Prop where
  withId_self {r : α} {id : String} (h : Resource.id r = some id) : Resource.withId r id = r
  withMetadata_withMetadata (r : α) (m m' : Metadata) :
    Resource.withMetadata (Resource.withMetadata r m) m' = Resource.withMetadata r m'

instance : Rewritable User where
  withId_self {u id} h := by
    change { u with id := some id } = u
    rw [← h]
    rfl
  withMetadata_withMetadata _ _ _ := rfl

instance : Rewritable Group where
  withId_self {g id} h := by
    change { g with id := some id } = g
    rw [← h]
    rfl
  withMetadata_withMetadata _ _ _ := rfl

/-- Resources whose id no patch operation touches. -/
class LawfulManaged (α : Type) [Managed α] : Prop extends LawfulResource α where
  id_edit {o : Patch.Operation} {f : α → α} (h : Patchable.edit o = .ok f) (r : α) :
    Resource.id (f r) = Resource.id r

namespace Patch

theorem UserEdit.id_apply (e : UserEdit) (u : User) : (e.apply u).id = u.id := by
  cases e with
  | setText field value => cases field <;> rfl
  | _ => rfl

/-- To drop members value by value is to drop them in one pass. -/
theorem GroupEdit.foldl_removeMember (values : List String) (g : Group) :
    values.foldl Group.removeMember g =
      { g with members := g.members.filter fun m => !values.contains m.value } := by
  induction values generalizing g with
  | nil =>
    have hall : (g.members.filter fun m => !([] : List String).contains m.value) = g.members :=
      List.filter_eq_self.mpr fun _ _ => rfl
    rw [hall]
    rfl
  | cons v rest ih =>
    rw [List.foldl_cons, ih, Group.removeMember, List.filter_filter]
    simp only [List.contains_cons, Bool.not_or, bne, Bool.and_comm]

theorem GroupEdit.id_apply (e : GroupEdit) (g : Group) : (e.apply g).id = g.id := by
  cases e with
  | dropMembers values =>
    rw [apply, foldl_removeMember]
  | _ => rfl

end Patch

instance : LawfulManaged User where
  id_edit h u := by
    obtain ⟨e, -, rfl⟩ := Fallible.map_ok_iff.mp h
    exact Patch.UserEdit.id_apply e u

instance : LawfulManaged Group where
  id_edit h g := by
    obtain ⟨e, -, rfl⟩ := Fallible.map_ok_iff.mp h
    exact Patch.GroupEdit.id_apply e g

namespace Patch

/-- What no edit of a patch breaks, a patch that succeeds does not break, by induction on its
operations. -/
theorem applyOperations_preserves {α : Type} [Patchable α] {P : α → Prop} {r p : α}
    {os : List Operation}
    (edits : ∀ o ∈ os, ∀ f : α → α, Patchable.edit o = .ok f → ∀ r, P r → P (f r))
    (h : applyOperations r os = .ok p) (hr : P r) : P p := by
  induction os generalizing r with
  | nil => cases h; exact hr
  | cons o rest ih =>
    have hrest := fun o' ho' => edits o' (List.mem_cons_of_mem o ho')
    obtain ⟨r', hr', h⟩ := Fallible.bind_ok_iff.mp h
    obtain ⟨f, hf, rfl⟩ := Fallible.map_ok_iff.mp hr'
    exact ih hrest h (edits o List.mem_cons_self f hf r hr)

/-- What every edit leaves as it was, a patch that succeeds does too. -/
theorem applyOperations_keeps {α β : Type} [Patchable α] {view : α → β}
    (keeps : ∀ {o : Operation} {f : α → α}, Patchable.edit o = .ok f → ∀ r, view (f r) = view r)
    {r p : α} {os : List Operation} (h : applyOperations r os = .ok p) : view p = view r := by
  have edits : ∀ o ∈ os, ∀ f : α → α, Patchable.edit o = .ok f →
      ∀ x, view x = view r → view (f x) = view r := fun o _ f hf x hx => (keeps hf x).trans hx
  exact applyOperations_preserves (P := fun x => view x = view r) edits h rfl

theorem id_applyOperations {α : Type} [Managed α] [LawfulManaged α] {r p : α}
    {os : List Operation} (h : applyOperations r os = .ok p) : Resource.id p = Resource.id r :=
  applyOperations_keeps LawfulManaged.id_edit h

end Patch

end Scim
