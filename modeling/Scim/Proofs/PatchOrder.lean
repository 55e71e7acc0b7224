import Scim.Proofs.PatchFrame
import Scim.Proofs.PatchVerdict

/-!
# The order of operations

Two operations of a patch can change places when their paths name different attributes. What an edit
makes of an attribute depends on this attribute alone, so that it does not matter what was done to the
others before. The parts of a name are the exception: they stand in one object, which is dropped with
its last part, and yet they can be written in any order, for the object is built again from what is
left of it.
-/

namespace Scim

open Fallible

/-! ## Attributes in common -/

/-- Types of resources in which some attributes are made of others. -/
class Composed (α : Type) [Attributed α] where
  /-- The attribute is not made of others. -/
  Simple : Attributed.Attribute α → Prop

instance : Composed User where
  Simple
    | .name => False
    | _ => True

instance : Composed Group where
  Simple _ := True

/-- Some attribute that is not made of others is named by both paths. -/
def Overlap (α : Type) [Attributed α] [Composed α] (path path' : String) : Prop :=
  ∃ a : Attributed.Attribute α, Composed.Simple a ∧ Attributed.Names path a ∧
    Attributed.Names path' a

theorem Overlap.symm {α : Type} [Attributed α] [Composed α] {path path' : String}
    (h : Overlap α path path') : Overlap α path' path := by
  obtain ⟨a, simple, hpath, hpath'⟩ := h
  exact ⟨a, simple, hpath', hpath⟩

namespace Patch

theorem UserTarget.names_iff {path : String} {t : UserTarget}
    (spelled : Text.sameLetters path t.spelling = true) {a : UserAttribute} :
    Attributed.Names (α := User) path a ↔ t.Covers a := by
  constructor
  · rintro ⟨t', spelled', covers⟩
    cases (ofPath?_eq_some_iff.mpr spelled).symm.trans (ofPath?_eq_some_iff.mpr spelled')
    exact covers
  · exact fun covers => ⟨t, spelled, covers⟩

theorem GroupTarget.names_iff {path : String} {t : GroupTarget}
    (spelled : t.IsSpelled (Text.trim path)) {a : GroupAttribute} :
    Attributed.Names (α := Group) path a ↔ t.named = a := by
  constructor
  · rintro ⟨t', spelled', named⟩
    cases (ofPath?_eq_some_iff.mpr spelled).symm.trans (ofPath?_eq_some_iff.mpr spelled')
    exact named
  · exact fun named => ⟨t, spelled, named⟩

/-- The targets are the same, or one is the name and the other a part of it. -/
def UserTarget.Meets (t t' : UserTarget) : Prop :=
  t = t' ∨ (t = .name ∧ ∃ part, t' = .namePart part) ∨ (t' = .name ∧ ∃ part, t = .namePart part)

/-- What two targets have in common is simple, except that all parts of the name have the name. -/
theorem UserTarget.Covers.meets_or {t t' : UserTarget} {a : UserAttribute} (h : t.Covers a)
    (h' : t'.Covers a) :
    t.Meets t' ∨ (a = .name ∧ ∃ part other, t = .namePart part ∧ t' = .namePart other) := by
  cases h with
  | text field => cases h'; exact .inl (.inl rfl)
  | active => cases h'; exact .inl (.inl rfl)
  | emails => cases h'; exact .inl (.inl rfl)
  | name =>
    cases h' with
    | name => exact .inl (.inl rfl)
    | nameOfPart other => exact .inl (.inr (.inl ⟨rfl, other, rfl⟩))
  | nameOfPart part =>
    cases h' with
    | name => exact .inl (.inr (.inr ⟨rfl, part, rfl⟩))
    | nameOfPart other => exact .inr ⟨rfl, part, other, rfl, rfl⟩
  | partOfName part =>
    cases h' with
    | partOfName => exact .inl (.inl rfl)
    | namePart => exact .inl (.inr (.inl ⟨rfl, part, rfl⟩))
  | namePart part =>
    cases h' with
    | partOfName => exact .inl (.inr (.inr ⟨rfl, part, rfl⟩))
    | namePart => exact .inl (.inl rfl)

/-- Paths for users overlap if they name the same, or one names the name and the other a part of it. -/
theorem UserTarget.overlap_iff {path path' : String} {t t' : UserTarget}
    (spelled : Text.sameLetters path t.spelling = true)
    (spelled' : Text.sameLetters path' t'.spelling = true) :
    Overlap User path path' ↔ t.Meets t' := by
  constructor
  · rintro ⟨a, simple, hpath, hpath'⟩
    obtain meets | ⟨rfl, -⟩ :=
      ((names_iff spelled).mp hpath).meets_or ((names_iff spelled').mp hpath')
    · exact meets
    · exact absurd simple id
  · intro h
    have both {a : UserAttribute} (covers : t.Covers a) (covers' : t'.Covers a)
        (simple : Composed.Simple (α := User) a) : Overlap User path path' :=
      ⟨a, simple, (names_iff spelled).mpr covers, (names_iff spelled').mpr covers'⟩
    rcases h with rfl | ⟨rfl, part, rfl⟩ | ⟨rfl, part, rfl⟩
    · cases t with
      | text field => exact both (.text field) (.text field) trivial
      | active => exact both .active .active trivial
      | name => exact both (.partOfName .formatted) (.partOfName .formatted) trivial
      | namePart part => exact both (.namePart part) (.namePart part) trivial
      | emails => exact both .emails .emails trivial
    · exact both (.partOfName part) (.namePart part) trivial
    · exact both (.namePart part) (.partOfName part) trivial

/-- Paths for groups overlap if they name the same attribute, the members or some of them alike. -/
theorem GroupTarget.overlap_iff {path path' : String} {t t' : GroupTarget}
    (spelled : t.IsSpelled (Text.trim path)) (spelled' : t'.IsSpelled (Text.trim path')) :
    Overlap Group path path' ↔ t.named = t'.named := by
  constructor
  · rintro ⟨a, -, hpath, hpath'⟩
    exact ((names_iff spelled).mp hpath).trans ((names_iff spelled').mp hpath').symm
  · intro h
    exact ⟨t.named, trivial, (names_iff spelled).mpr rfl, (names_iff spelled').mpr h.symm⟩

end Patch

/-! ## Edits on their own attributes -/

theorem User.text_setText_self (u : User) (field : Patch.UserText) (value : Option String) :
    (u.setText field value).text field = value := by
  cases field <;> rfl

theorem Name.part_setPart_self (n : Name) (part : Patch.NamePart) (value : Option String) :
    (n.setPart part value).part part = value := by
  cases part <;> rfl

theorem Name.setPart_comm {part other : Patch.NamePart} (h : part ≠ other) (n : Name)
    (value value' : Option String) :
    (n.setPart part value).setPart other value' = (n.setPart other value').setPart part value := by
  cases part <;> cases other <;> first | rfl | exact absurd rfl h

namespace Patch

/-- What an edit makes of an attribute depends on nothing else. -/
theorem UserEdit.value_apply_congr (e : UserEdit) {a : UserAttribute} {u u' : User}
    (h : Attributed.value (α := User) a u = Attributed.value (α := User) a u') :
    Attributed.value (α := User) a (e.apply u) = Attributed.value (α := User) a (e.apply u') := by
  by_cases covers : e.target.Covers a
  · cases e with
    | setText field value =>
      cases covers
      exact (u.text_setText_self field value).trans (u'.text_setText_self field value).symm
    | setActive value =>
      cases covers
      rfl
    | setName value => cases covers <;> rfl
    | setNamePart part value =>
      cases covers with
      | nameOfPart part =>
        have hname : u.name = u'.name := h
        simp only [Attributed.value, apply, hname]
      | namePart part =>
        have written (x : User) : Attributed.value (α := User) (UserAttribute.namePart part)
            (apply (.setNamePart part value) x) = value :=
          (Name.bind_part_orNone _ part).trans (Name.part_setPart_self _ part value)
        rw [written, written]
    | addEmails emails | setEmails emails | dropEmails values =>
      cases covers
      have hemails : u.emails = u'.emails := h
      simp only [Attributed.value, apply, hemails]
  · rw [value_apply covers, value_apply covers, h]

theorem GroupEdit.value_apply_congr (e : GroupEdit) {a : GroupAttribute} {g g' : Group}
    (h : Attributed.value (α := Group) a g = Attributed.value (α := Group) a g') :
    Attributed.value (α := Group) a (e.apply g) = Attributed.value (α := Group) a (e.apply g') := by
  by_cases written : e.written = a
  · subst written
    cases e with
    | setDisplayName value | setExternalId value => rfl
    | addMembers members | setMembers members =>
      have hmembers : g.members = g'.members := h
      simp only [Attributed.value, written, apply, Group.addMembers, hmembers]
    | dropMembers values =>
      have hmembers : g.members = g'.members := h
      simp only [Attributed.value, written, apply, foldl_removeMember, hmembers]
  · rw [value_apply written, value_apply written, h]

/-- A part of the name is written by nothing but an edit of this part. -/
theorem UserEdit.eq_setNamePart {e : UserEdit} {part : NamePart} (h : e.target = .namePart part) :
    ∃ value, e = .setNamePart part value := by
  cases e with
  | setNamePart part value =>
    cases h
    exact ⟨value, rfl⟩
  | _ => cases h

theorem UserEdit.setNamePart_comm {part other : NamePart} (h : part ≠ other)
    (value value' : Option String) (u : User) :
    apply (.setNamePart part value) (apply (.setNamePart other value') u) =
      apply (.setNamePart other value') (apply (.setNamePart part value) u) := by
  simp only [apply, Name.getD_orNone, Name.setPart_comm h]

end Patch

/-! ## Functions on attributes -/

section

variable (α : Type) [Managed α] [Declared α] [Attributed α]

/-- The function leaves everything as it is but these attributes, and makes of each of them what only
depends on it. -/
structure Confined (f : α → α) (written : Attributed.Attribute α → Prop) : Prop where
  id (r : α) : Resource.id (f r) = Resource.id r
  schemas (r : α) : Declared.schemas (f r) = Declared.schemas r
  metadata (r : α) : Resource.metadata (f r) = Resource.metadata r
  outside {a : Attributed.Attribute α} (unwritten : ¬ written a) (r : α) :
    Attributed.value a (f r) = Attributed.value a r
  own {a : Attributed.Attribute α} {r r' : α} (h : Attributed.value a r = Attributed.value a r') :
    Attributed.value a (f r) = Attributed.value a (f r')

variable {α} [LawfulAttributed α]

theorem Confined.comm {f g : α → α} {written written' : Attributed.Attribute α → Prop}
    (hf : Confined α f written) (hg : Confined α g written')
    (disjoint : ∀ a, ¬ (written a ∧ written' a)) (r : α) : f (g r) = g (f r) := by
  refine LawfulAttributed.eq_of_values ?_ ?_ ?_ fun a => ?_
  · rw [hf.id, hg.id, hg.id, hf.id]
  · rw [hf.schemas, hg.schemas, hg.schemas, hf.schemas]
  · rw [hf.metadata, hg.metadata, hg.metadata, hf.metadata]
  · by_cases ha : written a
    · have ha' : ¬ written' a := fun h => disjoint a ⟨ha, h⟩
      calc Attributed.value a (f (g r)) = Attributed.value a (f r) := hf.own (hg.outside ha' r)
        _ = Attributed.value a (g (f r)) := (hg.outside ha' (f r)).symm
    · calc Attributed.value a (f (g r)) = Attributed.value a (g r) := hf.outside ha (g r)
        _ = Attributed.value a (g (f r)) := hg.own (hf.outside ha r).symm

end

/-- Types of resources whose edits look at no attribute but their own. Where two edits do have an
attribute in common, though none that is not made of others, they can be made in any order. -/
class LawfulComposed (α : Type) [Managed α] [Attributed α] [Composed α] : Prop where
  value_edit_congr {o : Patch.Operation} {f : α → α} (h : Patchable.edit o = .ok f)
    {a : Attributed.Attribute α} {r r' : α} (same : Attributed.value a r = Attributed.value a r') :
    Attributed.value a (f r) = Attributed.value a (f r')
  comm_of_shared {o o' : Patch.Operation} {f g : α → α} (hf : Patchable.edit o = .ok f)
    (hg : Patchable.edit o' = .ok g) (apart : ¬ Overlap α o.path o'.path)
    {a : Attributed.Attribute α} (named : Attributed.Names o.path a)
    (named' : Attributed.Names o'.path a) (r : α) : f (g r) = g (f r)

instance : LawfulComposed User where
  value_edit_congr h _ _ _ same := by
    obtain ⟨e, -, rfl⟩ := map_ok_iff.mp h
    exact e.value_apply_congr same
  comm_of_shared {o o' f g} hf hg apart a named named' u := by
    obtain ⟨e, he, rfl⟩ := map_ok_iff.mp hf
    obtain ⟨e', he', rfl⟩ := map_ok_iff.mp hg
    have spelled := Patch.UserTarget.ofPath?_eq_some_iff.mp (Patch.UserEdit.target_of_ofOperation he)
    have spelled' := Patch.UserTarget.ofPath?_eq_some_iff.mp (Patch.UserEdit.target_of_ofOperation he')
    rw [Patch.UserTarget.overlap_iff spelled spelled'] at apart
    obtain meets | ⟨-, part, other, ht, ht'⟩ :=
      ((Patch.UserTarget.names_iff spelled).mp named).meets_or
        ((Patch.UserTarget.names_iff spelled').mp named')
    · exact absurd meets apart
    · have different : part ≠ other := by
        rintro rfl
        exact apart (.inl (ht.trans ht'.symm))
      obtain ⟨value, rfl⟩ := Patch.UserEdit.eq_setNamePart ht
      obtain ⟨value', rfl⟩ := Patch.UserEdit.eq_setNamePart ht'
      exact Patch.UserEdit.setNamePart_comm different value value' u

instance : LawfulComposed Group where
  value_edit_congr h _ _ _ same := by
    obtain ⟨e, -, rfl⟩ := map_ok_iff.mp h
    exact e.value_apply_congr same
  comm_of_shared _ _ apart a named named' _ := absurd ⟨a, trivial, named, named'⟩ apart

variable {α : Type} [Managed α] [Declared α] [Attributed α] [LawfulAttributed α] [LawfulManaged α]
  [Composed α] [LawfulComposed α]

namespace Patch

theorem confined_edit {o : Operation} {f : α → α} (h : Patchable.edit o = .ok f) :
    Confined α f (Attributed.Names o.path) where
  id := LawfulManaged.id_edit h
  schemas := Declared.schemas_edit h
  metadata := LawfulAttributed.metadata_edit h
  outside unwritten := LawfulAttributed.value_edit h unwritten
  own := LawfulComposed.value_edit_congr h

theorem edit_comm {o o' : Operation} {f g : α → α} (hf : Patchable.edit o = .ok f)
    (hg : Patchable.edit o' = .ok g) (apart : ¬ Overlap α o.path o'.path) (r : α) :
    f (g r) = g (f r) := by
  by_cases shared : ∃ a : Attributed.Attribute α, Attributed.Names o.path a ∧ Attributed.Names o'.path a
  · obtain ⟨a, named, named'⟩ := shared
    exact LawfulComposed.comm_of_shared hf hg apart named named' r
  · exact (confined_edit hf).comm (confined_edit hg) (not_exists.mp shared) r

theorem taken_swapped {o o' : Operation} (apart : ¬ Overlap α o.path o'.path) {r p : α}
    (h : apply r (.ofOperations [o, o']) = .ok p) : apply r (.ofOperations [o', o]) = .ok p := by
  obtain ⟨x, hx, h⟩ := bind_ok_iff.mp h
  obtain ⟨y, hy, h⟩ := bind_ok_iff.mp h
  obtain ⟨f, hf, rfl⟩ := map_ok_iff.mp hx
  obtain ⟨g, hg, rfl⟩ := map_ok_iff.mp hy
  cases h
  rw [← edit_comm hf hg apart]
  exact bind_ok_iff.mpr ⟨g r, map_ok_iff.mpr ⟨g, hg, rfl⟩,
    bind_ok_iff.mpr ⟨f (g r), map_ok_iff.mpr ⟨f, hf, rfl⟩, rfl⟩⟩

/-- What becomes of two operations in either order. -/
structure Reorders (α : Type) [Managed α] [Attributed α] [Composed α] : Prop where
  /-- Both orders make the same of the resource, if they make anything of it. -/
  swap {o o' : Operation} (apart : ¬ Overlap α o.path o'.path) (r p : α) :
    apply r (.ofOperations [o, o']) = .ok p ↔ apply r (.ofOperations [o', o]) = .ok p
  /-- One operation that is refused is enough for both orders to be refused. -/
  taken_iff (o o' : Operation) (r : α) :
    (∃ p, apply r (.ofOperations [o, o']) = .ok p) ↔ Valid α o ∧ Valid α o'

theorem reorders : Reorders α where
  swap apart _ _ := ⟨taken_swapped apart, taken_swapped fun h => apart h.symm⟩
  taken_iff o o' r := by
    have both : (∀ x ∈ [o, o'], Valid α x) ↔ Valid α o ∧ Valid α o' := by
      simp only [List.forall_mem_cons, List.not_mem_nil, false_imp_iff, implies_true, and_true]
    rw [← both]
    exact ⟨fun ⟨_, hp⟩ => valid_of_taken hp, taken_of_valid r⟩

/-- Operations on different attributes of a user or of a group can be made in any order. -/
theorem operations_reorder : Reorders User ∧ Reorders Group :=
  ⟨reorders, reorders⟩

/-- The name is dropped with its last part and built again, or never is without a part. -/
theorem operations_reorder_name_parts :
    let o : Operation := .remove "name.familyName"
    let o' : Operation := .add "Name.GivenName" (.str "Alice")
    let u : User := { User.named "alice" with name := some ⟨none, some "Liddell", none⟩ }
    let p : User := { u with name := some ⟨none, none, some "Alice"⟩ }
    ¬ Overlap User o.path o'.path ∧ applyOperation u o = .ok { u with name := none } ∧
      apply u (.ofOperations [o, o']) = .ok p ∧ apply u (.ofOperations [o', o]) = .ok p := by
  intro o o' u p
  have spelled : Text.sameLetters o.path (UserTarget.namePart .familyName).spelling = true := by
    decide
  have spelled' : Text.sameLetters o'.path (UserTarget.namePart .givenName).spelling = true := by
    decide
  have apart : ¬ Overlap User o.path o'.path := by
    rw [UserTarget.overlap_iff spelled spelled']
    rintro (h | ⟨h, -⟩ | ⟨h, -⟩)
    · cases h
    · cases h
    · cases h
  have dropped : applyOperation u (.remove "name.familyName") = .ok { u with name := none } := rfl
  have built : applyOperation { u with name := none } (.add "Name.GivenName" (.str "Alice")) =
    .ok p := rfl
  have applied : apply u (.ofOperations [o, o']) = .ok p :=
    bind_ok_iff.mpr ⟨_, dropped, bind_ok_iff.mpr ⟨p, built, rfl⟩⟩
  exact ⟨apart, dropped, applied, (operations_reorder.1.swap apart u p).mp applied⟩

end Patch

end Scim
