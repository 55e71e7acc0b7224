import Scim.Proofs.Membership
import Scim.Proofs.PatchPath
import Scim.Proofs.Returnable

/-!
# What a patch leaves alone

Each operation is read as an edit, and an edit writes one attribute, which the path of the operation
names. So whatever no operation names is after a patch what it was before. An operation whose path
names nothing stops the patch.
-/

namespace Scim

open Fallible

namespace Patch

/-! ## What an edit of a user writes -/

namespace UserEdit

/-- The path that the edit comes from. -/
def target : UserEdit → UserTarget
  | .setText field _ => .text field
  | .setActive _ => .active
  | .setName _ => .name
  | .setNamePart part _ => .namePart part
  | .addEmails _ => .emails
  | .setEmails _ => .emails
  | .dropEmails _ => .emails

theorem target_of_emailEdit {o : Operation} {e : UserEdit} (h : emailEdit o = .ok e) :
    e.target = .emails := by
  rw [emailEdit] at h
  cases hop : o.op with
  | add =>
    rw [hop] at h
    obtain ⟨es, -, rfl⟩ := map_ok_iff.mp h
    rfl
  | replace =>
    rw [hop] at h
    obtain ⟨es, -, rfl⟩ := map_ok_iff.mp h
    rfl
  | remove =>
    rw [hop] at h
    cases hgiven : o.given? with
    | some v =>
      rw [hgiven] at h
      obtain ⟨es, -, rfl⟩ := map_ok_iff.mp h
      rfl
    | none =>
      rw [hgiven] at h
      cases h
      rfl

/-- The edit of an operation writes what the path names. -/
theorem target_of_ofOperation {o : Operation} {e : UserEdit} (h : ofOperation o = .ok e) :
    UserTarget.ofPath? o.path = some e.target := by
  rw [ofOperation] at h
  cases htarget : UserTarget.ofPath? o.path with
  | none =>
    rw [htarget] at h
    cases h
  | some t =>
    rw [htarget] at h
    refine congrArg some ?_
    cases t with
    | text field =>
      obtain ⟨v, -, rfl⟩ := map_ok_iff.mp h
      rfl
    | active =>
      obtain ⟨v, -, rfl⟩ := map_ok_iff.mp h
      rfl
    | name =>
      obtain ⟨v, -, rfl⟩ := map_ok_iff.mp h
      rfl
    | namePart part =>
      obtain ⟨v, -, rfl⟩ := map_ok_iff.mp h
      rfl
    | emails => exact (target_of_emailEdit h).symm

end UserEdit

end Patch

theorem User.text_setText_of_ne {field other : Patch.UserText} (h : other ≠ field) (u : User)
    (value : Option String) : (u.setText field value).text other = u.text other := by
  cases field <;> cases other <;> first | rfl | exact absurd rfl h

theorem Name.part_setPart_of_ne {part other : Patch.NamePart} (h : other ≠ part) (n : Name)
    (value : Option String) : (n.setPart part value).part other = n.part other := by
  cases part <;> cases other <;> first | rfl | exact absurd rfl h

/-- A name that is dropped had no parts. -/
theorem Name.bind_part_orNone (n : Name) (part : Patch.NamePart) :
    n.orNone.bind (·.part part) = n.part part := by
  rw [orNone]
  by_cases hempty : n.isEmpty = true
  · rw [if_pos hempty]
    simp only [isEmpty, Bool.and_eq_true, Option.isNone_iff_eq_none] at hempty
    obtain ⟨⟨hformatted, hfamily⟩, hgiven⟩ := hempty
    cases part
    · exact hformatted.symm
    · exact hfamily.symm
    · exact hgiven.symm
  · rw [if_neg hempty]
    rfl

/-- A name without parts is the empty name. -/
theorem Name.getD_orNone (n : Name) : n.orNone.getD .empty = n := by
  rw [orNone]
  by_cases h : n.isEmpty = true
  · rw [if_pos h]
    simp only [isEmpty, Bool.and_eq_true, Option.isNone_iff_eq_none] at h
    obtain ⟨⟨hformatted, hfamily⟩, hgiven⟩ := h
    cases n
    cases hformatted
    cases hfamily
    cases hgiven
    rfl
  · rw [if_neg h]
    rfl

theorem Name.part_getD_empty (n : Option Name) (part : Patch.NamePart) :
    (n.getD .empty).part part = n.bind (·.part part) := by
  cases n with
  | none => cases part <;> rfl
  | some n => rfl

namespace Patch

/-- An edit leaves what its path does not name. -/
theorem UserEdit.value_apply {e : UserEdit} {a : UserAttribute} (h : ¬ e.target.Covers a) (u : User) :
    Attributed.value (α := User) a (e.apply u) = Attributed.value (α := User) a u := by
  cases e with
  | setText field value =>
    cases a with
    | text other =>
      refine User.text_setText_of_ne ?_ u value
      rintro rfl
      exact h (.text _)
    | _ => cases field <;> rfl
  | setActive value =>
    cases a with
    | active => exact absurd .active h
    | _ => rfl
  | setName value =>
    cases a with
    | name => exact absurd .name h
    | namePart part => exact absurd (.partOfName part) h
    | _ => rfl
  | setNamePart part value =>
    cases a with
    | name => exact absurd (.nameOfPart part) h
    | namePart other =>
      have hne : other ≠ part := by
        rintro rfl
        exact h (.namePart _)
      calc (((u.name.getD .empty).setPart part value).orNone).bind (·.part other)
          = ((u.name.getD .empty).setPart part value).part other := Name.bind_part_orNone _ _
        _ = (u.name.getD .empty).part other := Name.part_setPart_of_ne hne _ _
        _ = u.name.bind (·.part other) := Name.part_getD_empty _ _
    | _ => rfl
  | addEmails emails | setEmails emails | dropEmails values =>
    cases a with
    | emails => exact absurd .emails h
    | _ => rfl

/-! ## What an edit of a group writes -/

namespace GroupEdit

/-- The attribute that the edit writes. -/
def written : GroupEdit → GroupAttribute
  | .setDisplayName _ => .displayName
  | .setExternalId _ => .externalId
  | .addMembers _ => .members
  | .setMembers _ => .members
  | .dropMembers _ => .members

theorem written_of_memberEdit {o : Operation} {e : GroupEdit} (h : memberEdit o = .ok e) :
    e.written = .members := by
  obtain ⟨ms, -, rfl | rfl | rfl⟩ | rfl := memberEdit_ok h
  all_goals rfl

theorem written_of_selectedEdit {o : Operation} {selector : List Char} {e : GroupEdit}
    (h : selectedEdit o selector = .ok e) : e.written = .members := by
  rw [selectedEdit] at h
  split at h
  · cases h
    rfl
  · cases h

theorem written_of_ofOperation {o : Operation} {e : GroupEdit} (h : ofOperation o = .ok e) :
    ∃ t, GroupTarget.ofPath? o.path = some t ∧ t.named = e.written := by
  rw [ofOperation] at h
  cases htarget : GroupTarget.ofPath? o.path with
  | none =>
    rw [htarget] at h
    cases h
  | some t =>
    rw [htarget] at h
    refine ⟨t, rfl, ?_⟩
    cases t with
    | displayName =>
      obtain ⟨v, -, rfl⟩ := map_ok_iff.mp h
      rfl
    | externalId =>
      obtain ⟨v, -, rfl⟩ := map_ok_iff.mp h
      rfl
    | members => exact (written_of_memberEdit h).symm
    | selected selector => exact (written_of_selectedEdit h).symm

theorem value_apply {e : GroupEdit} {a : GroupAttribute} (h : e.written ≠ a) (g : Group) :
    Attributed.value (α := Group) a (e.apply g) = Attributed.value (α := Group) a g := by
  cases e with
  | setDisplayName value =>
    cases a with
    | displayName => exact absurd rfl h
    | _ => rfl
  | setExternalId value =>
    cases a with
    | externalId => exact absurd rfl h
    | _ => rfl
  | addMembers members | setMembers members =>
    cases a with
    | members => exact absurd rfl h
    | _ => rfl
  | dropMembers values =>
    rw [apply, foldl_removeMember]
    cases a with
    | members => exact absurd rfl h
    | _ => rfl

end GroupEdit

/-! ## What patches leave alone -/

theorem UserEdit.metadata_apply (e : UserEdit) (u : User) : (e.apply u).metadata = u.metadata := by
  cases e with
  | setText field value => cases field <;> rfl
  | _ => rfl

theorem GroupEdit.metadata_apply (e : GroupEdit) (g : Group) : (e.apply g).metadata = g.metadata := by
  cases e with
  | dropMembers values =>
    rw [apply, foldl_removeMember]
  | _ => rfl

theorem UserTarget.exists_covers (t : UserTarget) : ∃ a, t.Covers a := by
  cases t with
  | text field => exact ⟨_, .text field⟩
  | active => exact ⟨_, .active⟩
  | name => exact ⟨_, .name⟩
  | namePart part => exact ⟨_, .namePart part⟩
  | emails => exact ⟨_, .emails⟩

end Patch

/-- No attribute is named by the path. -/
def Attributed.Nameless (α : Type) [Attributed α] (path : String) : Prop :=
  ∀ a : Attributed.Attribute α, ¬ Attributed.Names path a

/-- Types of resources whose edits change no attribute but what the path names. The attributes are
all that a resource has besides its id, its schemas and its metadata. -/
class LawfulAttributed (α : Type) [Managed α] [Declared α] [Attributed α] : Prop where
  metadata_edit {o : Patch.Operation} {f : α → α} (h : Patchable.edit o = .ok f) (r : α) :
    Resource.metadata (f r) = Resource.metadata r
  value_edit {o : Patch.Operation} {f : α → α} (h : Patchable.edit o = .ok f)
    {a : Attributed.Attribute α} (unnamed : ¬ Attributed.Names o.path a) (r : α) :
    Attributed.value a (f r) = Attributed.value a r
  edit_of_nameless {o : Patch.Operation} (h : Attributed.Nameless α o.path) :
    (Patchable.edit o : Except Fault (α → α)) = .error o.unsupported
  nameless_of_serverOwned {path : String}
    (h : Patch.isServerOwned (Attributed.reads α path) = true) : Attributed.Nameless α path
  eq_of_values {r r' : α} (id : Resource.id r = Resource.id r')
    (schemas : Declared.schemas r = Declared.schemas r')
    (metadata : Resource.metadata r = Resource.metadata r')
    (values : ∀ a : Attributed.Attribute α, Attributed.value a r = Attributed.value a r') : r = r'

instance : LawfulAttributed User where
  metadata_edit h u := by
    obtain ⟨e, -, rfl⟩ := map_ok_iff.mp h
    exact e.metadata_apply u
  value_edit h _ unnamed u := by
    obtain ⟨e, he, rfl⟩ := map_ok_iff.mp h
    have hspelled := Patch.UserTarget.ofPath?_eq_some_iff.mp (Patch.UserEdit.target_of_ofOperation he)
    exact Patch.UserEdit.value_apply (fun hcovers => unnamed ⟨e.target, hspelled, hcovers⟩) u
  edit_of_nameless {o} h := by
    have htarget : Patch.UserTarget.ofPath? o.path = none := by
      refine Option.eq_none_iff_forall_ne_some.mpr fun t ht => ?_
      obtain ⟨a, hcovers⟩ := t.exists_covers
      exact h a ⟨t, Patch.UserTarget.ofPath?_eq_some_iff.mp ht, hcovers⟩
    simp only [Patchable.edit, Patch.UserEdit.ofOperation, htarget, Except.map]
  nameless_of_serverOwned h := by
    rintro a ⟨t, hspelled, -⟩
    cases h.symm.trans (Patch.UserTarget.not_isServerOwned hspelled)
  eq_of_values {u u'} id schemas metadata values := by
    have htext (field : Patch.UserText) : u.text field = u'.text field := values (.text field)
    cases u
    cases u'
    cases id
    cases schemas
    cases metadata
    cases htext .userName
    cases htext .displayName
    cases htext .externalId
    cases htext .nickName
    cases htext .title
    cases htext .userType
    cases htext .preferredLanguage
    cases htext .locale
    cases htext .timezone
    cases values .active
    cases values .name
    cases values .emails
    rfl

instance : LawfulAttributed Group where
  metadata_edit h g := by
    obtain ⟨e, -, rfl⟩ := map_ok_iff.mp h
    exact e.metadata_apply g
  value_edit h a unnamed g := by
    obtain ⟨e, he, rfl⟩ := map_ok_iff.mp h
    obtain ⟨t, htarget, hnamed⟩ := Patch.GroupEdit.written_of_ofOperation he
    refine Patch.GroupEdit.value_apply (fun hwritten => unnamed ⟨t, ?_, hnamed.trans hwritten⟩) g
    exact Patch.GroupTarget.ofPath?_eq_some_iff.mp htarget
  edit_of_nameless {o} h := by
    have htarget : Patch.GroupTarget.ofPath? o.path = none := by
      refine Option.eq_none_iff_forall_ne_some.mpr fun t ht => ?_
      exact h t.named ⟨t, Patch.GroupTarget.ofPath?_eq_some_iff.mp ht, rfl⟩
    simp only [Patchable.edit, Patch.GroupEdit.ofOperation, htarget, Except.map]
  nameless_of_serverOwned h := by
    rintro a ⟨t, hspelled, -⟩
    cases h.symm.trans (Patch.GroupTarget.not_isServerOwned hspelled)
  eq_of_values {g g'} id schemas metadata values := by
    cases g
    cases g'
    cases id
    cases schemas
    cases metadata
    cases values .displayName
    cases values .externalId
    cases values .members
    rfl

/-- What patches of a type of resources can and cannot do. -/
structure PatchConfined (α : Type) [Managed α] [Declared α] [Attributed α] : Prop where
  owned {r p : α} {q : Patch.Request} (h : Patch.apply r q = .ok p) :
    Resource.id p = Resource.id r ∧ Declared.schemas p = Declared.schemas r ∧
      Resource.metadata p = Resource.metadata r
  unnamed {r p : α} {q : Patch.Request} (h : Patch.apply r q = .ok p) {a : Attributed.Attribute α}
    (unnamed : ∀ o ∈ q.operations, ¬ Attributed.Names o.path a) :
    Attributed.value a p = Attributed.value a r
  fails {q : Patch.Request} {o : Patch.Operation} (ho : o ∈ q.operations)
    (nameless : Attributed.Nameless α o.path) (r p : α) : Patch.apply r q ≠ .ok p
  refused {r r' : α} {q : Patch.Request} {before after : List Patch.Operation} {o : Patch.Operation}
    (hq : q.operations = before ++ o :: after) (valid : Patch.applyOperations r before = .ok r')
    (nameless : Attributed.Nameless α o.path) :
    Patch.apply r q = .error (.unsupportedPatchPath o.path)
  serverOwned {path : String} (h : Patch.isServerOwned (Attributed.reads α path) = true) :
    Attributed.Nameless α path
  /-- Besides what `owned` is about there are only the attributes. -/
  complete {r r' : α} (id : Resource.id r = Resource.id r')
    (schemas : Declared.schemas r = Declared.schemas r')
    (metadata : Resource.metadata r = Resource.metadata r')
    (values : ∀ a : Attributed.Attribute α, Attributed.value a r = Attributed.value a r') : r = r'

namespace Patch

variable {α : Type}

theorem applyOperations_append [Patchable α] (r : α) (before after : List Operation) :
    applyOperations r (before ++ after) =
      applyOperations r before >>= fun r' => applyOperations r' after := by
  induction before generalizing r with
  | nil => rfl
  | cons o rest ih =>
    simp only [List.cons_append, applyOperations, ih, bind_assoc]

variable [Managed α] [Declared α] [Attributed α] [LawfulAttributed α]

theorem applyOperation_of_nameless {o : Operation} (h : Attributed.Nameless α o.path) (r : α) :
    applyOperation r o = .error o.unsupported := by
  rw [applyOperation, LawfulAttributed.edit_of_nameless h]
  rfl

theorem refused_of_nameless {r r' : α} {before : List Operation} {o : Operation}
    (valid : applyOperations r before = .ok r') (nameless : Attributed.Nameless α o.path)
    (after : List Operation) :
    applyOperations r (before ++ o :: after) = .error o.unsupported := by
  rw [applyOperations_append, valid]
  change applyOperation r' o >>= (fun r => applyOperations r after) = _
  rw [applyOperation_of_nameless nameless]
  rfl

theorem confined [LawfulManaged α] : PatchConfined α where
  owned h := ⟨id_applyOperations h, applyOperations_keeps Declared.schemas_edit h,
    applyOperations_keeps LawfulAttributed.metadata_edit h⟩
  unnamed {r _ _} h {a} unnamed := by
    let Kept (x : α) : Prop := Attributed.value a x = Attributed.value a r
    refine applyOperations_preserves (P := Kept) ?_ h rfl
    intro o ho f hf x hx
    exact (LawfulAttributed.value_edit hf (unnamed o ho) x).trans hx
  fails {q o} ho nameless r p h := by
    obtain ⟨before, after, hq⟩ := List.append_of_mem ho
    rw [apply, hq, applyOperations_append] at h
    obtain ⟨r', hvalid, hrest⟩ := bind_ok_iff.mp h
    obtain ⟨x, hx, -⟩ := bind_ok_iff.mp hrest
    rw [applyOperation_of_nameless nameless] at hx
    cases hx
  refused hq valid nameless := by
    rw [apply, hq]
    exact refused_of_nameless valid nameless _
  serverOwned h := LawfulAttributed.nameless_of_serverOwned h
  complete id schemas metadata values := LawfulAttributed.eq_of_values id schemas metadata values

/-- A patch changes only what it names, and it fails when one of its paths names nothing. -/
theorem changes_only_what_it_names : PatchConfined User ∧ PatchConfined Group :=
  ⟨confined, confined⟩

/-- The version of a user is not for patches, in whatever case it is written. -/
theorem version_not_patched :
    apply (User.named "alice")
      (.ofOperations [.replace "Title" (.str "Dr"), .remove "Meta.version"]) =
      .error (.unsupportedPatchPath "Meta.version") := by
  have valid : applyOperations (User.named "alice") [.replace "Title" (.str "Dr")] =
      .ok { User.named "alice" with title := some "Dr" } := rfl
  have nameless : Attributed.Nameless User "Meta.version" :=
    changes_only_what_it_names.1.serverOwned (by decide)
  exact changes_only_what_it_names.1.refused (o := .remove "Meta.version") rfl valid nameless

end Patch

end Scim
