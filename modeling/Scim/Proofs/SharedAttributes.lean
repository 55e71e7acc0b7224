import Scim.Proofs.PatchPath
import Scim.Proofs.PatchVerdict
import Scim.Proofs.WrittenFilter

/-!
# Attributes that users and groups share

Users and groups both have a display name and an external id. Patches of the two types are read apart
from each other, so that it has to be shown that an operation on such an attribute comes to the same
for both. It does exactly if there is no white space around its path. Otherwise the path is still
read for a group, which is changed or refuses the value, and a user refuses the path itself.
-/

namespace Scim

open Fallible

/-- There is no white space in a word. -/
theorem Filter.IsWord.trim_eq {s : String} (h : IsWord s) : Text.trim s = s := by
  have inside (c : Char) (hc : c ∈ s.toList) : Text.isSpace c = false :=
    (Token.isWordChar_iff.mp (h.2 c hc)).1
  have starts : Text.NoneFollows Text.isSpace s.toList := fun c hc =>
    inside c (List.mem_of_mem_head? hc)
  have ends : Text.NoneFollows Text.isSpace s.toList.reverse := fun c hc =>
    inside c (List.mem_reverse.mp (List.mem_of_mem_head? hc))
  have htrim := @Text.trimChars_between [] s.toList [] nofun nofun starts ends
  rw [List.nil_append, List.append_nil] at htrim
  rw [Text.trim, htrim, String.ofList_toList]

namespace Patch

/-- A value that is refused is not refused for the path. -/
theorem Operation.textValue_ne_unsupported (o : Operation) : o.textValue ≠ .error o.unsupported := by
  intro h
  rw [textValue, requireValue] at h
  cases hop : o.op with
  | remove =>
    rw [hop] at h
    cases h
  | add | replace =>
    rw [hop] at h
    cases hgiven : o.given? with
    | none =>
      rw [hgiven] at h
      cases h
    | some v =>
      rw [hgiven] at h
      cases v <;> cases h

/-- The attributes that patches can change in users and in groups. -/
inductive SharedText where
  | displayName
  | externalId
  deriving DecidableEq, Repr

namespace SharedText

def field : SharedText → UserText
  | .displayName => .displayName
  | .externalId => .externalId

def target : SharedText → GroupTarget
  | .displayName => .displayName
  | .externalId => .externalId

/-- The path is read as the attribute for users or for groups. -/
def IsNamed (a : SharedText) (path : String) : Prop :=
  UserTarget.ofPath? path = some (.text a.field) ∨ GroupTarget.ofPath? path = some a.target

def setUser (a : SharedText) (value : Option String) (u : User) : User :=
  match a with
  | .displayName => { u with displayName := value }
  | .externalId => { u with externalId := value }

def setGroup (a : SharedText) (value : Option String) (g : Group) : Group :=
  match a with
  | .displayName => { g with displayName := value }
  | .externalId => { g with externalId := value }

/-- The operation does the same with the attribute of the user as with that of the group. -/
inductive Agrees (a : SharedText) (o : Operation) (u : User) (g : Group) : Prop
  | set (value : String) (user : apply u (.ofOperations [o]) = .ok (a.setUser (some value) u))
      (group : apply g (.ofOperations [o]) = .ok (a.setGroup (some value) g))
  | cleared (user : apply u (.ofOperations [o]) = .ok (a.setUser none u))
      (group : apply g (.ofOperations [o]) = .ok (a.setGroup none g))
  | refused (f : Fault) (user : apply u (.ofOperations [o]) = .error f)
      (group : apply g (.ofOperations [o]) = .error f)

/-! ## Paths -/

def spelling : SharedText → String
  | .displayName => "displayName"
  | .externalId => "externalId"

theorem user_reads_iff {a : SharedText} {path : String} :
    UserTarget.ofPath? path = some (.text a.field) ↔ Text.sameLetters path a.spelling = true := by
  rw [UserTarget.ofPath?_eq_some_iff]
  cases a with
  | displayName => exact Iff.rfl
  | externalId => exact Iff.rfl

theorem group_reads_iff {a : SharedText} {path : String} :
    GroupTarget.ofPath? path = some a.target ↔
      Text.sameLetters (Text.trim path) a.spelling = true := by
  rw [GroupTarget.ofPath?_eq_some_iff]
  cases a with
  | displayName => exact Iff.rfl
  | externalId => exact Iff.rfl

end SharedText

/-- Every path that users have has no white space around it. -/
theorem UserTarget.trim_of_ofPath? {path : String} {t : UserTarget} (h : ofPath? path = some t) :
    Text.trim path = path := by
  refine Filter.IsWord.trim_eq (Filter.isWord_of_sameLetters (ofPath?_eq_some_iff.mp h) ?_)
  cases t with
  | text field => cases field <;> decide
  | namePart part => cases part <;> decide
  | _ => decide

namespace SharedText

variable {a : SharedText} {o : Operation}

/-- Groups read every path that users read. -/
theorem IsNamed.group_reads {path : String} (h : a.IsNamed path) :
    GroupTarget.ofPath? path = some a.target := by
  rcases h with huser | hgroup
  · rw [group_reads_iff, UserTarget.trim_of_ofPath? huser, ← user_reads_iff]
    exact huser
  · exact hgroup

/-- Users read those of them that have no white space around them. -/
theorem IsNamed.user_reads {path : String} (h : a.IsNamed path) (trimmed : Text.trim path = path) :
    UserTarget.ofPath? path = some (.text a.field) := by
  have hgroup := group_reads_iff.mp h.group_reads
  rw [trimmed] at hgroup
  exact user_reads_iff.mpr hgroup

/-! ## Operations -/

theorem apply_user (reads : UserTarget.ofPath? o.path = some (.text a.field)) (u : User) :
    apply u (.ofOperations [o]) = o.textValue.map fun value => a.setUser value u := by
  rw [apply_alone]
  simp only [Patchable.edit, UserEdit.ofOperation, reads, map_map]
  cases a with
  | displayName => rfl
  | externalId => rfl

theorem apply_group (reads : GroupTarget.ofPath? o.path = some a.target) (g : Group) :
    apply g (.ofOperations [o]) = o.textValue.map fun value => a.setGroup value g := by
  rw [apply_alone]
  cases a with
  | displayName =>
    simp only [Patchable.edit, GroupEdit.ofOperation, reads, target, map_map]
    rfl
  | externalId =>
    simp only [Patchable.edit, GroupEdit.ofOperation, reads, target, map_map]
    rfl

theorem apply_user_of_spaced (spaced : Text.trim o.path ≠ o.path) (u : User) :
    apply u (.ofOperations [o]) = .error o.unsupported := by
  have hnone : UserTarget.ofPath? o.path = none :=
    Option.eq_none_iff_forall_ne_some.mpr fun t ht => spaced (UserTarget.trim_of_ofPath? ht)
  rw [apply_alone]
  simp only [Patchable.edit, UserEdit.ofOperation, hnone]
  rfl

theorem agrees_of_trimmed (named : a.IsNamed o.path) (trimmed : Text.trim o.path = o.path) (u : User)
    (g : Group) : a.Agrees o u g := by
  have huser := apply_user (named.user_reads trimmed) u
  have hgroup := apply_group named.group_reads g
  cases hvalue : o.textValue with
  | error f =>
    rw [hvalue] at huser hgroup
    exact .refused f huser hgroup
  | ok value =>
    rw [hvalue] at huser hgroup
    cases value with
    | none => exact .cleared huser hgroup
    | some value => exact .set value huser hgroup

theorem not_agrees_of_spaced (named : a.IsNamed o.path) (spaced : Text.trim o.path ≠ o.path)
    (u : User) (g : Group) : ¬ a.Agrees o u g := by
  have huser := apply_user_of_spaced spaced u
  have hgroup := apply_group named.group_reads g
  intro h
  cases h with
  | set value user _ => cases huser.symm.trans user
  | cleared user _ => cases huser.symm.trans user
  | refused f user group =>
    cases huser.symm.trans user
    cases hvalue : o.textValue with
    | ok value =>
      rw [hvalue] at hgroup
      cases hgroup.symm.trans group
    | error f =>
      rw [hvalue] at hgroup
      cases hgroup.symm.trans group
      exact o.textValue_ne_unsupported hvalue

/-- An operation on a shared attribute agrees exactly if there is no white space around its path. -/
theorem shared_texts_agree_iff (a : SharedText) (o : Operation) (named : a.IsNamed o.path) (u : User)
    (g : Group) : a.Agrees o u g ↔ Text.trim o.path = o.path :=
  ⟨fun h => by_contra fun spaced => not_agrees_of_spaced named spaced u g h,
    fun trimmed => agrees_of_trimmed named trimmed u g⟩

theorem shared_text_agrees_in_capitals :
    externalId.IsNamed "EXTERNALID" ∧
      externalId.Agrees (.replace "EXTERNALID" (.bool true)) (User.named "alice")
        (Group.named "Team A") := by
  have named : externalId.IsNamed "EXTERNALID" := .inr (by decide)
  exact ⟨named, (shared_texts_agree_iff externalId (.replace "EXTERNALID" (.bool true)) named _ _).mpr
    (by decide)⟩

/-- A path with white space around it names the attribute of the group alone. -/
theorem spaced_path_is_refused_for_users :
    displayName.IsNamed " displayName " ∧
      ¬ displayName.Agrees (.replace " displayName " (.str "Ops")) (User.named "alice")
        (Group.named "Team A") := by
  have named : displayName.IsNamed " displayName " := .inr (by decide)
  refine ⟨named, not_agrees_of_spaced ?_ ?_ _ _⟩
  · exact named
  · decide

/-! ## Patches -/

def ofUser : SharedText → User → Option String
  | .displayName, u => u.displayName
  | .externalId, u => u.externalId

def ofGroup : SharedText → Group → Option String
  | .displayName, g => g.displayName
  | .externalId, g => g.externalId

/-- The user and the group have the same texts. -/
def Alike (u : User) (g : Group) : Prop :=
  ∀ a : SharedText, a.ofUser u = a.ofGroup g

theorem Alike.set {u : User} {g : Group} (h : Alike u g) (a : SharedText) (value : Option String) :
    Alike (a.setUser value u) (a.setGroup value g) := by
  intro b
  cases a with
  | displayName =>
    cases b with
    | displayName => rfl
    | externalId => exact h .externalId
  | externalId =>
    cases b with
    | displayName => exact h .displayName
    | externalId => rfl

theorem Agrees.alike {u : User} {g : Group} (agrees : a.Agrees o u g) (h : Alike u g) :
    (∃ u' g', apply u (.ofOperations [o]) = .ok u' ∧ apply g (.ofOperations [o]) = .ok g' ∧
      Alike u' g') ∨
    ∃ f, apply u (.ofOperations [o]) = .error f ∧ apply g (.ofOperations [o]) = .error f := by
  cases agrees with
  | set value user group => exact .inl ⟨_, _, user, group, h.set a (some value)⟩
  | cleared user group => exact .inl ⟨_, _, user, group, h.set a none⟩
  | refused f user group => exact .inr ⟨f, user, group⟩

/-- A patch of shared attributes keeps a user and a group alike, or both refuse it for one reason. -/
theorem alike_patched {os : List Operation}
    (shared : ∀ o ∈ os, (∃ a : SharedText, a.IsNamed o.path) ∧ Text.trim o.path = o.path) {u : User}
    {g : Group} (h : Alike u g) :
    (∃ u' g', applyOperations u os = .ok u' ∧ applyOperations g os = .ok g' ∧ Alike u' g') ∨
      ∃ f, applyOperations u os = .error f ∧ applyOperations g os = .error f := by
  induction os generalizing u g with
  | nil => exact .inl ⟨u, g, rfl, rfl, h⟩
  | cons o rest ih =>
    obtain ⟨⟨⟨a, named⟩, trimmed⟩, hrest⟩ := List.forall_mem_cons.mp shared
    rw [applyOperations_cons, applyOperations_cons]
    rcases (agrees_of_trimmed named trimmed u g).alike h with ⟨u', g', hu, hg, h'⟩ | ⟨f, hu, hg⟩
    · rw [hu, hg, ok_bind, ok_bind]
      exact ih hrest h'
    · rw [hu, hg, error_bind, error_bind]
      exact .inr ⟨f, rfl, rfl⟩

end SharedText

end Patch

end Scim
