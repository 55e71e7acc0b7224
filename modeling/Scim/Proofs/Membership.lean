import Scim.Proofs.Content
import Scim.Proofs.KeyedList
import Scim.Proofs.KeyQuery

/-!
# The members of stored groups

Patches check the members that they bring, and a patch that adds members passes over those that are
there already. A group that is created or put in place of another is stored with its members as they
were sent: they are not checked, and may occur twice. Stored groups therefore have well-formed
members exactly as long as whole groups are sent with such, and distinct ones as long as no list is
sent whole, with a group or to replace its members, in which a member occurs twice.
-/

namespace Scim

open Fallible

/-- A member refers to something by a value that is not blank, and its type, if it has one, is a kind
of resource. -/
structure Member.WellFormed (m : Member) : Prop where
  value : Text.isBlank m.value = false
  type : ∀ t, m.type = some t → t = "User" ∨ t = "Group"

theorem Member.validate_ok_iff {m m' : Member} : m.validate = .ok m' ↔ m.WellFormed ∧ m' = m := by
  rw [validate]
  by_cases hb : Text.isBlank m.value = true
  · rw [if_pos hb]
    refine ⟨fun h => (by cases h), fun h => ?_⟩
    rw [h.1.value] at hb
    cases hb
  · rw [if_neg hb]
    rw [Bool.not_eq_true] at hb
    cases htype : m.type with
    | none =>
      refine ⟨fun h => ⟨⟨hb, fun t ht => ?_⟩, (Except.ok.inj h).symm⟩, fun h => by rw [h.2]⟩
      rw [htype] at ht
      cases ht
    | some t =>
      dsimp only
      by_cases ht : t = "User" ∨ t = "Group"
      · rw [if_pos ht]
        refine ⟨fun h => ⟨⟨hb, fun t' ht' => ?_⟩, (Except.ok.inj h).symm⟩, fun h => by rw [h.2]⟩
        rw [htype] at ht'
        cases ht'
        exact ht
      · rw [if_neg ht]
        exact ⟨fun h => (by cases h), fun h => absurd (h.1.type t htype) ht⟩

/-- No two members have the same value. -/
def DistinctMembers (members : List Member) : Prop :=
  (members.map Member.value).Nodup

/-- Members that are added go through the same steps as the entries of any list with values. -/
theorem Group.members_addMembers (g : Group) (added : List Member) :
    (g.addMembers added).members = added.foldl (Keyed.insertNew Member.value) g.members :=
  rfl

namespace Patch.GroupEdit

/-- The members that an edit brings. -/
def brought : GroupEdit → List Member
  | .addMembers members => members
  | .setMembers members => members
  | _ => []

/-- A list of members passes the checks as it is or not at all. -/
theorem checkAll_ok_iff {o : Operation} {ms checked : List Member} :
    checkAll o ms = .ok checked ↔ (∀ m ∈ ms, m.WellFormed) ∧ checked = ms := by
  induction ms generalizing checked with
  | nil =>
    constructor
    · rintro ⟨⟩
      exact ⟨fun m hm => (by cases hm), rfl⟩
    · rintro ⟨-, rfl⟩
      rfl
  | cons x rest ih =>
    rw [checkAll, List.forall_mem_cons]
    constructor
    · intro h
      cases hvalid : x.validate with
      | error e =>
        rw [hvalid] at h
        cases h
      | ok x' =>
        rw [hvalid] at h
        obtain ⟨hx, rfl⟩ := Member.validate_ok_iff.mp hvalid
        obtain ⟨checkedRest, hrest, heq⟩ := bind_ok_iff.mp h
        obtain ⟨hformed, rfl⟩ := ih.mp hrest
        exact ⟨⟨hx, hformed⟩, (Except.ok.inj heq).symm⟩
    · rintro ⟨⟨hx, hformed⟩, rfl⟩
      rw [Member.validate_ok_iff.mpr ⟨hx, rfl⟩]
      exact bind_ok_iff.mpr ⟨rest, ih.mpr ⟨hformed, rfl⟩, rfl⟩

theorem membersValue_ok_iff {o : Operation} {ms : List Member} :
    membersValue o = .ok ms ↔ o.listValue Member.decode = .ok ms ∧ ∀ m ∈ ms, m.WellFormed := by
  rw [membersValue, bind_ok_iff]
  constructor
  · rintro ⟨listed, hlisted, hchecked⟩
    obtain ⟨hformed, rfl⟩ := checkAll_ok_iff.mp hchecked
    exact ⟨hlisted, hformed⟩
  · rintro ⟨hlisted, hformed⟩
    exact ⟨ms, hlisted, checkAll_ok_iff.mpr ⟨hformed, rfl⟩⟩

/-- The edits that an operation on the members can be read as. -/
theorem memberEdit_ok {o : Operation} {e : GroupEdit} (h : memberEdit o = .ok e) :
    (∃ ms, membersValue o = .ok ms ∧
      (e = .addMembers ms ∨ e = .setMembers ms ∨ e = .dropMembers (ms.map (·.value)))) ∨
    e = .setMembers [] := by
  rw [memberEdit] at h
  cases hop : o.op with
  | add =>
    rw [hop] at h
    obtain ⟨ms, hms, rfl⟩ := map_ok_iff.mp h
    exact .inl ⟨ms, hms, .inl rfl⟩
  | replace =>
    rw [hop] at h
    obtain ⟨ms, hms, rfl⟩ := map_ok_iff.mp h
    exact .inl ⟨ms, hms, .inr (.inl rfl)⟩
  | remove =>
    rw [hop] at h
    cases hgiven : o.given? with
    | none =>
      rw [hgiven] at h
      cases h
      exact .inr rfl
    | some v =>
      rw [hgiven] at h
      obtain ⟨ms, hms, rfl⟩ := map_ok_iff.mp h
      exact .inl ⟨ms, hms, .inr (.inr rfl)⟩

theorem memberEdit_brought {o : Operation} {e : GroupEdit} (h : memberEdit o = .ok e) :
    ∀ m ∈ e.brought, m.WellFormed := by
  obtain ⟨ms, hms, rfl | rfl | rfl⟩ | rfl := memberEdit_ok h
  · exact (membersValue_ok_iff.mp hms).2
  · exact (membersValue_ok_iff.mp hms).2
  · exact fun m hm => (by cases hm)
  · exact fun m hm => (by cases hm)

/-- Every operation checks the members that it brings. -/
theorem ofOperation_brought {o : Operation} {e : GroupEdit} (h : ofOperation o = .ok e) :
    ∀ m ∈ e.brought, m.WellFormed := by
  rw [ofOperation] at h
  cases htarget : GroupTarget.ofPath? o.path with
  | none =>
    rw [htarget] at h
    cases h
  | some target =>
    rw [htarget] at h
    cases target with
    | displayName =>
      obtain ⟨value, -, rfl⟩ := map_ok_iff.mp h
      exact fun m hm => (by cases hm)
    | externalId =>
      obtain ⟨value, -, rfl⟩ := map_ok_iff.mp h
      exact fun m hm => (by cases hm)
    | members => exact memberEdit_brought h
    | selected selector =>
      simp only [selectedEdit] at h
      split at h
      · cases h
        exact fun m hm => (by cases hm)
      · cases h

theorem mem_members_apply {e : GroupEdit} {g : Group} {m : Member} (h : m ∈ (e.apply g).members) :
    m ∈ g.members ∨ m ∈ e.brought := by
  cases e with
  | setDisplayName value => exact .inl h
  | setExternalId value => exact .inl h
  | addMembers members =>
    rw [apply, Group.members_addMembers, Keyed.foldl_insertNew] at h
    exact (List.mem_append.mp h).imp_right (Keyed.newcomers_sublist _ _).mem
  | setMembers members => exact .inr h
  | dropMembers values =>
    rw [apply, foldl_removeMember] at h
    exact .inl (List.mem_of_mem_filter h)

/-- Only a whole new list can bring a member twice. -/
theorem distinct_members_apply {e : GroupEdit} {g : Group} (h : DistinctMembers g.members)
    (whole : ∀ ms, e = .setMembers ms → DistinctMembers ms) :
    DistinctMembers (e.apply g).members := by
  cases e with
  | setDisplayName value => exact h
  | setExternalId value => exact h
  | addMembers members => exact Keyed.distinct_foldl_insertNew h members
  | setMembers members => exact whole members rfl
  | dropMembers values =>
    rw [apply, foldl_removeMember]
    exact h.sublist (List.filter_sublist.map _)

end Patch.GroupEdit

/-- All members of the group are well formed. -/
def Group.WellFormed (g : Group) : Prop :=
  ∀ m ∈ g.members, m.WellFormed

theorem Group.wellFormed_ofContent : OfContent Group.WellFormed :=
  ⟨fun _ _ => Iff.rfl, fun _ _ => Iff.rfl⟩

theorem Group.distinct_ofContent : OfContent fun g : Group => DistinctMembers g.members :=
  ⟨fun _ _ => Iff.rfl, fun _ _ => Iff.rfl⟩

namespace Patch

/-- A patch leaves no group with ill-formed members. -/
theorem wellFormed_edit {o : Operation} {f : Group → Group} (h : Patchable.edit o = .ok f) {g : Group}
    (hg : g.WellFormed) : (f g).WellFormed := by
  obtain ⟨e, he, rfl⟩ := map_ok_iff.mp h
  intro m hm
  rcases GroupEdit.mem_members_apply hm with hold | hnew
  · exact hg m hold
  · exact GroupEdit.ofOperation_brought he m hnew

theorem distinct_edit {o : Operation} {f : Group → Group} (h : Patchable.edit o = .ok f)
    (whole : ∀ ms, GroupEdit.ofOperation o = .ok (.setMembers ms) → DistinctMembers ms) {g : Group}
    (hg : DistinctMembers g.members) : DistinctMembers (f g).members := by
  obtain ⟨e, he, rfl⟩ := map_ok_iff.mp h
  refine GroupEdit.distinct_members_apply hg ?_
  rintro ms rfl
  exact whole ms he

end Patch

namespace Directory

/-- The event brings no group with ill-formed members. -/
def Event.BringsWellFormed (e : Event) : Prop :=
  ∀ g, e.request.resource? = some (.group g) → g.WellFormed

/-- No list of members that the event brings as a whole has one of them twice: neither that of a group
nor one by which a patch replaces the members of a group. -/
structure Event.BringsDistinct (e : Event) : Prop where
  group : ∀ g, e.request.resource? = some (.group g) → DistinctMembers g.members
  patch : e.request.kind? = some .group → ∀ o ∈ e.request.request.operations, ∀ ms,
    Patch.GroupEdit.ofOperation o = .ok (.setMembers ms) → DistinctMembers ms

/-- When the members of stored groups are well formed all along a history, and when they are distinct
after it. -/
structure MembersKept (config : Config) (events : List Event) : Prop where
  wellFormed_iff :
    (∀ before, before <+: events →
      ∀ g ∈ (after config empty before).groups.records, g.WellFormed) ↔
    EverySuccess config events Event.BringsWellFormed
  distinct : EverySuccess config events Event.BringsDistinct →
    ∀ g ∈ (after config empty events).groups.records, DistinctMembers g.members

theorem wellFormed_after {config : Config} {events : List Event}
    (brought : EverySuccess config events Event.BringsWellFormed) :
    ∀ g ∈ (after config empty events).groups.records, g.WellFormed :=
  groups_lawful.content_after Group.wellFormed_ofContent brought
    fun _ _ _ _ _ _ _ _ _ hf _ hg => Patch.wellFormed_edit hf hg

/-- A group with ill-formed members that is created or put in place of another can be seen right
after it. -/
theorem bringsWellFormed_of_after {config : Config} {s : Stores} {e : Event}
    (succeeds : Succeeds config s e)
    (h : ∀ g ∈ (serve config s e).2.groups.records, g.WellFormed) : e.BringsWellFormed := by
  intro g hg
  obtain ⟨stored, hstored, hiff⟩ := groups_lawful.exists_stored Group.wellFormed_ofContent succeeds
    (DirectoryRequest.kind?_of_resource? hg) hg
  exact hiff.mp (h stored hstored)

/-- The members of stored groups after every history from empty stores. -/
theorem members_kept (config : Config) (events : List Event) : MembersKept config events where
  wellFormed_iff := by
    constructor
    · rintro h before e later rfl succeeds
      -- the stores right after the event are those of a shorter history
      refine bringsWellFormed_of_after succeeds ?_
      rw [← after_snoc]
      exact h (before ++ [e]) ⟨later, by rw [List.append_assoc, List.singleton_append]⟩
    · rintro brought before ⟨rest, rfl⟩
      exact wellFormed_after brought.of_append
  distinct brought := by
    refine groups_lawful.content_after Group.distinct_ofContent
      (fun before e later heq succeeds => (brought before e later heq succeeds).group) ?_
    intro before e later heq succeeds kind o ho f hf g hg
    exact Patch.distinct_edit hf ((brought before e later heq succeeds).patch kind o ho) hg

/-- A group whose members break every rule: one has a blank value, one is of no kind, and one is there
twice. -/
def motley : Group :=
  { Group.named "Team A" with
    members := [⟨" ", none, none⟩, ⟨"printer", none, some "Device"⟩, ⟨"u1", none, none⟩,
      ⟨"u1", none, none⟩] }

/-- A creation stores the members that it is given. -/
theorem motley_group_is_stored :
    ∃ g ∈ (after Config.default empty [⟨newYear, .groups (.create motley)⟩]).groups.records,
      (∃ m ∈ g.members, Text.isBlank m.value = true) ∧
      (∃ m ∈ g.members, m.type = some "Device") ∧
      ¬ DistinctMembers g.members := by
  have hkey : Service.requireNaturalKey motley = .ok "Team A" :=
    Service.requireNaturalKey_ok_iff.mpr ⟨rfl, by decide⟩
  have hstore : groups.store (after Config.default empty [⟨newYear, .groups (.create motley)⟩]) =
      ⟨[Service.stampNew Config.default newYear motley]⟩ := store_after_creation rfl hkey
  refine ⟨Service.stampNew Config.default newYear motley, ?_, ?_, ?_, ?_⟩
  · have hrecords := congrArg Store.records hstore
    exact hrecords ▸ List.mem_singleton_self _
  · exact ⟨⟨" ", none, none⟩, by decide, by decide⟩
  · exact ⟨⟨"printer", none, some "Device"⟩, by decide, rfl⟩
  · change ¬ [" ", "printer", "u1", "u1"].Nodup
    decide

end Directory

end Scim
