import Mathlib.Data.List.Forall2
import Scim.Proofs.Membership
import Scim.Proofs.PatchPath

/-!
# Patching lists

The emails of a user and the members of a group are patched entry by entry, told apart by their
values. The two are patched in different ways: members are checked and dropped value by value, emails
are taken as they are read and dropped in one pass. What comes of it is the same for both.
-/

namespace Scim

open Fallible

namespace Patch

/-! ## The entries that a value lists -/

/-- A JSON array lists the entries that its items are read as; an object lists the one that it is
read as itself. -/
inductive Lists {E : Type} (ReadAs : Json → E → Prop) : Json → List E → Prop
  | array {items : List Json} {es : List E} (h : List.Forall₂ ReadAs items es) :
    Lists ReadAs (.arr items) es
  | single {fields : List (String × Json)} {e : E} (h : ReadAs (.obj fields) e) :
    Lists ReadAs (.obj fields) [e]

variable {E : Type} {ReadAs : Json → E → Prop} {Valid : E → Prop} {v : Json} {es : List E}

/-- What is listed has a value, so it is not passed over. -/
theorem Lists.given? (h : Lists ReadAs v es) (op : Op) (path : String) :
    (Operation.mk op path (some v)).given? = some v := by
  cases h with
  | array h => rfl
  | single h => rfl

theorem forall₂_and_iff {items : List Json} :
    List.Forall₂ (fun v e => ReadAs v e ∧ Valid e) items es ↔
      List.Forall₂ ReadAs items es ∧ ∀ e ∈ es, Valid e := by
  constructor
  · intro h
    induction h with
    | nil => exact ⟨.nil, fun e he => (by cases he)⟩
    | cons hfirst _ ih =>
      exact ⟨.cons hfirst.1 ih.1, List.forall_mem_cons.mpr ⟨hfirst.2, ih.2⟩⟩
  · rintro ⟨h, hvalid⟩
    induction h with
    | nil => exact .nil
    | cons hfirst _ ih =>
      obtain ⟨he, hrest⟩ := List.forall_mem_cons.mp hvalid
      exact .cons ⟨hfirst, he⟩ (ih hrest)

/-- Entries that are checked besides are listed as long as all of them are valid. -/
theorem lists_and_iff :
    Lists (fun v e => ReadAs v e ∧ Valid e) v es ↔ Lists ReadAs v es ∧ ∀ e ∈ es, Valid e := by
  constructor
  · rintro (h | ⟨hread, hvalid⟩)
    · exact (forall₂_and_iff.mp h).imp_left .array
    · exact ⟨.single hread, List.forall_mem_singleton.mpr hvalid⟩
  · rintro ⟨h | hread, hvalid⟩
    · exact .array (forall₂_and_iff.mpr ⟨h, hvalid⟩)
    · exact .single ⟨hread, hvalid _ List.mem_cons_self⟩

theorem items_ok_iff {item : Json → Decoded E} {vs : List Json} :
    Decode.items item vs = .ok es ↔ List.Forall₂ (fun v e => item v = .ok e) vs es := by
  induction vs generalizing es with
  | nil =>
    rw [List.forall₂_nil_left_iff]
    exact ⟨fun h => (Except.ok.inj h).symm, fun h => congrArg Except.ok h.symm⟩
  | cons v rest ih =>
    rw [Decode.items, List.forall₂_cons_left_iff, bind_ok_iff]
    constructor
    · rintro ⟨e, he, h⟩
      obtain ⟨es, hes, heq⟩ := bind_ok_iff.mp h
      exact ⟨e, es, he, ih.mp hes, (Except.ok.inj heq).symm⟩
    · rintro ⟨e, es, he, hes, rfl⟩
      exact ⟨e, he, bind_ok_iff.mpr ⟨es, ih.mpr hes, rfl⟩⟩

theorem Operation.requireValue_ok_iff {o : Operation} :
    o.requireValue = .ok v ↔ o.given? = some v := by
  rw [requireValue]
  cases o.given? with
  | none => exact ⟨fun h => (by cases h), fun h => (by cases h)⟩
  | some w => exact ⟨fun h => congrArg some (Except.ok.inj h), fun h => congrArg _ (Option.some.inj h)⟩

/-- Items that cannot be read make the value of the operation invalid. -/
theorem Operation.readItems_ok_iff {o : Operation} {item : Json → Decoded E} {vs : List Json} :
    (match Decode.items item vs with
      | .ok xs => pure xs
      | .error e => throw (o.invalid e.message)) = (.ok es : Except Fault (List E)) ↔
      List.Forall₂ (fun v e => item v = .ok e) vs es := by
  rw [← items_ok_iff]
  cases Decode.items item vs with
  | ok xs => exact ⟨fun h => congrArg _ (Except.ok.inj h), fun h => congrArg _ (Except.ok.inj h)⟩
  | error e => exact ⟨fun h => (by cases h), fun h => (by cases h)⟩

/-- The value of an operation is read as the entries that it lists. -/
theorem Operation.listValue_ok_iff {o : Operation} {item : Json → Decoded E} :
    o.listValue item = .ok es ↔
      ∃ v, o.given? = some v ∧ Lists (fun v e => item v = .ok e) v es := by
  rw [listValue, bind_ok_iff]
  refine exists_congr fun v => and_congr requireValue_ok_iff ?_
  cases v with
  | arr vs =>
    refine readItems_ok_iff.trans ⟨.array, ?_⟩
    rintro ⟨h⟩
    exact h
  | obj fields =>
    refine readItems_ok_iff.trans ⟨fun h => ?_, ?_⟩
    · obtain ⟨e, rest, he, hrest, rfl⟩ := List.forall₂_cons_left_iff.mp h
      cases List.forall₂_nil_left_iff.mp hrest
      exact .single he
    · rintro (_ | he)
      exact .cons he .nil
  | _ => exact ⟨fun h => (by cases h), fun h => (by cases h)⟩

end Patch

/-- Types of resources that have a list with values. -/
class Listed (α : Type) where
  Entry : Type
  value : Entry → String
  /-- The name of the list in JSON. -/
  name : String
  entries : α → List Entry
  withEntries : α → List Entry → α
  /-- The JSON value is read as this entry, and the entry passes the checks. -/
  ReadAs : Json → Entry → Prop
  /-- How the value of an operation is read. -/
  listed : Patch.Operation → Except Fault (List Entry)

instance : Listed User where
  Entry := Email
  value := Email.value
  name := "emails"
  entries := User.emails
  withEntries u emails := { u with emails }
  ReadAs v e := Email.decode v = .ok e
  listed o := o.listValue Email.decode

instance : Listed Group where
  Entry := Member
  value := Member.value
  name := "members"
  entries := Group.members
  withEntries g members := { g with members }
  ReadAs v m := Member.decode v = .ok m ∧ m.WellFormed
  listed := Patch.GroupEdit.membersValue

namespace Listed

variable {α : Type}

/-- The path names the list. -/
def Named (α : Type) [Attributed α] [Listed α] (path : String) : Prop :=
  Text.sameLetters (Attributed.reads α path) (name α) = true

variable [Listed α]

/-- The edit of the list that an operation stands for. -/
def edit (α : Type) [Listed α] (o : Patch.Operation) : Except Fault (α → α) :=
  match o.op with
  | .add => (listed o).map fun es r =>
    withEntries r (es.foldl (Keyed.insertNew (value (α := α))) (entries r))
  | .replace => (listed o).map fun es r => withEntries r es
  | .remove =>
    match o.given? with
    | some _ => (listed o).map fun es r =>
      withEntries r (Keyed.without (value (α := α)) (entries r) es)
    | none => .ok fun r => withEntries r []

end Listed

class LawfulListed (α : Type) [Patchable α] [Attributed α] [Listed α] : Prop where
  entries_withEntries (r : α) (es : List (Listed.Entry α)) :
    Listed.entries (Listed.withEntries r es) = es
  withEntries_withEntries (r : α) (es es' : List (Listed.Entry α)) :
    Listed.withEntries (Listed.withEntries r es) es' = Listed.withEntries r es'
  withEntries_entries (r : α) : Listed.withEntries r (Listed.entries r) = r
  listed_ok_iff {o : Patch.Operation} {es : List (Listed.Entry α)} :
    Listed.listed o = .ok es ↔ ∃ v, o.given? = some v ∧ Patch.Lists Listed.ReadAs v es
  edit_eq {o : Patch.Operation} (named : Listed.Named α o.path) : Patchable.edit o = Listed.edit α o

instance : LawfulListed User where
  entries_withEntries _ _ := rfl
  withEntries_withEntries _ _ _ := rfl
  withEntries_entries _ := rfl
  listed_ok_iff := Patch.Operation.listValue_ok_iff
  edit_eq {o} named := by
    have htarget : Patch.UserTarget.ofPath? o.path = some .emails :=
      Patch.UserTarget.ofPath?_eq_some_iff.mpr named
    simp only [Patchable.edit, Patch.UserEdit.ofOperation, htarget, Patch.UserEdit.emailEdit,
      Listed.edit]
    cases o.op with
    | add => exact map_map _ _ _
    | replace => exact map_map _ _ _
    | remove =>
      cases o.given? with
      | some v => exact map_map _ _ _
      | none => rfl

instance : LawfulListed Group where
  entries_withEntries _ _ := rfl
  withEntries_withEntries _ _ _ := rfl
  withEntries_entries _ := rfl
  listed_ok_iff := by
    intro o es
    refine Patch.GroupEdit.membersValue_ok_iff.trans ?_
    rw [Patch.Operation.listValue_ok_iff]
    constructor
    · rintro ⟨⟨v, hgiven, hlists⟩, hformed⟩
      exact ⟨v, hgiven, Patch.lists_and_iff.mpr ⟨hlists, hformed⟩⟩
    · rintro ⟨v, hgiven, h⟩
      obtain ⟨hlists, hformed⟩ := Patch.lists_and_iff.mp h
      exact ⟨⟨v, hgiven, hlists⟩, hformed⟩
  edit_eq {o} named := by
    have htarget : Patch.GroupTarget.ofPath? o.path = some .members :=
      Patch.GroupTarget.ofPath?_eq_some_iff.mpr named
    simp only [Patchable.edit, Patch.GroupEdit.ofOperation, htarget, Patch.GroupEdit.memberEdit,
      Listed.edit]
    cases o.op with
    | add => exact map_map _ _ _
    | replace => exact map_map _ _ _
    | remove =>
      cases o.given? with
      | some v =>
        refine (map_map _ _ _).trans (congrArg (Except.map · _) ?_)
        funext ms g
        exact Patch.GroupEdit.foldl_removeMember _ g
      | none => rfl

/-! ## What operations on the list do -/

section

variable {α : Type} [Listed α]

/-- What the operation makes of the resource when its path names the list. -/
inductive Listed.Outcome (r : α) : Patch.Operation → α → Prop
  | add {path : String} {v : Json} {es : List (Entry α)} (given : Patch.Lists ReadAs v es) :
    Outcome r ⟨.add, path, some v⟩ (withEntries r
      (entries r ++ Keyed.newcomers (value (α := α)) (entries r) es))
  | replace {path : String} {v : Json} {es : List (Entry α)} (given : Patch.Lists ReadAs v es) :
    Outcome r ⟨.replace, path, some v⟩ (withEntries r es)
  | remove {path : String} {v : Json} {es : List (Entry α)} (given : Patch.Lists ReadAs v es) :
    Outcome r ⟨.remove, path, some v⟩ (withEntries r
      (Keyed.without (value (α := α)) (entries r) es))
  | clear {path : String} {v : Option Json} (absent : v = none ∨ v = some .null) :
    Outcome r ⟨.remove, path, v⟩ (withEntries r [])

variable [Patchable α] [Attributed α]

/-- How a list is patched: what the operations on it do, and what follows for its values. -/
structure ListPatched (α : Type) [Patchable α] [Attributed α] [Listed α] : Prop where
  applied_iff {o : Patch.Operation} (named : Listed.Named α o.path) {r p : α} :
    Patch.applyOperation r o = .ok p ↔ Listed.Outcome r o p
  entries_withEntries (r : α) (es : List (Listed.Entry α)) :
    Listed.entries (Listed.withEntries r es) = es
  add_distinct {o : Patch.Operation} (named : Listed.Named α o.path) (adds : o.op = .add) {r p : α}
    (h : Patch.applyOperation r o = .ok p)
    (distinct : Keyed.Distinct (Listed.value (α := α)) (Listed.entries r)) :
    Keyed.Distinct (Listed.value (α := α)) (Listed.entries p)
  /-- What is added to a list that has none of its values can be removed again. -/
  add_remove {path path' : String} (named : Listed.Named α path) (named' : Listed.Named α path')
    {v v' : Json} {es : List (Listed.Entry α)} (given : Patch.Lists Listed.ReadAs v es)
    (given' : Patch.Lists Listed.ReadAs v' es) {r : α}
    (new : ∀ e ∈ es, Listed.value e ∉ (Listed.entries r).map Listed.value) :
    Patch.applyOperations r [⟨.add, path, some v⟩, ⟨.remove, path', some v'⟩] = .ok r

variable [LawfulListed α]

namespace Patch

theorem Operation.value_of_given? {o : Operation} {v : Json} (h : o.given? = some v) :
    o.value = some v := by
  rw [given?] at h
  split at h
  · cases h
  · exact h

theorem Operation.given?_eq_none_iff {o : Operation} :
    o.given? = none ↔ o.value = none ∨ o.value = some .null := by
  rw [given?]
  split
  · rename_i hnull
    exact ⟨fun _ => .inr hnull, fun _ => rfl⟩
  · rename_i hnull
    exact ⟨.inl, fun h => h.resolve_right hnull⟩

theorem listed_iff {op : Op} {path : String} {value : Option Json} {es : List (Listed.Entry α)} :
    Listed.listed ⟨op, path, value⟩ = .ok es ↔
      ∃ v, value = some v ∧ Lists Listed.ReadAs v es := by
  rw [LawfulListed.listed_ok_iff]
  constructor
  · rintro ⟨v, hgiven, hlists⟩
    exact ⟨v, Operation.value_of_given? hgiven, hlists⟩
  · rintro ⟨v, rfl, hlists⟩
    exact ⟨v, hlists.given? op path, hlists⟩

theorem outcome_of_applied {o : Operation} (named : Listed.Named α o.path) {r p : α}
    (h : applyOperation r o = .ok p) : Listed.Outcome r o p := by
  rw [applyOperation, LawfulListed.edit_eq named] at h
  obtain ⟨f, hf, rfl⟩ := map_ok_iff.mp h
  obtain ⟨op, path, value⟩ := o
  cases op with
  | add =>
    obtain ⟨es, hes, rfl⟩ := map_ok_iff.mp hf
    obtain ⟨v, rfl, hlists⟩ := listed_iff.mp hes
    dsimp only
    rw [Keyed.foldl_insertNew]
    exact .add hlists
  | replace =>
    obtain ⟨es, hes, rfl⟩ := map_ok_iff.mp hf
    obtain ⟨v, rfl, hlists⟩ := listed_iff.mp hes
    exact .replace hlists
  | remove =>
    rw [Listed.edit] at hf
    cases hgiven : (Operation.mk .remove path value).given? with
    | some v =>
      simp only [hgiven] at hf
      obtain ⟨es, hes, rfl⟩ := map_ok_iff.mp hf
      obtain ⟨v, rfl, hlists⟩ := listed_iff.mp hes
      exact .remove hlists
    | none =>
      simp only [hgiven] at hf
      cases hf
      exact .clear (Operation.given?_eq_none_iff.mp hgiven)

theorem applied_of_outcome {o : Operation} (named : Listed.Named α o.path) {r p : α}
    (h : Listed.Outcome r o p) : applyOperation r o = .ok p := by
  rw [applyOperation, LawfulListed.edit_eq named]
  refine map_ok_iff.mpr ?_
  cases h with
  | add hlists =>
    refine ⟨_, map_ok_iff.mpr ⟨_, listed_iff.mpr ⟨_, rfl, hlists⟩, rfl⟩, ?_⟩
    rw [Keyed.foldl_insertNew]
  | replace hlists =>
    exact ⟨_, map_ok_iff.mpr ⟨_, listed_iff.mpr ⟨_, rfl, hlists⟩, rfl⟩, rfl⟩
  | remove hlists =>
    simp only [Listed.edit, hlists.given?]
    exact ⟨_, map_ok_iff.mpr ⟨_, listed_iff.mpr ⟨_, rfl, hlists⟩, rfl⟩, rfl⟩
  | @clear path v absent =>
    have hgiven : (Operation.mk .remove path v).given? = none :=
      Operation.given?_eq_none_iff.mpr absent
    simp only [Listed.edit, hgiven]
    exact ⟨_, rfl, rfl⟩

theorem add_distinct {o : Operation} (named : Listed.Named α o.path) (adds : o.op = .add) {r p : α}
    (h : applyOperation r o = .ok p)
    (distinct : Keyed.Distinct (Listed.value (α := α)) (Listed.entries r)) :
    Keyed.Distinct (Listed.value (α := α)) (Listed.entries p) := by
  cases outcome_of_applied named h with
  | add hlists =>
    rw [LawfulListed.entries_withEntries, ← Keyed.foldl_insertNew]
    exact Keyed.distinct_foldl_insertNew distinct _
  | replace => cases adds
  | remove => cases adds
  | clear => cases adds

theorem add_remove {path path' : String} (named : Listed.Named α path)
    (named' : Listed.Named α path') {v v' : Json} {es : List (Listed.Entry α)}
    (given : Lists Listed.ReadAs v es) (given' : Lists Listed.ReadAs v' es) {r : α}
    (new : ∀ e ∈ es, Listed.value e ∉ (Listed.entries r).map Listed.value) :
    applyOperations r [⟨.add, path, some v⟩, ⟨.remove, path', some v'⟩] = .ok r := by
  have hnew : ∀ e ∈ es, Keyed.occurs Listed.value (Listed.entries r) e = false :=
    fun e he => Keyed.occurs_eq_false_iff.mpr (new e he)
  let old := Listed.entries r
  let added := Listed.withEntries r (old ++ Keyed.newcomers Listed.value old es)
  have hadded : applyOperation r ⟨.add, path, some v⟩ = .ok added :=
    applied_of_outcome (o := ⟨.add, path, some v⟩) named (.add given)
  have hremoved : applyOperation added ⟨.remove, path', some v'⟩ = .ok r := by
    have hdropped := applied_of_outcome (o := ⟨.remove, path', some v'⟩) named'
      (.remove (r := added) given')
    rwa [LawfulListed.entries_withEntries, LawfulListed.withEntries_withEntries,
      Keyed.without_newcomers hnew, LawfulListed.withEntries_entries] at hdropped
  exact bind_ok_iff.mpr ⟨added, hadded, bind_ok_iff.mpr ⟨r, hremoved, rfl⟩⟩

theorem listPatched : ListPatched α where
  applied_iff named := ⟨outcome_of_applied named, applied_of_outcome named⟩
  entries_withEntries := LawfulListed.entries_withEntries
  add_distinct := add_distinct
  add_remove := add_remove

/-- Patches neither lose nor repeat nor reorder the entries of the lists of users and groups. -/
theorem lists_patched : ListPatched User ∧ ListPatched Group :=
  ⟨listPatched, listPatched⟩

end Patch

end

namespace Patch

/-- Of the members that are listed only the first of a new value is added, and members that were
there twice stay so. -/
theorem member_listed_twice_is_added_once :
    applyOperation
      { Group.named "Team A" with members := [⟨"u1", none, none⟩, ⟨"u1", none, none⟩] }
      (.add " Members" (.arr [.obj [("value", .str "u2")], .obj [("value", .str "u1")],
        .obj [("value", .str "u2"), ("display", .str "again")]])) =
      .ok { Group.named "Team A" with
        members := [⟨"u1", none, none⟩, ⟨"u1", none, none⟩, ⟨"u2", none, none⟩] } := by
  have named : Listed.Named Group " Members" := by
    rw [Listed.Named]
    decide
  have given : Lists (Listed.ReadAs (α := Group))
      (.arr [.obj [("value", .str "u2")], .obj [("value", .str "u1")],
        .obj [("value", .str "u2"), ("display", .str "again")]])
      [⟨"u2", none, none⟩, ⟨"u1", none, none⟩, ⟨"u2", some "again", none⟩] := by
    refine .array (.cons ⟨rfl, ?_⟩ (.cons ⟨rfl, ?_⟩ (.cons ⟨rfl, ?_⟩ .nil)))
    all_goals exact ⟨by decide, nofun⟩
  exact (lists_patched.2.applied_iff (o := .add " Members" _) named).mpr (.add given)

end Patch

end Scim
