import Mathlib.Data.List.Forall2
import Scim.Proofs.PatchOrder

/-!
# Names in patches

A name can be written as an object or part by part. The object stands for a name that is removed and
then written in the parts that the object gives, in any order: the first of them builds the name
again, and each leaves the others alone. Where the object gives no part, no name is left. So a name
that is there has some part, and no patch changes that; an operation on the name brings it about even
where it did not hold before.
-/

namespace Scim

open Fallible

/-- The parts that the name has. -/
def Name.parts (n : Name) : List Patch.NamePart :=
  [.formatted, .familyName, .givenName].filter fun part => (n.part part).isSome

/-- The user has no name, or one with some part. -/
def User.NameFilled (u : User) : Prop :=
  ∀ n, u.name = some n → ∃ part s, n.part part = some s

theorem Name.isEmpty_iff {n : Name} : n.isEmpty = true ↔ ∀ part, n.part part = none := by
  simp only [isEmpty, Bool.and_eq_true, Option.isNone_iff_eq_none]
  constructor
  · rintro ⟨⟨hformatted, hfamily⟩, hgiven⟩ part
    cases part
    · exact hformatted
    · exact hfamily
    · exact hgiven
  · intro h
    exact ⟨⟨h .formatted, h .familyName⟩, h .givenName⟩

/-- What is kept of a name has some part. -/
theorem Name.exists_part_of_orNone {n m : Name} (h : n.orNone = some m) :
    ∃ part s, m.part part = some s := by
  rw [orNone] at h
  split at h
  · cases h
  · next hfilled =>
    cases h
    rw [isEmpty_iff, not_forall] at hfilled
    obtain ⟨part, hpart⟩ := hfilled
    exact ⟨part, Option.ne_none_iff_exists'.mp hpart⟩

namespace Patch

variable {o : Operation} {e : UserEdit} {n : Name} {u p : User} {q : Request}

/-! ## Operations on the name and on its parts -/

/-- The operation removes the name. -/
structure ClearsName (o : Operation) : Prop where
  named : Text.sameLetters o.path UserTarget.name.spelling = true
  clears : o.op = .remove

/-- The operation writes the name that is read from its value. -/
structure WritesName (n : Name) (o : Operation) : Prop where
  named : Text.sameLetters o.path UserTarget.name.spelling = true
  writes : o.op ≠ .remove
  given : ∃ v, o.value = some v ∧ Name.decode v = .ok n

/-- The operation writes this part, which the name has, as it is in the name. -/
structure WritesPart (n : Name) (part : NamePart) (o : Operation) : Prop where
  named : Text.sameLetters o.path (UserTarget.namePart part).spelling = true
  writes : o.op ≠ .remove
  given : ∃ s, o.value = some (.str s) ∧ n.part part = some s

theorem UserEdit.ofOperation_name
    (named : Text.sameLetters o.path UserTarget.name.spelling = true) :
    ofOperation o = (nameValue o).map .setName := by
  rw [ofOperation, UserTarget.ofPath?_eq_some_iff.mpr named]

theorem UserEdit.ofOperation_namePart {part : NamePart}
    (named : Text.sameLetters o.path (UserTarget.namePart part).spelling = true) :
    ofOperation o = o.textValue.map (.setNamePart part) := by
  rw [ofOperation, UserTarget.ofPath?_eq_some_iff.mpr named]

/-- What is read as a name is not `null`, which would count as no value at all. -/
theorem given?_of_decode_name {v : Json} (given : o.value = some v) (read : Name.decode v = .ok n) :
    o.given? = some v := by
  rw [Operation.given?, given]
  cases v with
  | null => cases read
  | _ => rfl

theorem WritesName.nameValue_eq (h : WritesName n o) :
    UserEdit.nameValue o = .ok n.orNone := by
  obtain ⟨-, writes, v, given, read⟩ := h
  have required : o.requireValue = .ok v := by
    rw [Operation.requireValue, given?_of_decode_name given read]
  rw [UserEdit.nameValue]
  cases hop : o.op with
  | remove => exact absurd hop writes
  | add | replace =>
    simp only [required, ok_bind, read]
    rfl

theorem ClearsName.nameValue_eq (h : ClearsName o) : UserEdit.nameValue o = .ok none := by
  rw [UserEdit.nameValue, h.clears]

theorem WritesPart.textValue_eq {part : NamePart} (h : WritesPart n part o) :
    o.textValue = .ok (n.part part) := by
  obtain ⟨-, writes, s, given, hpart⟩ := h
  rw [hpart, Operation.textValue, Operation.requireValue, Operation.given?, given]
  cases hop : o.op with
  | remove => exact absurd hop writes
  | add | replace => rfl

/-- A name that is written as a whole has some part. -/
theorem UserEdit.exists_part_of_nameValue {m : Name} (h : nameValue o = .ok (some m)) :
    ∃ part s, m.part part = some s := by
  have kept {n : Name} (h : (.ok n.orNone : Except Fault (Option Name)) = .ok (some m)) :
      ∃ part s, m.part part = some s := Name.exists_part_of_orNone (Except.ok.inj h)
  rw [nameValue] at h
  cases hop : o.op with
  | remove =>
    rw [hop] at h
    cases h
  | add | replace =>
    rw [hop] at h
    obtain ⟨v, -, h⟩ := bind_ok_iff.mp h
    split at h
    · exact kept h
    · cases h

/-! ## The whole name and its parts -/

/-- The user with this part of the name as it is in another name. -/
def takePart (n : Name) (u : User) (part : NamePart) : User :=
  UserEdit.apply (.setNamePart part (n.part part)) u

theorem applyOperation_name {value : Option Name}
    (named : Text.sameLetters o.path UserTarget.name.spelling = true)
    (read : UserEdit.nameValue o = .ok value) (u : User) :
    applyOperation u o = .ok { u with name := value } := by
  change ((UserEdit.ofOperation o).map UserEdit.apply).map (fun f => f u) = _
  rw [UserEdit.ofOperation_name named, read]
  rfl

theorem WritesPart.applyOperation_eq {part : NamePart} (h : WritesPart n part o) (u : User) :
    applyOperation u o = .ok (takePart n u part) := by
  change ((UserEdit.ofOperation o).map UserEdit.apply).map (fun f => f u) = _
  rw [UserEdit.ofOperation_namePart h.named, h.textValue_eq]
  rfl

/-- Parts that are written one after the other are taken one after the other. -/
theorem applyOperations_parts {order : List NamePart} {parts : List Operation}
    (written : List.Forall₂ (WritesPart n) order parts) (u : User) :
    applyOperations u parts = .ok (order.foldl (takePart n) u) := by
  induction written generalizing u with
  | nil => rfl
  | cons first _ ih =>
    rw [applyOperations, first.applyOperation_eq, ok_bind, List.foldl_cons]
    exact ih _

/-- The order in which parts are taken does not matter. -/
theorem foldl_takePart_perm {order order' : List NamePart} (perm : order.Perm order') (u : User) :
    order.foldl (takePart n) u = order'.foldl (takePart n) u := by
  refine perm.foldl_eq' (fun part _ other _ u => ?_) u
  by_cases h : part = other
  · rw [h]
  · exact UserEdit.setNamePart_comm (Ne.symm h) _ _ u

/-- A name is taken over as a whole with all of its parts. -/
theorem foldl_takePart_parts (n : Name) (u : User) :
    n.parts.foldl (takePart n) { u with name := none } = { u with name := n.orNone } := by
  obtain ⟨formatted, familyName, givenName⟩ := n
  cases formatted <;> cases familyName <;> cases givenName <;> rfl

theorem applyOperations_clear_parts {clear : Operation} {order : List NamePart}
    {parts : List Operation} (clears : ClearsName clear) (perm : order.Perm n.parts)
    (written : List.Forall₂ (WritesPart n) order parts) (u : User) :
    applyOperations u (clear :: parts) = .ok { u with name := n.orNone } := by
  rw [applyOperations, applyOperation_name clears.named clears.nameValue_eq, ok_bind,
    applyOperations_parts written, foldl_takePart_perm perm, foldl_takePart_parts]

/-! ## Names without parts -/

/-- An edit of the name leaves it with some part or removes it. Any other edit leaves it alone. -/
theorem UserEdit.nameFilled_apply (h : ofOperation o = .ok e)
    (before : Attributed.Names (α := User) o.path UserAttribute.name ∨ u.NameFilled) :
    (e.apply u).NameFilled := by
  have spelled := UserTarget.ofPath?_eq_some_iff.mp (target_of_ofOperation h)
  by_cases covers : e.target.Covers .name
  · intro m hm
    cases e with
    | setName value =>
      rw [ofOperation_name spelled] at h
      obtain ⟨value', hvalue, heq⟩ := map_ok_iff.mp h
      cases heq
      rw [show value = some m from hm] at hvalue
      exact exists_part_of_nameValue hvalue
    | setNamePart part value => exact Name.exists_part_of_orNone hm
    | _ => cases covers
  · have unnamed : ¬ Attributed.Names (α := User) o.path UserAttribute.name :=
      fun named => covers ((UserTarget.names_iff spelled).mp named)
    have same : (e.apply u).name = u.name := value_apply (a := .name) covers u
    rw [User.NameFilled, same]
    exact before.resolve_left unnamed

theorem nameFilled_edit {f : User → User} (h : Patchable.edit o = .ok f) (u : User)
    (before : Attributed.Names (α := User) o.path UserAttribute.name ∨ u.NameFilled) :
    (f u).NameFilled := by
  obtain ⟨e, he, rfl⟩ := map_ok_iff.mp h
  exact UserEdit.nameFilled_apply he before

theorem nameFilled_applyOperations {os : List Operation} (h : applyOperations u os = .ok p)
    (filled : u.NameFilled) : p.NameFilled :=
  applyOperations_preserves (fun _ _ _ hf u hu => nameFilled_edit hf u (.inr hu)) h filled

/-- From the first operation on the name on, the name is filled. -/
theorem nameFilled_of_named {os : List Operation} (h : applyOperations u os = .ok p) (ho : o ∈ os)
    (named : Attributed.Names (α := User) o.path UserAttribute.name) : p.NameFilled := by
  -- Nothing is known of the name before `o`, and the operations after `o` keep it filled.
  obtain ⟨before, after, rfl⟩ := List.append_of_mem ho
  rw [applyOperations_append] at h
  obtain ⟨v, -, h⟩ := bind_ok_iff.mp h
  obtain ⟨w, hw, h⟩ := bind_ok_iff.mp h
  obtain ⟨f, hf, rfl⟩ := map_ok_iff.mp hw
  exact nameFilled_applyOperations h (nameFilled_edit hf v (.inl named))

/-- What patches make of names. -/
structure NamesWritten : Prop where
  /-- To write a name is to remove what is there and to write each of its parts, in any order. -/
  whole {n : Name} {o clear : Operation} {order : List NamePart} {parts : List Operation}
    (writes : WritesName n o) (clears : ClearsName clear) (perm : order.Perm n.parts)
    (written : List.Forall₂ (WritesPart n) order parts) (u : User) :
    apply u (.ofOperations [o]) = .ok { u with name := n.orNone } ∧
      apply u (.ofOperations (clear :: parts)) = .ok { u with name := n.orNone }
  /-- No patch leaves a name without parts where there was none before. -/
  filled {u p : User} {q : Request} (h : apply u q = .ok p) (filled : u.NameFilled) : p.NameFilled
  /-- A patch with an operation on the name, or on a part of it, does not leave one in any case. -/
  refilled {u p : User} {q : Request} (h : apply u q = .ok p) {o : Operation}
    (ho : o ∈ q.operations) (named : Attributed.Names (α := User) o.path UserAttribute.name) :
    p.NameFilled

/-- A name is written like its parts, and none is left without a part. -/
theorem names_written : NamesWritten where
  whole writes clears perm written u :=
    ⟨(apply_alone u _).trans (applyOperation_name writes.named writes.nameValue_eq u),
      applyOperations_clear_parts clears perm written u⟩
  filled h filled := nameFilled_applyOperations h filled
  refilled h _ ho named := nameFilled_of_named h ho named

/-- A name that comes as an array without its first part, and its parts in another order. The patch
after it removes all that is left of the name. -/
theorem names_written_from_array :
    let n : Name := ⟨none, some "Smith", some "Alice"⟩
    let o : Operation := .replace "Name" (.arr [.null, .str "Smith", .str "Alice"])
    let parts : List Operation :=
      [.add "name.GivenName" (.str "Alice"), .add "name.familyName" (.str "Smith")]
    let u : User := { User.named "alice" with name := some ⟨some "Alice Liddell", none, none⟩ }
    let q : Request := .ofOperations [.remove "name.familyName", .remove "name.givenName"]
    Name.decode (.arr [.null, .str "Smith", .str "Alice"]) = .ok n ∧
      apply u (.ofOperations [o]) = .ok { u with name := some n } ∧
      apply u (.ofOperations (.remove "name" :: parts)) = .ok { u with name := some n } ∧
      apply { u with name := some n } q = .ok { u with name := none } ∧
      User.NameFilled { u with name := some n } ∧ User.NameFilled { u with name := none } := by
  intro n o parts u q
  have read : Name.decode (.arr [.null, .str "Smith", .str "Alice"]) = .ok n := rfl
  have writes : WritesName n o := ⟨by decide, by decide, _, rfl, read⟩
  have clears : ClearsName (.remove "name") := ⟨by decide, rfl⟩
  have given : WritesPart n .givenName (.add "name.GivenName" (.str "Alice")) :=
    ⟨by decide, by decide, _, rfl, rfl⟩
  have family : WritesPart n .familyName (.add "name.familyName" (.str "Smith")) :=
    ⟨by decide, by decide, _, rfl, rfl⟩
  have perm : [NamePart.givenName, .familyName].Perm n.parts := .swap _ _ _
  obtain ⟨atOnce, byParts⟩ :=
    names_written.whole writes clears perm (.cons given (.cons family .nil)) u
  have cleared : apply { u with name := some n } q = .ok { u with name := none } := rfl
  have filled : User.NameFilled { u with name := some n } :=
    names_written.refilled atOnce List.mem_cons_self ⟨.name, by decide, .name⟩
  exact ⟨read, atOnce, byParts, cleared, filled, names_written.filled cleared filled⟩

end Patch

end Scim
