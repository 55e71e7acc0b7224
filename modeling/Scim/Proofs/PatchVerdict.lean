import Scim.Proofs.PatchFault

/-!
# Verdicts on patches

Whether an operation can be made is settled by its kind, its path and its value. A patch is therefore
taken by every resource of a type or by none: it is taken if each of its operations is taken alone,
and otherwise it is refused as the first one is that is not. Resources that are patched one operation
after the other are different ones each time, and the verdict on an operation is still the same.
-/

namespace Scim.Patch

open Fallible

section

variable (α : Type) [Patchable α]

/-- Every resource of the type takes the operation alone. -/
def Valid (o : Operation) : Prop :=
  ∀ r : α, ∃ p, apply r (.ofOperations [o]) = .ok p

/-- Every resource of the type refuses the operation alone, and always for this. -/
def RefusedFor (o : Operation) (f : Fault) : Prop :=
  ∀ r : α, apply r (.ofOperations [o]) = .error f

/-- The first of the operations that is refused alone is refused for this. -/
inductive FirstRefused : List Operation → Fault → Prop
  | here {o : Operation} {rest : List Operation} {f : Fault} (refused : RefusedFor α o f) :
    FirstRefused (o :: rest) f
  | later {o : Operation} {rest : List Operation} {f : Fault} (valid : Valid α o)
    (refused : FirstRefused rest f) : FirstRefused (o :: rest) f

/-- How patches of a type of resources are judged. -/
structure Judged : Prop where
  /-- An operation that is refused is to blame itself. -/
  alone (o : Operation) : Valid α o ∨ ∃ f, RefusedFor α o f ∧ o.Blames f
  taken_iff (q : Request) (r : α) :
    (∃ p, apply r q = .ok p) ↔ ∀ o ∈ q.operations, Valid α o
  refused_iff (q : Request) (r : α) (f : Fault) :
    apply r q = .error f ↔ FirstRefused α q.operations f
  /-- No two resources differ in the verdict. -/
  alike (q : Request) (r r' : α) :
    (∃ p p', apply r q = .ok p ∧ apply r' q = .ok p') ∨
      ∃ f, apply r q = .error f ∧ apply r' q = .error f

end

variable {α : Type} [Patchable α] {o : Operation} {os : List Operation} {f : Fault}

/-! ## One operation -/

theorem apply_alone (r : α) (o : Operation) :
    apply r (.ofOperations [o]) = (Patchable.edit o).map fun edit => edit r := by
  change (applyOperation r o >>= fun p => applyOperations p []) = applyOperation r o
  cases applyOperation r o with
  | error f => rfl
  | ok p => rfl

theorem valid_of_edit {edit : α → α} (h : Patchable.edit o = .ok edit) : Valid α o := by
  intro r
  rw [apply_alone, h]
  exact ⟨edit r, rfl⟩

theorem refusedFor_of_edit (h : (Patchable.edit o : Except Fault (α → α)) = .error f) :
    RefusedFor α o f := by
  intro r
  rw [apply_alone, h]
  rfl

/-- One resource is enough to tell that an operation is valid. -/
theorem exists_edit_of_alone {r p : α} (h : apply r (.ofOperations [o]) = .ok p) :
    ∃ edit : α → α, Patchable.edit o = .ok edit ∧ edit r = p := by
  rw [apply_alone] at h
  exact map_ok_iff.mp h

/-! ## One operation after the other -/

theorem applyOperations_cons (r : α) (o : Operation) (rest : List Operation) :
    applyOperations r (o :: rest) =
      apply r (.ofOperations [o]) >>= fun p => applyOperations p rest := by
  rw [apply_alone]
  rfl

theorem taken_of_valid (r : α) (valid : ∀ o ∈ os, Valid α o) :
    ∃ p, applyOperations r os = .ok p := by
  induction os generalizing r with
  | nil => exact ⟨r, rfl⟩
  | cons o rest ih =>
    obtain ⟨hfirst, hrest⟩ := List.forall_mem_cons.mp valid
    obtain ⟨p, hp⟩ := hfirst r
    rw [applyOperations_cons, hp, ok_bind]
    exact ih p hrest

theorem valid_of_taken {r p : α} (h : applyOperations r os = .ok p) : ∀ o ∈ os, Valid α o := by
  induction os generalizing r with
  | nil => exact nofun
  | cons o rest ih =>
    rw [applyOperations_cons] at h
    obtain ⟨r', hfirst, hrest⟩ := bind_ok_iff.mp h
    obtain ⟨edit, hedit, -⟩ := exists_edit_of_alone hfirst
    exact List.forall_mem_cons.mpr ⟨valid_of_edit hedit, ih hrest⟩

theorem refused_of_firstRefused (h : FirstRefused α os f) (r : α) :
    applyOperations r os = .error f := by
  induction h generalizing r with
  | here refused => rw [applyOperations_cons, refused r, error_bind]
  | later valid _ ih =>
    obtain ⟨p, hp⟩ := valid r
    rw [applyOperations_cons, hp, ok_bind]
    exact ih p

theorem firstRefused_of_refused {r : α} (h : applyOperations r os = .error f) :
    FirstRefused α os f := by
  induction os generalizing r with
  | nil => cases h
  | cons o rest ih =>
    rw [applyOperations_cons] at h
    cases hedit : (Patchable.edit o : Except Fault (α → α)) with
    | error f' =>
      rw [refusedFor_of_edit hedit r, error_bind] at h
      cases h
      exact .here (refusedFor_of_edit hedit)
    | ok edit =>
      obtain ⟨p, hp⟩ := valid_of_edit hedit r
      rw [hp, ok_bind] at h
      exact .later (valid_of_edit hedit) (ih h)

theorem judged [BlamesOperations α] : Judged α where
  alone o := by
    cases hedit : (Patchable.edit o : Except Fault (α → α)) with
    | ok edit => exact .inl (valid_of_edit hedit)
    | error f =>
      exact .inr ⟨f, refusedFor_of_edit hedit, BlamesOperations.edit_blames o f hedit⟩
  taken_iff q r := ⟨fun ⟨_, hp⟩ => valid_of_taken hp, taken_of_valid r⟩
  refused_iff q r f := ⟨firstRefused_of_refused, fun h => refused_of_firstRefused h r⟩
  alike q r r' := by
    cases hr : apply r q with
    | ok p =>
      obtain ⟨p', hp'⟩ := taken_of_valid r' (valid_of_taken hr)
      exact .inl ⟨p, p', rfl, hp'⟩
    | error f =>
      exact .inr ⟨f, rfl, refused_of_firstRefused (firstRefused_of_refused hr) r'⟩

/-- Patches are judged by their operations alone, for users and for groups. -/
theorem verdicts_ignore_resources : Judged User ∧ Judged Group :=
  ⟨judged, judged⟩

end Scim.Patch
