import Scim.Patch.Apply
import Scim.Proofs.Fallible

/-!
# What a patch can fail with

An operation of a patch is refused for two reasons only: its path names nothing that can be patched,
or its value does not suit the path. The fault carries the path as it was written. A patch fails
with the fault of one of its operations, so never with one that speaks of the stored resource.
-/

namespace Scim.Patch

open Fallible

namespace Operation

/-- The fault refuses the operation for its path or for its value. -/
inductive Blames (o : Operation) : Fault → Prop
  | path : o.Blames o.unsupported
  | value (details : String) : o.Blames (o.invalid details)

variable (o : Operation)

theorem requireValue_blames : FailsOnly o.Blames o.requireValue := by
  rw [requireValue]
  cases o.given? with
  | none => exact failsOnly_error (.value _)
  | some v => exact failsOnly_ok v

/-- A removal asks for no value. -/
theorem valued_blames {β : Type} {x : Except Fault (Option β)} (hx : FailsOnly o.Blames x) :
    FailsOnly o.Blames (match o.op with
      | .remove => .ok none
      | _ => x) := by
  cases o.op with
  | remove => exact failsOnly_ok none
  | add => exact hx
  | replace => exact hx

theorem textValue_blames : FailsOnly o.Blames o.textValue := by
  refine o.valued_blames (o.requireValue_blames.bind fun v _ => ?_)
  cases v with
  | str s => exact failsOnly_ok _
  | _ => exact failsOnly_error (.value _)

theorem truthValue_blames : FailsOnly o.Blames o.truthValue := by
  refine o.valued_blames (o.requireValue_blames.bind fun v _ => ?_)
  cases truthOf? v with
  | some b => exact failsOnly_ok _
  | none => exact failsOnly_error (.value _)

theorem listValue_blames {α : Type} (item : Json → Decoded α) :
    FailsOnly o.Blames (o.listValue item) := by
  refine o.requireValue_blames.bind fun v _ => ?_
  cases v with
  | arr vs =>
    simp only [pure_bind]
    cases Decode.items item vs with
    | ok xs => exact failsOnly_ok xs
    | error e => exact failsOnly_error (.value _)
  | obj fields =>
    simp only [pure_bind]
    cases Decode.items item [.obj fields] with
    | ok xs => exact failsOnly_ok xs
    | error e => exact failsOnly_error (.value _)
  | _ => exact failsOnly_error (.value _)

end Operation

section Users

variable (o : Operation)

theorem UserEdit.nameValue_blames : FailsOnly o.Blames (nameValue o) := by
  refine o.valued_blames (o.requireValue_blames.bind fun v _ => ?_)
  cases Name.decode v with
  | ok n => exact failsOnly_ok _
  | error e => exact failsOnly_error (.value _)

theorem UserEdit.emailEdit_blames : FailsOnly o.Blames (emailEdit o) := by
  rw [emailEdit]
  cases o.op with
  | add => exact (o.listValue_blames _).map _
  | replace => exact (o.listValue_blames _).map _
  | remove =>
    cases o.given? with
    | some v => exact (o.listValue_blames _).map _
    | none => exact failsOnly_ok _

theorem UserEdit.ofOperation_blames : FailsOnly o.Blames (ofOperation o) := by
  rw [ofOperation]
  cases UserTarget.ofPath? o.path with
  | none => exact failsOnly_error .path
  | some target =>
    cases target with
    | text field => exact o.textValue_blames.map _
    | active => exact o.truthValue_blames.map _
    | name => exact (nameValue_blames o).map _
    | namePart part => exact o.textValue_blames.map _
    | emails => exact emailEdit_blames o

end Users

section Groups

variable (o : Operation)

theorem GroupEdit.checkAll_blames (ms : List Member) : FailsOnly o.Blames (checkAll o ms) := by
  induction ms with
  | nil => exact failsOnly_ok []
  | cons m rest ih =>
    rw [checkAll]
    cases m.validate with
    | error e => exact failsOnly_error (.value _)
    | ok m => exact ih.bind fun rest _ => failsOnly_ok (m :: rest)

theorem GroupEdit.membersValue_blames : FailsOnly o.Blames (membersValue o) :=
  (o.listValue_blames _).bind fun ms _ => checkAll_blames o ms

theorem GroupEdit.memberEdit_blames : FailsOnly o.Blames (memberEdit o) := by
  rw [memberEdit]
  cases o.op with
  | add => exact (membersValue_blames o).map _
  | replace => exact (membersValue_blames o).map _
  | remove =>
    cases o.given? with
    | some v => exact (membersValue_blames o).map _
    | none => exact failsOnly_ok _

theorem GroupEdit.selectedEdit_blames (selector : List Char) :
    FailsOnly o.Blames (selectedEdit o selector) := by
  rw [selectedEdit]
  split
  · exact failsOnly_ok _
  · exact failsOnly_error .path

theorem GroupEdit.ofOperation_blames : FailsOnly o.Blames (ofOperation o) := by
  rw [ofOperation]
  cases GroupTarget.ofPath? o.path with
  | none => exact failsOnly_error .path
  | some target =>
    cases target with
    | displayName => exact o.textValue_blames.map _
    | externalId => exact o.textValue_blames.map _
    | members => exact memberEdit_blames o
    | selected selector => exact selectedEdit_blames o selector

end Groups

/-- Types of resources whose patch operations blame themselves alone. -/
class BlamesOperations (α : Type) [Patchable α] : Prop where
  edit_blames (o : Operation) : FailsOnly o.Blames (Patchable.edit o : Except Fault (α → α))

instance : BlamesOperations User :=
  ⟨fun o => (UserEdit.ofOperation_blames o).map UserEdit.apply⟩

instance : BlamesOperations Group :=
  ⟨fun o => (GroupEdit.ofOperation_blames o).map GroupEdit.apply⟩

variable {α : Type} [Patchable α] [BlamesOperations α]

end Scim.Patch
