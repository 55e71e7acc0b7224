import Scim.Proofs.KeptStores
import Scim.Proofs.PatchFault
import Scim.Proofs.Reads

/-!
# How writes end

Whether a write succeeds, and with which fault it fails otherwise, is settled by the records of its
kind. A creation is only stopped by a record that has its natural key. A replacement or a patch
needs a record of its id, and is only stopped by the key of another record. A removal always
succeeds. The two ways into a directory make no difference.
-/

namespace Scim

open Fallible
open Time (Instant)

namespace Store

variable {α : Type} [Resource α]

/-- The record has the natural key in some case of its letters. -/
def SharesKey (key : String) (r : α) : Prop :=
  ∃ k, Resource.naturalKey r = some k ∧ Text.lowerWhole k = Text.lowerWhole key

/-- A record of another id has the natural key. -/
def KeyTakenBeside (s : Store α) (id key : String) : Prop :=
  ∃ r ∈ s.records, Resource.id r ≠ some id ∧ SharesKey key r

variable {s : Store α} {id key : String}

end Store

/-! ## One service -/

namespace Service

variable {α : Type} [Managed α]

/-- How overwriting the record `existing` of the id ends with a resource of that natural key: well,
unless another record has the key. Where there is no later time to stamp, it ends for that. -/
structure OverwriteEnds (s : Store α) (id key : String) (existing : α) (now : Instant)
    (fault? : Option Fault) : Prop where
  succeeds_iff {t : Instant} : Instant.after? (Resource.metadata existing).lastModified now = some t →
    (fault? = none ↔ ¬ s.KeyTakenBeside id key)
  conflict_iff {t : Instant} : Instant.after? (Resource.metadata existing).lastModified now = some t →
    (fault? = some (conflict α key) ↔ s.KeyTakenBeside id key)
  endOfTime : Instant.after? (Resource.metadata existing).lastModified now = none →
    fault? = some .endOfTime

/-- The message asks for the operations to be made on the resource of the id, by an address that does
not name the other type. -/
structure Asks (α : Type) [Managed α] (m : PatchMessage) (id : String) (request : Patch.Request) :
    Prop where
  target : ∃ address, m.address = some address ∧
    checkSchema α address.schemaIdentifier = .ok () ∧ givenId? address.identifier = some id
  payload : m.payload = some (.operations request)

variable {config : Config} {o : Occasion} {s : Store α} {id key : String}

namespace OverwriteEnds

variable {existing : α} {now : Instant} {fault? : Option Fault}

theorem cases (h : OverwriteEnds s id key existing now fault?) :
    fault? = none ∨ fault? = some (conflict α key) ∨ fault? = some .endOfTime := by
  cases hlater : Instant.after? (Resource.metadata existing).lastModified now with
  | none => exact .inr (.inr (h.endOfTime hlater))
  | some t =>
    by_cases taken : s.KeyTakenBeside id key
    · exact .inr (.inl ((h.conflict_iff hlater).mpr taken))
    · exact .inl ((h.succeeds_iff hlater).mpr taken)

end OverwriteEnds

/-- A replacement with an id and a natural key has only to find the record. -/
theorem replaced_eq {r : α} (hid : ownId r = .ok id) (hkey : requireNaturalKey r = .ok key) :
    replaced config o r s = find s id >>= fun existing =>
      overwritten config o id key existing (Resource.withId r id) s := by
  rw [replaced, hid, ok_bind, hkey, ok_bind]

/-- A patch that asks for operations has first to find the record. -/
theorem updated_eq {m : PatchMessage} {request : Patch.Request} (h : Asks α m id request) :
    updated config o m s = find s id >>= fun existing => Patch.apply existing request >>=
      fun patched => requireNaturalKey patched >>= fun key =>
        overwritten config o id key existing patched s := by
  obtain ⟨address, haddress, schema, given⟩ := h.target
  have htarget := PatchMessage.target_of_givenId? haddress given
  have hrequest : m.request = .ok request := by rw [PatchMessage.request, h.payload]
  rw [updated, ofValidated_ok_iff.mpr htarget, ok_bind, resolve_ok_iff.mpr ⟨schema, given⟩, ok_bind,
    hrequest, ok_bind]

variable [LawfulManaged α]

end Service

/-! ## Both ways into a directory -/

namespace Directory

variable {α : Type} [Managed α]

/-- The fault that an event ends with, if it does not succeed. -/
def fault? (config : Config) (s : Stores) (e : Event) : Option Fault :=
  failure? (serve config s e).1

/-- Ways to put a write to a side: its own service, or by the variant of a resource or a schema of the
kind. -/
inductive Side.Puts (side : Side α) : Request α → DirectoryRequest → Prop
  | asked (q : Request α) : side.Puts q (side.ask q)
  | creation (r : α) : side.Puts (.create r) (.routed (.create (side.wrap r)))
  | replacement (r : α) : side.Puts (.replace r) (.routed (.replace (side.wrap r)))
  | patch {m : PatchMessage} {address : Address} {id : String} (target : m.address = some address)
      (given : givenId? address.identifier = some id)
      (schema : Kind.ofIdentifier? address.schemaIdentifier = some side.kind) :
      side.Puts (.update m) (.routed (.update m))
  | removal {address : Address}
      (schema : Kind.ofIdentifier? address.schemaIdentifier = some side.kind) :
      side.Puts (.delete address) (.routed (.delete address))

/-- The router gives every write to the side that it is for. -/
structure Side.Directs (side : Side α) : Prop where
  asked (o : Occasion) (q : Request α) : ∃ p, direct o (side.ask q) = .ok p ∧ p.asked = side.ask q
  creation (o : Occasion) (r : α) : ∃ p, direct o (.routed (.create (side.wrap r))) = .ok p ∧
    p.asked = side.ask (.create r)
  replacement (o : Occasion) (r : α) : ∃ p, direct o (.routed (.replace (side.wrap r))) = .ok p ∧
    p.asked = side.ask (.replace r)
  patch (m : PatchMessage) :
    (choose (.update m) (.update m) side.kind).asked = side.ask (.update m)
  removal (address : Address) :
    (choose (.delete address) (.delete address) side.kind).asked = side.ask (.delete address)

theorem users_direct : users.Directs where
  asked _ _ := ⟨_, rfl, rfl⟩
  creation _ _ := ⟨_, rfl, rfl⟩
  replacement _ _ := ⟨_, rfl, rfl⟩
  patch _ := rfl
  removal _ := rfl

theorem groups_direct : groups.Directs where
  asked _ _ := ⟨_, rfl, rfl⟩
  creation _ _ := ⟨_, rfl, rfl⟩
  replacement _ _ := ⟨_, rfl, rfl⟩
  patch _ := rfl
  removal _ := rfl

namespace Side.Directs

variable {side : Side α} {q : Request α} {request : DirectoryRequest}

theorem exists_directed (directs : side.Directs) (o : Occasion) (h : side.Puts q request) :
    ∃ p, direct o request = .ok p ∧ p.asked = side.ask q := by
  cases h with
  | asked q => exact directs.asked o q
  | creation r => exact directs.creation o r
  | replacement r => exact directs.replacement o r
  | @patch m address id target given schema =>
    refine ⟨_, ?_, directs.patch m⟩
    rw [direct, directRouted,
      ofValidated_ok_iff.mpr (PatchMessage.target_of_givenId? target given), ok_bind,
      route_ok_iff.mpr schema]
    rfl
  | @removal address schema =>
    refine ⟨_, ?_, directs.removal address⟩
    rw [direct, directRouted, route_ok_iff.mpr schema]
    rfl

/-- A write comes to what the service of its side makes of it. -/
theorem outcome_puts (directs : side.Directs) (config : Config) (o : Occasion) (s : Stores)
    (h : side.Puts q request) :
    outcome config o s request = (Service.outcome config o (side.store s) q).map
      fun r => (request.shown (r.1.map side.wrap), side.put s r.2) := by
  obtain ⟨p, hp, hasked⟩ := directs.exists_directed o h
  rw [outcome, hp, ok_bind, bind_pure_eq_map, ← outcome_asked, hasked, side.outcome_ask, map_map]

end Side.Directs

variable [LawfulManaged α] [Patch.BlamesOperations α] {side : Side α}

end Directory

end Scim
