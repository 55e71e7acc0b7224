import Scim.Proofs.CharRun
import Scim.Proofs.WriteOutcomes

/-!
# A patch is a replacement

To patch a stored record is to put the patched record in its place: both ways load the same record,
find the same natural key missing or taken, and stamp the same metadata. Nothing is assumed of the
stores. Both look for an id without the white space around it, so that a record which is held under
an id with white space around it is reached by neither, and there the order of their checks shows.
-/

namespace Scim

open Fallible

/-- An id is trimmed once and for all. -/
theorem givenId?_trim (id : String) : givenId? (Text.trim id) = givenId? id := by
  rw [givenId?, givenId?, Text.isBlank_trim, Text.trim_trim]

/-- The record `e` of a store and an id as it is sent, such that the patch of `e` to `p` and the
replacement by `p` look for the same: under the id without the white space around it, or under the
id as it is where it cannot be looked for, or where there is nothing to be found and the natural key
of `p` gives no earlier reason to fail. -/
inductive Store.HeldFor {α : Type} [Resource α] (s : Store α) (sent : String) (e p : α) : Prop
  | found (held : s.get? (Text.trim sent) = some e)
  | blank (held : s.get? sent = some e) (blank : Text.isBlank sent = true)
  | missed (held : s.get? sent = some e) (absent : s.get? (Text.trim sent) = none)
      (named : Named p)

namespace Service

variable {α : Type} [Managed α] {config : Config} {o o' : Occasion} {s : Store α} {id : String}
  {m : PatchMessage} {q : Patch.Request} {e p : α}

/-- The clock is all that overwriting takes from an occasion. -/
theorem overwritten_congr (clock : o'.now = o.now) (key : String) (existing r : α) :
    overwritten config o' id key existing r s = overwritten config o id key existing r s := by
  rw [overwritten, overwritten, stampChanged, stampChanged, clock]

theorem updated_of_blank {address : Address} (target : m.address = some address)
    (blank : Text.isBlank address.identifier = true) :
    updated config o m s = .error (.validation .missingId) := by
  have hid : address.id? = .error .missingId := by rw [Address.id?, if_pos blank]
  have htarget : m.target = .error .missingId := by
    rw [PatchMessage.target, target]
    simp only [hid]
    rfl
  rw [updated, htarget]
  rfl

theorem replaced_of_blank (sameId : Resource.id p = some id) (blank : Text.isBlank id = true) :
    replaced config o p s = .error (.validation .missingId) := by
  have hid : ownId p = .error (.validation .missingId) := by
    rw [ownId, sameId]
    exact if_pos blank
  rw [replaced, hid, error_bind]

theorem updated_of_vacant (asks : Asks α m id q) (absent : s.get? id = none) :
    updated config o m s = .error (notFound α id) := by
  have hfind : find s id = .error (notFound α id) := by rw [find, absent]
  rw [updated_eq asks, hfind, error_bind]

theorem replaced_of_vacant (hid : ownId p = .ok id) (named : Named p) (absent : s.get? id = none) :
    replaced config o p s = .error (notFound α id) := by
  have hfind : find s id = .error (notFound α id) := by rw [find, absent]
  obtain ⟨key, hkey⟩ := named
  rw [replaced_eq hid (requireNaturalKey_ok_iff.mpr hkey), hfind, error_bind]

/-- With the record found, a patch that applies and the replacement by what it makes of the record
come to the same. -/
theorem updated_eq_replaced [Rewritable α] (clock : o'.now = o.now) (asks : Asks α m id q)
    (found : s.get? id = some e) (applied : Patch.apply e q = .ok p)
    (sameId : Resource.id p = some id) (hid : ownId p = .ok id) :
    updated config o m s = replaced config o' p s := by
  have hfind := find_ok_iff.mpr found
  have hpatched : updated config o m s = requireNaturalKey p >>= fun key =>
      overwritten config o id key e p s := by
    rw [updated_eq asks, hfind, ok_bind, applied, ok_bind]
  rw [hpatched]
  cases hkey : requireNaturalKey p with
  | error f => rw [replaced, hid, ok_bind, hkey, error_bind, error_bind]
  | ok key =>
    rw [replaced_eq hid hkey, hfind, ok_bind, ok_bind, Rewritable.withId_self sameId,
      overwritten_congr clock]

/-- However the store holds the record for the patch, the two come to the same. -/
theorem updated_eq_replaced_of_heldFor [LawfulManaged α] [Rewritable α] {address : Address}
    (clock : o'.now = o.now) (target : m.address = some address)
    (schema : checkSchema α address.schemaIdentifier = .ok ())
    (payload : m.payload = some (.operations q)) (applied : Patch.apply e q = .ok p)
    (held : s.HeldFor address.identifier e p) :
    updated config o m s = replaced config o' p s := by
  have sameId (id : String) (h : s.get? id = some e) : Resource.id p = some id :=
    (Patch.id_applyOperations applied).trans (Store.get?_eq_some h).2
  by_cases hblank : Text.isBlank address.identifier = true
  · rw [updated_of_blank target hblank]
    cases held with
    | found h => rw [replaced_of_blank (sameId _ h) (by rw [Text.isBlank_trim, hblank])]
    | blank h _ => rw [replaced_of_blank (sameId _ h) hblank]
    | missed h _ _ => rw [replaced_of_blank (sameId _ h) hblank]
  · have given : givenId? address.identifier = some (Text.trim address.identifier) :=
      if_neg hblank
    have asks : Asks α m (Text.trim address.identifier) q :=
      ⟨⟨address, target, schema, given⟩, payload⟩
    cases held with
    | found h =>
      have hid : ownId p = .ok (Text.trim address.identifier) := by
        rw [ownId_ok_iff, sameId _ h, Option.bind_some, givenId?_trim, given]
      exact updated_eq_replaced clock asks h applied (sameId _ h) hid
    | blank _ h => exact absurd h hblank
    | missed h absent named =>
      have hid : ownId p = .ok (Text.trim address.identifier) := by
        rw [ownId_ok_iff, sameId _ h, Option.bind_some, given]
      rw [updated_of_vacant asks absent, replaced_of_vacant hid named absent]

end Service

namespace Directory

variable {α : Type} [Managed α]

/-- A service that is asked to patch a record answers and stores what it would if it were asked, at
the same reading of the clock, for the replacement by the patched record. -/
theorem Side.patch_is_replacement [LawfulManaged α] [Rewritable α] (side : Side α) (config : Config)
    (s : Stores) {o o' : Occasion} {m : PatchMessage} {address : Address} {q : Patch.Request}
    {e p : α} (clock : o'.now = o.now) (target : m.address = some address)
    (schema : Service.checkSchema α address.schemaIdentifier = .ok ())
    (payload : m.payload = some (.operations q)) (applied : Patch.apply e q = .ok p)
    (held : (side.store s).HeldFor address.identifier e p) :
    serve config s ⟨o, side.ask (.update m)⟩ = serve config s ⟨o', side.ask (.replace p)⟩ := by
  have hsame : Service.updated config o m (side.store s) =
      Service.replaced config o' p (side.store s) :=
    Service.updated_eq_replaced_of_heldFor clock target schema payload applied held
  refine serve_congr ?_
  rw [side.outcome_ask, side.outcome_ask, Service.outcome, Service.outcome, hsame]

/-- A stored group without members. -/
def guides : Group :=
  { Group.named "Tour Guides" with id := some "g1" }

/-- The patch renames a group, in another case, to the name of another group. -/
theorem patch_is_replacement_of_guides :
    let s : Stores := ⟨Store.empty, ⟨[guides, { Group.named "Employees" with id := some "g2" }]⟩⟩
    let q : Patch.Request := .ofOperations [.replace "displayName" (.str "EMPLOYEES")]
    let m : PatchMessage := ⟨some ⟨"Group", " g1 "⟩, some (.operations q)⟩
    let p : Group := { guides with displayName := some "EMPLOYEES" }
    Patch.apply guides q = .ok p ∧ s.groups.HeldFor " g1 " guides p ∧
      fault? Config.default s ⟨newYear, .groups (.update m)⟩ =
        some (.conflict "Group" "displayName" "EMPLOYEES") ∧
      serve Config.default s ⟨newYear, .groups (.update m)⟩ =
        serve Config.default s ⟨newYear, .groups (.replace p)⟩ := by
  intro s q m p
  have applied : Patch.apply guides q = .ok p := rfl
  have held : s.groups.HeldFor " g1 " guides p := .found (by decide +kernel)
  refine ⟨applied, held, by decide +kernel, ?_⟩
  exact groups.patch_is_replacement Config.default s rfl rfl (by decide +kernel) rfl applied held

/-- A user without a name, held under an id with white space around it, is neither found by a patch
nor by a replacement, but the replacement misses the name first. -/
theorem patch_differs_at_spaced_id :
    let e : User := { User.named "ada" with id := some " u1 ", userName := none }
    let s : Stores := ⟨⟨[e]⟩, Store.empty⟩
    let q : Patch.Request := .ofOperations [.remove "externalId"]
    let m : PatchMessage := ⟨some ⟨"User", " u1 "⟩, some (.operations q)⟩
    s.users.get? " u1 " = some e ∧ Patch.apply e q = .ok e ∧
      fault? Config.default s ⟨newYear, .users (.update m)⟩ =
        some (.resourceNotFound "User" "u1") ∧
      fault? Config.default s ⟨newYear, .users (.replace e)⟩ =
        some (.validation (.missingRequiredAttribute "userName")) ∧
      serve Config.default s ⟨newYear, .users (.update m)⟩ ≠
        serve Config.default s ⟨newYear, .users (.replace e)⟩ := by
  intro e s q m
  have hpatch : fault? Config.default s ⟨newYear, .users (.update m)⟩ =
      some (.resourceNotFound "User" "u1") := by decide +kernel
  have hreplace : fault? Config.default s ⟨newYear, .users (.replace e)⟩ =
      some (.validation (.missingRequiredAttribute "userName")) := by decide +kernel
  refine ⟨by decide +kernel, rfl, hpatch, hreplace, fun hsame => ?_⟩
  rw [fault?, hsame] at hpatch
  rw [fault?, hpatch] at hreplace
  cases hreplace

end Directory

end Scim
