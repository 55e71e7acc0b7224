import Scim.Proofs.LatestWrite
import Scim.Proofs.PatchRepetition
import Scim.Proofs.PatchedReplacement

/-!
# Metadata that a caller sends

A resource may be sent with metadata, of which nothing comes: whatever they hold, the same write at
the same time ends in the same answer and leaves the same stores, down to the version that is found
from the text of the record. All else that is sent is kept as it is, under the generated id, or
under the id that was sent without the white space around it.
-/

namespace Scim

open Fallible

/-- A write meets the same generated id and the same reading of the clock. -/
structure Occasion.StampsAlike (o o' : Occasion) : Prop where
  freshId : o'.freshId = o.freshId
  now : o'.now = o.now

/-- Resources whose id can be set before or after their metadata. -/
class SeparateParts (α : Type) [Resource α] : Prop where
  withId_withMetadata (r : α) (m : Metadata) (id : String) :
    Resource.withId (Resource.withMetadata r m) id = Resource.withMetadata (Resource.withId r id) m

instance : SeparateParts User where
  withId_withMetadata _ _ _ := rfl

instance : SeparateParts Group where
  withId_withMetadata _ _ _ := rfl

/-- What is stored under an id is what was sent, but for the id and the metadata. -/
structure StoredAs {α : Type} [Resource α] (r : α) (id : String) (stored : α) : Prop where
  others : ∃ m, stored = Resource.withMetadata (Resource.withId r id) m
  sameId : Resource.id stored = some id

namespace Service

variable {α : Type} [Managed α] [LawfulManaged α] {config : Config} {o o' : Occasion}
  {s t : Store α} {r stored : α} {id : String}

/-- What a creation or a replacement answers is found under its id afterwards. -/
theorem get?_of_stores {q : Request α} (h : Effect config o s q (.resource stored) t)
    (stores : q.verb.isStoring = true) (subject : q.subject? Resource.id o = some id) :
    t.get? id = some stored :=
  ((h.settles subject).left_eq_iff stored).mpr (.inr ⟨stores, rfl⟩)

theorem requireNaturalKey_withMetadata (r : α) (m : Metadata) :
    requireNaturalKey (Resource.withMetadata r m) = requireNaturalKey r := by
  rw [requireNaturalKey, requireNaturalKey, LawfulResource.naturalKey_withMetadata]

theorem ownId_withMetadata (r : α) (m : Metadata) :
    ownId (Resource.withMetadata r m) = ownId r := by
  rw [ownId, ownId, LawfulResource.id_withMetadata]

variable [Rewritable α]

/-! ## What is kept -/

theorem storedAs_stampNew (config : Config) (o : Occasion) (r : α) :
    StoredAs r o.freshId (stampNew config o r) where
  others := finishMetadata_withMetadata config o.freshId (Resource.withId r o.freshId) _
  sameId := id_stampNew config o r

theorem Overwrites.storedAs {existing : α}
    (h : Overwrites config o s id existing (Resource.withId r id) stored) :
    StoredAs r id stored where
  others := h.exists_metadata
  sameId := h.id_stored

theorem created_keeps (h : created config o r s = .ok (stored, t)) :
    StoredAs r o.freshId stored ∧ t.get? o.freshId = some stored := by
  have heffect := created_ok h
  refine ⟨?_, get?_of_stores heffect rfl rfl⟩
  cases heffect
  exact storedAs_stampNew config o r

theorem replaced_keeps (h : replaced config o r s = .ok (stored, t)) :
    ∃ own, Resource.id r = some own ∧ StoredAs r (Text.trim own) stored ∧
      t.get? (Text.trim own) = some stored := by
  have heffect := replaced_ok h
  have hkept : ∃ id, (Resource.id r).bind givenId? = some id ∧ StoredAs r id stored := by
    cases heffect with
    | @replaced _ _ _ id hid overwrites => exact ⟨id, ownId_ok_iff.mp hid, overwrites.storedAs⟩
  obtain ⟨id, hid, hstored⟩ := hkept
  have hget := get?_of_stores heffect rfl hid
  obtain ⟨own, hown, hgiven⟩ := Option.bind_eq_some_iff.mp hid
  rw [givenId?] at hgiven
  split at hgiven
  · cases hgiven
  · cases hgiven
    exact ⟨own, hown, hstored, hget⟩

/-! ## Nothing comes of the metadata -/

omit [LawfulManaged α] in
theorem overwritten_withMetadata (id key : String) (existing r : α) (m : Metadata) :
    overwritten config o id key existing (Resource.withMetadata r m) s =
      overwritten config o id key existing r s := by
  simp only [overwritten, stampChanged, Rewritable.withMetadata_withMetadata]

variable [SeparateParts α]

omit [LawfulManaged α] in
theorem stampNew_withMetadata (alike : o.StampsAlike o') (r : α) (m : Metadata) :
    stampNew config o' (Resource.withMetadata r m) = stampNew config o r := by
  rw [stampNew, stampNew, alike.freshId, alike.now, SeparateParts.withId_withMetadata,
    Rewritable.withMetadata_withMetadata]

theorem created_withMetadata (alike : o.StampsAlike o') (r : α) (m : Metadata) :
    created config o' (Resource.withMetadata r m) s = created config o r s := by
  simp only [created, LawfulResource.id_withMetadata, requireNaturalKey_withMetadata,
    stampNew_withMetadata alike, alike.freshId]

theorem replaced_withMetadata (alike : o.StampsAlike o') (r : α) (m : Metadata) :
    replaced config o' (Resource.withMetadata r m) s = replaced config o r s := by
  simp only [replaced, ownId_withMetadata, requireNaturalKey_withMetadata,
    SeparateParts.withId_withMetadata, overwritten_withMetadata, overwritten_congr alike.now]

end Service

namespace Directory

variable {α : Type} [Managed α]

/-- A request that sends a resource is answered with what the service of its side answers, whichever
way it takes. -/
theorem Side.Directs.outcome_sending {side : Side α} (directs : side.Directs) {q : Request α}
    (sends : q.verb = .create ∨ q.verb = .replace) {request : DirectoryRequest}
    (puts : side.Puts q request) (config : Config) (o : Occasion) (s : Stores) :
    outcome config o s request = (Service.outcome config o (side.store s) q).map
      fun p => (p.1.map side.wrap, side.put s p.2) := by
  cases puts with
  | asked q => exact side.outcome_ask config o s q
  | creation r => exact directs.outcome_puts config o s (.creation r)
  | replacement r => exact directs.outcome_puts config o s (.replacement r)
  | patch _ _ _ => rcases sends with h | h <;> cases h
  | removal _ => rcases sends with h | h <;> cases h

/-- Writes of a resource with any metadata come to the same, and what they store is otherwise the
resource that was sent. -/
structure IgnoresMetadata (side : Side α) (config : Config) (s : Stores) : Prop where
  creation {o o' : Occasion} (alike : o.StampsAlike o') (r : α) (m : Metadata)
      {request request' : DirectoryRequest} (puts : side.Puts (.create r) request)
      (puts' : side.Puts (.create (Resource.withMetadata r m)) request') :
    serve config s ⟨o', request'⟩ = serve config s ⟨o, request⟩
  replacement {o o' : Occasion} (alike : o.StampsAlike o') (r : α) (m : Metadata)
      {request request' : DirectoryRequest} (puts : side.Puts (.replace r) request)
      (puts' : side.Puts (.replace (Resource.withMetadata r m)) request') :
    serve config s ⟨o', request'⟩ = serve config s ⟨o, request⟩
  created {o : Occasion} {r : α} {request : DirectoryRequest}
      (puts : side.Puts (.create r) request) {a : Answer AnyResource} {t : Stores}
      (served : serve config s ⟨o, request⟩ = (.ok a, t)) :
    ∃ stored, a = .resource (side.wrap stored) ∧ (side.store t).get? o.freshId = some stored ∧
      StoredAs r o.freshId stored
  replaced {o : Occasion} {r : α} {request : DirectoryRequest}
      (puts : side.Puts (.replace r) request) {a : Answer AnyResource} {t : Stores}
      (served : serve config s ⟨o, request⟩ = (.ok a, t)) :
    ∃ own stored, Resource.id r = some own ∧ a = .resource (side.wrap stored) ∧
      (side.store t).get? (Text.trim own) = some stored ∧ StoredAs r (Text.trim own) stored

variable [LawfulManaged α] [Rewritable α] [SeparateParts α] {side : Side α}

theorem Side.ignoresMetadata (directs : side.Directs) (config : Config) (s : Stores) :
    IgnoresMetadata side config s where
  creation {o o'} alike r m {request request'} puts puts' := by
    refine serve_congr ?_
    rw [directs.outcome_sending (.inl rfl) puts, directs.outcome_sending (.inl rfl) puts',
      Service.outcome, Service.outcome, Service.created_withMetadata alike]
  replacement {o o'} alike r m {request request'} puts puts' := by
    refine serve_congr ?_
    rw [directs.outcome_sending (.inr rfl) puts, directs.outcome_sending (.inr rfl) puts',
      Service.outcome, Service.outcome, Service.replaced_withMetadata alike]
  created {o r request} puts {a t} served := by
    have houtcome : outcome config o s request = .ok (a, t) := serve_eq_ok_iff.mp served
    rw [directs.outcome_sending (.inl rfl) puts, Service.outcome, map_map] at houtcome
    obtain ⟨⟨stored, u⟩, hcreated, heq⟩ := map_ok_iff.mp houtcome
    cases heq
    obtain ⟨hstored, hget⟩ := Service.created_keeps hcreated
    rw [side.store_put]
    exact ⟨stored, rfl, hget, hstored⟩
  replaced {o r request} puts {a t} served := by
    have houtcome : outcome config o s request = .ok (a, t) := serve_eq_ok_iff.mp served
    rw [directs.outcome_sending (.inr rfl) puts, Service.outcome, map_map] at houtcome
    obtain ⟨⟨stored, u⟩, hreplaced, heq⟩ := map_ok_iff.mp houtcome
    cases heq
    obtain ⟨own, hown, hstored, hget⟩ := Service.replaced_keeps hreplaced
    rw [side.store_put]
    exact ⟨own, stored, hown, rfl, hget, hstored⟩

/-- Metadata that are sent with a user or a group have no influence, whatever is stored. -/
theorem sent_metadata_ignored (config : Config) (s : Stores) :
    IgnoresMetadata users config s ∧ IgnoresMetadata groups config s :=
  ⟨Side.ignoresMetadata users_direct config s, Side.ignoresMetadata groups_direct config s⟩

/-- A group is replaced with metadata that name another type, place and version, and is routed. -/
theorem sent_metadata_ignored_of_guides :
    let s : Stores := ⟨Store.empty, ⟨[guides]⟩⟩
    let g : Group := { Group.named "Rangers" with id := some " g1 ", externalId := some "r" }
    let m : Metadata :=
      ⟨some "User", some newYear.now, none, some "https://example.org/1", some "W/\"1\""⟩
    fault? Config.default s ⟨newYear, .groups (.replace g)⟩ = none ∧
      serve Config.default s ⟨newYear, .routed (.replace (.group { g with metadata := m }))⟩ =
        serve Config.default s ⟨newYear, .groups (.replace g)⟩ ∧
      ∃ stored, (serve Config.default s ⟨newYear, .groups (.replace g)⟩).2.groups.get? "g1" =
        some stored ∧ StoredAs g "g1" stored := by
  intro s g m
  have hfault : fault? Config.default s ⟨newYear, .groups (.replace g)⟩ = none := by
    decide +kernel
  obtain ⟨a, ha⟩ := failure?_eq_none_iff.mp hfault
  have hignores := (sent_metadata_ignored Config.default s).2
  refine ⟨hfault, hignores.replacement ⟨rfl, rfl⟩ g m (.asked _) (.replacement _), ?_⟩
  have served : serve Config.default s ⟨newYear, .groups (.replace g)⟩ =
      (.ok a, (serve Config.default s ⟨newYear, .groups (.replace g)⟩).2) := Prod.ext ha rfl
  obtain ⟨own, stored, hown, -, hget, hstored⟩ :=
    hignores.replaced (.asked (.replace g)) served
  cases hown
  exact ⟨stored, hget, hstored⟩

end Directory

end Scim
