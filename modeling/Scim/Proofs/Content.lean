import Scim.Proofs.Asked

/-!
# What callers write

A property of a resource that speaks neither of its id nor of its metadata is one of what callers
write. Such a property enters a store with a resource that is created or put in place of another,
which is stored as it was sent, and only patches change it afterwards.
-/

namespace Scim

open Fallible

/-- The property speaks neither of the id of a resource nor of its metadata. -/
structure OfContent {α : Type} [Resource α] (P : α → Prop) : Prop where
  withId (r : α) (id : String) : P (Resource.withId r id) ↔ P r
  withMetadata (r : α) (m : Metadata) : P (Resource.withMetadata r m) ↔ P r

namespace Service

variable {α : Type} [Managed α] {P : α → Prop} {config : Config} {o : Occasion} {s t : Store α}

theorem content_finishMetadata (content : OfContent P) (config : Config) (id : String) (r : α) :
    P (finishMetadata config id r) ↔ P r := by
  rw [finishMetadata, content.withMetadata, content.withMetadata]

theorem content_stampNew (content : OfContent P) (config : Config) (o : Occasion) (r : α) :
    P (stampNew config o r) ↔ P r := by
  rw [stampNew, content_finishMetadata content, content.withMetadata, content.withId]

theorem Overwrites.content_iff (content : OfContent P) {id : String} {existing r stored : α}
    (h : Overwrites config o s id existing r stored) : P stored ↔ P r := by
  obtain ⟨m, -, rfl⟩ := stampChanged_ok h.stamped
  rw [content_finishMetadata content, content.withMetadata]

/-- A request that brings no resource without the property, and no edit that breaks it, leaves only
records that have it. -/
theorem Effect.content [LawfulManaged α] (content : OfContent P) {q : Request α} {a : Answer α}
    (h : Effect config o s q a t) (kept : s.Kept) (hs : ∀ r ∈ s.records, P r)
    (brought : ∀ r, q.resource? = some r → P r)
    (edits : ∀ op ∈ q.operations, ∀ f : α → α, Patchable.edit op = .ok f → ∀ r, P r → P (f r)) :
    ∀ r ∈ t.records, P r := by
  -- both kinds of overwriting come down to what takes the place of the existing record
  have overwritten {id : String} {existing x stored : α} (hx : P x)
      (h : Overwrites config o s id existing x stored) :
      ∀ r ∈ Store.replaceFirst id stored s.records, P r := by
    intro r hr
    rcases kept.mem_replaceFirst h.found hr with rfl | ⟨hold, -⟩
    · exact (h.content_iff content).mpr hx
    · exact hs r hold
  cases h with
  | @created x _ _ _ _ _ =>
    intro r hr
    rcases List.mem_append.mp hr with hold | hnew
    · exact hs r hold
    · rw [List.mem_singleton.mp hnew]
      exact (content_stampNew content config o x).mpr (brought x rfl)
  | retrieved _ _ => exact hs
  | @replaced x _ _ id _ overwrites =>
    exact overwritten ((content.withId x id).mpr (brought x rfl)) overwrites
  | @updated m _ request existing _ _ _ _ _ hrequest applied overwrites =>
    have hexisting : P existing := hs existing (Store.get?_eq_some overwrites.found).1
    have hoperations : (Request.update m : Request α).operations = request.operations := by
      rw [Request.operations, PatchMessage.payload_of_request hrequest]
    rw [hoperations] at edits
    exact overwritten (Patch.applyOperations_preserves edits applied hexisting) overwrites
  | deleted _ => exact fun r hr => hs r (List.mem_of_mem_filter hr)
  | queried _ => exact hs

/-- A resource that is brought along is stored as it was sent. -/
theorem Effect.exists_stored [LawfulManaged α] (content : OfContent P) {q : Request α}
    {a : Answer α} (h : Effect config o s q a t) {r : α} (brings : q.resource? = some r) :
    ∃ stored ∈ t.records, (P stored ↔ P r) := by
  cases h with
  | @created x _ _ _ _ _ =>
    cases brings
    exact ⟨_, List.mem_append_right _ List.mem_cons_self, content_stampNew content config o r⟩
  | @replaced x _ stored id _ overwrites =>
    cases brings
    have hstored := Store.get?_replaceFirst_self overwrites.found overwrites.id_stored
    exact ⟨stored, (Store.get?_eq_some hstored).1,
      (overwrites.content_iff content).trans (content.withId r id)⟩
  | retrieved _ _ => cases brings
  | updated _ _ _ _ _ => cases brings
  | deleted _ => cases brings
  | queried _ => cases brings

end Service

theorem DirectoryRequest.kind?_of_resource? {q : DirectoryRequest} {r : AnyResource}
    (brings : q.resource? = some r) : q.kind? = some r.kind := by
  cases q with
  | routed q =>
    cases q with
    | create x => cases brings; rfl
    | replace x => cases brings; rfl
    | _ => cases brings
  | users q =>
    obtain ⟨u, -, rfl⟩ := Option.map_eq_some_iff.mp brings
    rfl
  | groups q =>
    obtain ⟨g, -, rfl⟩ := Option.map_eq_some_iff.mp brings
    rfl

namespace Directory

/-- Every event of the history that succeeds is such an event. -/
def EverySuccess (config : Config) (events : List Event) (such : Event → Prop) : Prop :=
  ∀ before e later, events = before ++ e :: later → Succeeds config (after config empty before) e →
    such e

theorem EverySuccess.of_append {config : Config} {events rest : List Event} {such : Event → Prop}
    (h : EverySuccess config (events ++ rest) such) : EverySuccess config events such := by
  rintro before e later rfl succeeds
  exact h before e (later ++ rest) (by rw [List.append_assoc, List.cons_append]) succeeds

namespace Side.Lawful

variable {α : Type} [Managed α] [LawfulManaged α] {side : Side α} {P : α → Prop} {config : Config}

/-- After a history, all records have a property of what callers write, if every success of the
history brought the property along and made no edit that breaks it. -/
theorem content_after (lawful : side.Lawful) (content : OfContent P) {events : List Event}
    (brought : EverySuccess config events fun e =>
      ∀ r, e.request.resource? = some (side.wrap r) → P r)
    (edits : EverySuccess config events fun e => e.request.kind? = some side.kind →
      ∀ op ∈ e.request.request.operations, ∀ f : α → α, Patchable.edit op = .ok f →
        ∀ r, P r → P (f r)) :
    ∀ r ∈ (side.store (after config empty events)).records, P r := by
  refine lawful.forall_after fun before e later heq {q a} hmeets kept hs => ?_
  refine hmeets.effect.content content kept hs (fun r hr => ?_) fun op hop => ?_
  · refine brought before e later heq hmeets.succeeds r ?_
    rw [hmeets.resource, hr, Option.map_some]
  · rw [← hmeets.operations] at hop
    exact edits before e later heq hmeets.succeeds hmeets.kind op hop

theorem exists_stored (lawful : side.Lawful) (content : OfContent P) {s : Stores} {e : Event} {r : α}
    (succeeds : Succeeds config s e) (kind : e.request.kind? = some side.kind)
    (brings : e.request.resource? = some (side.wrap r)) :
    ∃ stored ∈ (side.store (serve config s e).2).records, (P stored ↔ P r) := by
  obtain ⟨q, a, hmeets⟩ := lawful.exists_meets succeeds kind
  rw [hmeets.resource] at brings
  obtain ⟨x, hx, heq⟩ := Option.map_eq_some_iff.mp brings
  rw [lawful.wrap_inj heq] at hx
  exact hmeets.effect.exists_stored content hx

end Side.Lawful

end Directory

end Scim
