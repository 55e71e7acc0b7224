import Scim.Proofs.Reads

/-!
# Stored metadata describes what is stored

Every record of a directory names its own type, stands at the location of its id, and carries the
version of its own content. The version is found last, of the record without one, so that it can be
found again from the record. A record that no write has touched between two reads is the same in
both, and with it its version.
-/

namespace Scim

/-- What an answer shows of the stored resources. -/
def Answer.Shows {α : Type} : Answer α → α → Prop
  | .resource x, r => x = r
  | .resources xs, r => r ∈ xs
  | .nothing, _ => False

theorem Answer.shows_map_iff {α β : Type} {f : α → β} {a : Answer α} {y : β} :
    (a.map f).Shows y ↔ ∃ r, a.Shows r ∧ f r = y := by
  cases a with
  | resource x => simp [map, Shows]
  | resources xs => simp [map, Shows]
  | nothing => simp [map, Shows]

section Records

variable {α : Type} [Resource α]

/-- The resource with no version. -/
def unversioned (r : α) : α :=
  Resource.withMetadata r { Resource.metadata r with version := none }

/-- The metadata of a record say what type it is of, where it is found, and what it holds. -/
structure Described (config : Config) (r : α) : Prop where
  resourceType : (Resource.metadata r).resourceType = some (Resource.typeName α)
  location : ∃ id, Resource.id r = some id ∧ (Resource.metadata r).location =
    some (config.resourceLocation (Resource.kind α).endpoint id)
  version : (Resource.metadata r).version = some (EntityTag.ofResource (unversioned r))

end Records

namespace Service

variable {α : Type} [Managed α] [LawfulManaged α] [Rewritable α] {config : Config} {o : Occasion}
  {s t : Store α}

/-- The version that is set last is that of the record as it stood before. -/
theorem version_finishMetadata (config : Config) (id : String) (r : α) :
    (Resource.metadata (finishMetadata config id r)).version =
      some (EntityTag.ofResource (unversioned (finishMetadata config id r))) := by
  simp only [finishMetadata, unversioned, LawfulResource.metadata_withMetadata,
    Rewritable.withMetadata_withMetadata]

theorem described_stampNew (config : Config) (o : Occasion) (r : α) :
    Described config (stampNew config o r) := by
  refine ⟨?_, ⟨o.freshId, id_stampNew config o r, location_finishMetadata config o.freshId _⟩,
    version_finishMetadata config o.freshId _⟩
  rw [stampNew, resourceType_finishMetadata, LawfulResource.metadata_withMetadata]
  rfl

/-- The type is taken over from the existing record, and the rest is found anew. -/
theorem Overwrites.described {id : String} {existing r stored : α}
    (h : Overwrites config o s id existing r stored) (hexisting : Described config existing) :
    Described config stored := by
  obtain ⟨m, hm, hstored⟩ := stampChanged_ok h.stamped
  obtain ⟨now, -, rfl⟩ := Option.map_eq_some_iff.mp hm
  refine ⟨?_, ⟨id, h.id_stored, ?_⟩, ?_⟩
  · rw [hstored, resourceType_finishMetadata, LawfulResource.metadata_withMetadata]
    exact hexisting.resourceType
  · rw [hstored, location_finishMetadata]
  · rw [hstored]
    exact version_finishMetadata config id _

/-- Every change keeps the records described. -/
theorem Change.described {verb : Verb} {subject : Option String}
    (h : Change config o s verb subject t) (hs : s.Kept)
    (hdescribed : ∀ r ∈ s.records, Described config r) : ∀ r ∈ t.records, Described config r := by
  intro r hr
  rcases h.mem_cases hs hr with ⟨hold, -⟩ | hwritten
  · exact hdescribed r hold
  cases hwritten with
  | new _ => exact described_stampNew config o _
  | inPlace overwrites =>
    exact overwrites.described (hdescribed _ (Store.get?_eq_some overwrites.found).1)

omit [LawfulManaged α] [Rewritable α] in
/-- A read shows nothing but records. -/
theorem Effect.mem_of_shows {q : Request α} {a : Answer α} (h : Effect config o s q a t)
    (reads : q.verb.isWrite = false) {r : α} (shows : a.Shows r) : r ∈ s.records := by
  cases h with
  | retrieved _ found =>
    cases shows
    exact (Store.get?_eq_some found).1
  | @queried q results selected =>
    obtain ⟨-, -, hsteps⟩ := Fallible.bind_ok_iff.mp selected
    obtain ⟨predicate, -, hresults⟩ := Fallible.bind_ok_iff.mp hsteps
    cases hresults
    have hmatched : r ∈ s.records.filter predicate.holds := by
      rw [Answer.Shows, Query.limit] at shows
      cases hpagination : q.pagination with
      | none =>
        rw [hpagination] at shows
        exact shows
      | some p =>
        rw [hpagination] at shows
        exact List.mem_of_mem_take shows
    exact List.mem_of_mem_filter hmatched
  | created _ _ _ _ => cases reads
  | replaced _ _ => cases reads
  | updated _ _ _ _ _ => cases reads
  | deleted _ => cases reads

end Service

namespace Directory

open Fallible

/-- The resource is one of the records of its kind. -/
def Holds (s : Stores) : AnyResource → Prop
  | .user u => u ∈ s.users.records
  | .group g => g ∈ s.groups.records

/-- The resources of one side are held in its store. -/
def Side.HoldsOwn {α : Type} [Managed α] (side : Side α) : Prop :=
  ∀ s r, Holds s (side.wrap r) → r ∈ (side.store s).records

theorem users_holdOwn : users.HoldsOwn :=
  fun _ _ h => h

theorem groups_holdOwn : groups.HoldsOwn :=
  fun _ _ h => h

variable {config : Config} {s : Stores} {e : Event}

/-- The answer of a read is given as its service gives it. -/
theorem shown_of_read {q : DirectoryRequest} (reads : q.verb.isWrite = false)
    (a : Answer AnyResource) : q.shown a = a := by
  cases q with
  | users q => rfl
  | groups q => rfl
  | routed q =>
    cases q with
    | update m => cases reads
    | _ => rfl

/-- What a read of a directory shows is held there. -/
theorem holds_of_read {a : Answer AnyResource} {x : AnyResource}
    (reads : e.request.verb.isWrite = false) (answered : (serve config s e).1 = .ok a)
    (shows : a.Shows x) : Holds s x := by
  obtain ⟨t, houtcome⟩ := serve_ok_iff.mp answered
  obtain ⟨p, hp, hsteps⟩ := bind_ok_iff.mp houtcome
  obtain ⟨r, hr, heq⟩ := bind_ok_iff.mp hsteps
  rw [shown_of_read reads] at heq
  cases heq
  rw [(agrees_of_direct hp).verb] at reads
  cases p with
  | user q =>
    obtain ⟨served, hserved, rfl⟩ := map_ok_iff.mp hr
    obtain ⟨u, hu, rfl⟩ := Answer.shows_map_iff.mp shows
    exact (Service.effect_of_outcome hserved).mem_of_shows reads hu
  | group q =>
    obtain ⟨served, hserved, rfl⟩ := map_ok_iff.mp hr
    obtain ⟨g, hg, rfl⟩ := Answer.shows_map_iff.mp shows
    exact (Service.effect_of_outcome hserved).mem_of_shows reads hg

variable {α : Type} [Managed α] {side : Side α}

/-- What is found under an id stays as it is while no write to the id succeeds. -/
theorem Side.get?_after_unwritten [LawfulManaged α] (side : Side α) {id : String}
    {events : List Event} (untouched : ¬ Happened config s events Verb.isWrite side.kind id) :
    (side.store (after config s events)).get? id = (side.store s).get? id := by
  induction events using List.reverseRecOn with
  | nil => rfl
  | append_singleton events e ih =>
    rw [after_snoc, ← ih fun h => untouched (happened_snoc.mpr (.inl h))]
    rcases side.step config (after config s events) e with
      ⟨hsucceeds, hkind, hchange⟩ | ⟨-, heq⟩
    · by_cases hsubject : e.request.subject? e.occasion = some id
      · have hreads : e.request.verb.isWrite = false := by
          rw [← Bool.not_eq_true]
          exact fun hverb =>
            untouched (happened_snoc.mpr (.inr ⟨hsucceeds, hkind, hsubject, hverb⟩))
        rw [hchange.eq_of_read hreads]
      · exact hchange.get?_eq hsubject
    · rw [heq]

/-- What holds of the metadata of all records after a history, and of the versions that two reads
show, the one after the history and the other after more events. -/
structure MetadataDescribes (side : Side α) (config : Config) (events : List Event) : Prop where
  described : ∀ r ∈ (side.store (after config empty events)).records, Described config r
  sameVersion {later : List Event} {e e' : Event} {a a' : Answer AnyResource} {r r' : α}
      {id : String} :
    e.request.verb.isWrite = false → (serve config (after config empty events) e).1 = .ok a →
      a.Shows (side.wrap r) → Resource.id r = some id →
    e'.request.verb.isWrite = false →
      (serve config (after config empty (events ++ later)) e').1 = .ok a' →
      a'.Shows (side.wrap r') → Resource.id r' = some id →
    ¬ Happened config (after config empty events) later Verb.isWrite side.kind id →
      (Resource.metadata r').version = (Resource.metadata r).version

variable [LawfulManaged α] [Rewritable α]

theorem Side.Lawful.metadataDescribes (lawful : side.Lawful) (holds : side.HoldsOwn)
    (config : Config) (events : List Event) : MetadataDescribes side config events where
  described := lawful.forall_after fun _ _ _ _ _ _ hmeets kept =>
    hmeets.effect.change.described kept
  sameVersion {later e e' a a' r r' id} reads answered shows hid reads' answered' shows' hid'
      untouched := by
    have hkept := side.kept_after config side.kept_empty events
    have hkept' := side.kept_after config side.kept_empty (events ++ later)
    have hr := hkept.get?_of_mem (holds _ r (holds_of_read reads answered shows)) hid
    have hr' := hkept'.get?_of_mem (holds _ r' (holds_of_read reads' answered' shows')) hid'
    rw [after_append, side.get?_after_unwritten untouched, hr] at hr'
    rw [Option.some.inj hr']

/-- Stored metadata describe what is stored, for users and for groups, after every history from
empty stores. -/
theorem stored_metadata_describes (config : Config) (events : List Event) :
    MetadataDescribes users config events ∧ MetadataDescribes groups config events :=
  ⟨users_lawful.metadataDescribes users_holdOwn config events,
    groups_lawful.metadataDescribes groups_holdOwn config events⟩

end Directory

end Scim
