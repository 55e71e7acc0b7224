import Scim.Proofs.Effect
import Scim.Proofs.Subject

/-!
# Changes of a store

All that a successful request can do to a store, with the verb and the id that it is about: nothing,
one new record at the end, one record overwritten where it stands, or the records of one id removed.
Invariants of a store are shown here, one case for each change.
-/

namespace Scim.Service

variable {α : Type} [Managed α]

inductive Change (config : Config) (o : Occasion) (s : Store α) :
    Verb → Option String → Store α → Prop
  | none {verb : Verb} {subject : Option String} (reads : verb.isWrite = false) :
      Change config o s verb subject s
  | added {r : α} {key : String} (hkey : requireNaturalKey r = .ok key)
      (freshId : s.containsId o.freshId = false) (freshKey : s.containsKey key = false) :
      Change config o s .create (some o.freshId) ⟨s.records ++ [stampNew config o r]⟩
  | overwritten {verb : Verb} {id : String} {existing r stored : α}
      (hverb : verb.isOverwrite = true) (overwrites : Overwrites config o s id existing r stored) :
      Change config o s verb (some id) ⟨Store.replaceFirst id stored s.records⟩
  | removed {id : String} : Change config o s .delete (some id) (s.delete id)

/-- A request changes the store by its verb, at the id that it is about. -/
theorem Effect.change {config : Config} {o : Occasion} {s t : Store α} {q : Request α}
    {a : Answer α} (h : Effect config o s q a t) :
    Change config o s q.verb (q.subject? Resource.id o) t := by
  cases h with
  | created _ hkey freshId freshKey => exact .added hkey freshId freshKey
  | retrieved _ _ => exact .none rfl
  | replaced hid overwrites =>
    rw [Request.subject?, ownId_ok_iff.mp hid]
    exact .overwritten rfl overwrites
  | updated target hid _ _ overwrites =>
    rw [Request.subject?, PatchMessage.address_of_target target, Option.bind_some,
      givenId?_of_resolve hid]
    exact .overwritten rfl overwrites
  | deleted hid =>
    rw [Request.subject?, givenId?_of_resolve hid]
    exact .removed
  | queried _ => exact .none rfl

theorem Change.eq_of_read {config : Config} {o : Occasion} {s t : Store α} {verb : Verb}
    {subject : Option String} (h : Change config o s verb subject t) (reads : verb.isWrite = false) :
    t = s := by
  cases h with
  | none _ => rfl
  | added _ _ _ => cases reads
  | overwritten hverb _ =>
    rw [Verb.isWrite_of_isOverwrite hverb] at reads
    cases reads
  | removed => cases reads

/-- A request that writes is about one id. -/
theorem Change.subject_of_isWrite {config : Config} {o : Occasion} {s t : Store α} {verb : Verb}
    {subject : Option String} (h : Change config o s verb subject t) (writes : verb.isWrite = true) :
    ∃ id, subject = some id := by
  cases h with
  | none reads =>
    rw [writes] at reads
    cases reads
  | added _ _ _ => exact ⟨_, rfl⟩
  | overwritten _ _ => exact ⟨_, rfl⟩
  | removed => exact ⟨_, rfl⟩

variable [LawfulManaged α]

/-- An overwritten record has the id and the natural key that it was written with. -/
theorem Overwrites.id_stored {config : Config} {o : Occasion} {s : Store α} {id : String}
    {existing r stored : α} (h : Overwrites config o s id existing r stored) :
    Resource.id stored = some id := by
  obtain ⟨m, -, rfl⟩ := stampChanged_ok h.stamped
  rw [id_finishMetadata, LawfulResource.id_withMetadata, h.sameId]

theorem Overwrites.naturalKey_stored {config : Config} {o : Occasion} {s : Store α} {id : String}
    {existing r stored : α} (h : Overwrites config o s id existing r stored) :
    Resource.naturalKey stored = Resource.naturalKey r := by
  obtain ⟨m, -, rfl⟩ := stampChanged_ok h.stamped
  rw [naturalKey_finishMetadata, LawfulResource.naturalKey_withMetadata]

/-- A record as a request has just written it: a new one, or one in place of another. -/
inductive Written (config : Config) (o : Occasion) (s : Store α) : α → Prop
  | new {r : α} {key : String} (hkey : requireNaturalKey r = .ok key) :
      Written config o s (stampNew config o r)
  | inPlace {id : String} {existing r stored : α}
      (overwrites : Overwrites config o s id existing r stored) : Written config o s stored

namespace Change

variable {config : Config} {o : Occasion} {s t : Store α} {verb : Verb} {subject : Option String}

/-- A change that is about one id leaves the records of all others, and their order. -/
theorem beside_eq {id : String} (h : Change config o s verb (some id) t) :
    t.beside id = s.beside id := by
  cases h with
  | none _ => rfl
  | added _ _ _ => exact Store.beside_append (id_stampNew config o _)
  | overwritten _ overwrites => exact Store.beside_replaceFirst overwrites.found overwrites.id_stored
  | removed => exact Store.beside_delete s id

omit [LawfulManaged α] in
/-- A record that is stored after a change was there before, unless it was just written. One that was
there before is not of the id that a storing change is about. -/
theorem mem_cases {r : α} (h : Change config o s verb subject t) (hs : s.Kept) (hr : r ∈ t.records) :
    (r ∈ s.records ∧ (verb.isStoring = true → subject ≠ Resource.id r)) ∨ Written config o s r := by
  cases h with
  | none reads =>
    refine .inl ⟨hr, fun hverb => ?_⟩
    rw [Verb.isStoring_of_read reads] at hverb
    cases hverb
  | added hkey freshId _ =>
    rcases List.mem_append.mp hr with hold | hnew
    · refine .inl ⟨hold, fun _ hid => ?_⟩
      have htaken : s.containsId o.freshId = true :=
        Store.containsId_iff.mpr (List.mem_map.mpr ⟨r, hold, hid.symm⟩)
      rw [freshId] at htaken
      cases htaken
    · rw [List.mem_singleton.mp hnew]
      exact .inr (.new hkey)
  | overwritten _ overwrites =>
    rcases hs.mem_replaceFirst overwrites.found hr with rfl | ⟨hold, hne⟩
    · exact .inr (.inPlace overwrites)
    · exact .inl ⟨hold, fun _ hid => hne hid.symm⟩
  | removed => exact .inl ⟨List.mem_of_mem_filter hr, fun hverb => (by cases hverb)⟩

theorem kept (h : Change config o s verb subject t) (hs : s.Kept) : t.Kept := by
  cases h with
  | none _ => exact hs
  | added hkey freshId freshKey =>
    refine hs.append (id_stampNew config o _) freshId fun key hname => ?_
    rw [naturalKey_stampNew, (requireNaturalKey_ok_iff.mp hkey).1] at hname
    cases hname
    exact freshKey
  | overwritten _ overwrites =>
    refine hs.replaceFirst overwrites.found overwrites.id_stored fun key hname => ?_
    obtain ⟨_, hkey, hbeside⟩ := overwrites.key
    rw [overwrites.naturalKey_stored, (requireNaturalKey_ok_iff.mp hkey).1] at hname
    cases hname
    exact hbeside
  | removed => exact hs.delete _

end Change

end Scim.Service
