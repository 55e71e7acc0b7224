import Scim.Proofs.History
import Scim.Proofs.TimeOrder

/-!
# The life of a record

From its creation to its removal a record keeps its id and its time of creation. Its time of
modification moves forward with every request that overwrites it and stands still otherwise. Nothing
is assumed of the readings of the clock, which may repeat or step back, nor of the metadata that the
callers send.
-/

namespace Scim

open Time (Instant)

variable {α : Type}

section Records

variable [Resource α]

/-- A record tells when it was created and, no earlier, when it was last modified. -/
def Dated (r : α) : Prop :=
  ∃ c m, (Resource.metadata r).created = some c ∧ (Resource.metadata r).lastModified = some m ∧
    c ≤ m

/-- The one record was last modified later than the other. -/
def ModifiedAfter (r' r : α) : Prop :=
  ∃ m m', (Resource.metadata r).lastModified = some m ∧
    (Resource.metadata r').lastModified = some m' ∧ m < m'

/-- A record at a later time, by whether it was overwritten in between. -/
structure Continues (overwritten : Prop) (r r' : α) : Prop where
  id : Resource.id r' = Resource.id r
  created : (Resource.metadata r').created = (Resource.metadata r).created
  modified : overwritten → ModifiedAfter r' r
  same : ¬ overwritten → r' = r

theorem ModifiedAfter.trans {r r' r'' : α} (h : ModifiedAfter r' r) (h' : ModifiedAfter r'' r') :
    ModifiedAfter r'' r := by
  obtain ⟨m, m', hm, hm', hlt⟩ := h
  obtain ⟨n, m'', hn, hm'', hlt'⟩ := h'
  rw [hm'] at hn
  cases hn
  exact ⟨m, m'', hm, hm'', Instant.lt_trans hlt hlt'⟩

theorem Continues.congr {p q : Prop} {r r' : α} (h : Continues p r r') (hpq : q ↔ p) :
    Continues q r r' :=
  ⟨h.id, h.created, fun hq => h.modified (hpq.mp hq), fun hq => h.same fun hp => hq (hpq.mpr hp)⟩

theorem continues_refl {p : Prop} (hp : ¬ p) (r : α) : Continues p r r :=
  ⟨rfl, rfl, fun h => absurd h hp, fun _ => rfl⟩

/-- A record that is overwritten once more. -/
theorem Continues.overwritten {p q : Prop} {r r' r'' : α} (h : Continues p r r')
    (h' : Continues True r' r'') (hq : q) : Continues q r r'' := by
  refine ⟨h'.id.trans h.id, h'.created.trans h.created, fun _ => ?_, fun hnot => absurd hq hnot⟩
  by_cases hp : p
  · exact (h.modified hp).trans (h'.modified trivial)
  · rw [← h.same hp]
    exact h'.modified trivial

end Records

namespace Service

variable [Managed α] [LawfulManaged α] {config : Config} {o : Occasion} {s t : Store α}

theorem dated_stampNew (config : Config) (o : Occasion) (r : α) : Dated (stampNew config o r) := by
  refine ⟨o.now, o.now, ?_, ?_, Instant.le_refl o.now⟩
  · rw [stampNew, created_finishMetadata, LawfulResource.metadata_withMetadata]
    rfl
  · rw [stampNew, lastModified_finishMetadata, LawfulResource.metadata_withMetadata]
    rfl

/-- The time of creation is taken over from the existing record, and the time of modification is
later than its own. -/
theorem Overwrites.continues {id : String} {existing r stored : α}
    (h : Overwrites config o s id existing r stored) (hdated : Dated existing) :
    Continues True existing stored ∧ Dated stored := by
  obtain ⟨c, m, hc, hm, hle⟩ := hdated
  obtain ⟨metadata, hmetadata, hstored⟩ := stampChanged_ok h.stamped
  rw [Metadata.forModification?, hm] at hmetadata
  obtain ⟨now, hnow, rfl⟩ := Option.map_eq_some_iff.mp hmetadata
  have hlt : m < now := Instant.lt_after? hnow
  have hcreated : (Resource.metadata stored).created = (Resource.metadata existing).created := by
    rw [hstored, created_finishMetadata, LawfulResource.metadata_withMetadata]
  have hmodified : (Resource.metadata stored).lastModified = some now := by
    rw [hstored, lastModified_finishMetadata, LawfulResource.metadata_withMetadata]
  refine ⟨⟨?_, hcreated, fun _ => ⟨m, now, hm, hmodified, hlt⟩, fun h => absurd trivial h⟩, ?_⟩
  · rw [h.id_stored, (Store.get?_eq_some h.found).2]
  · exact ⟨c, now, hcreated.trans hc, hmodified, Instant.le_of_le_of_lt hle hlt⟩

namespace Change

variable {verb : Verb} {subject : Option String}

/-- Every record stays dated. -/
theorem dated (h : Change config o s verb subject t) (hs : s.Kept)
    (hdated : ∀ r ∈ s.records, Dated r) : ∀ r ∈ t.records, Dated r := by
  intro r hr
  rcases h.mem_cases hs hr with ⟨hold, -⟩ | hwritten
  · exact hdated r hold
  cases hwritten with
  | new _ => exact dated_stampNew config o _
  | inPlace overwrites =>
    exact (overwrites.continues (hdated _ (Store.get?_eq_some overwrites.found).1)).2

/-- The record of an id that the change is not about stays as it is. -/
theorem get?_eq {id : String} (h : Change config o s verb subject t) (hne : subject ≠ some id) :
    t.get? id = s.get? id := by
  cases hsubject : subject with
  | none =>
    rw [hsubject] at h
    cases h with
    | none _ => rfl
  | some other =>
    rw [hsubject] at h hne
    exact Store.get?_of_beside h.beside_eq fun heq => hne (congrArg some heq.symm)

/-- A stored record that is not removed is overwritten or stays as it is. -/
theorem continues {id : String} {r : α} (h : Change config o s verb (some id) t)
    (hget : s.get? id = some r) (hdated : Dated r) (hverb : verb.isRemoval = false) :
    ∃ r', t.get? id = some r' ∧ Continues (verb.isOverwrite = true) r r' := by
  cases h with
  | none reads =>
    refine ⟨r, hget, continues_refl ?_ r⟩
    rw [Verb.isOverwrite_of_read reads]
    exact Bool.false_ne_true
  | added _ freshId _ =>
    rw [Store.containsId_of_get? hget] at freshId
    cases freshId
  | overwritten hoverwrite overwrites =>
    have hfound := overwrites.found
    rw [hget] at hfound
    cases hfound
    exact ⟨_, Store.get?_replaceFirst_self hget overwrites.id_stored,
      (overwrites.continues hdated).1.congr (iff_true_intro hoverwrite)⟩
  | removed => cases hverb

end Change

end Service

namespace Directory

variable [Managed α] [LawfulManaged α]

/-- After every history from stores whose records are dated, they are dated. -/
theorem Side.dated_after (side : Side α) (config : Config) {s : Stores} (hs : (side.store s).Kept)
    (hdated : ∀ r ∈ (side.store s).records, Dated r) (events : List Event) :
    ∀ r ∈ (side.store (after config s events)).records, Dated r := by
  induction events using List.reverseRecOn with
  | nil => exact hdated
  | append_singleton events e ih =>
    rw [after_snoc]
    rcases side.step config (after config s events) e with ⟨-, -, hchange⟩ | ⟨-, heq⟩
    · exact hchange.dated (side.kept_after config hs events) ih
    · rw [heq]
      exact ih

/-- A stored record that no request removes is still there after a history, overwritten or as it
was. By induction on the history from its end. -/
theorem Side.continues_after (side : Side α) (config : Config) {s : Stores}
    (hs : (side.store s).Kept) (hdated : ∀ r ∈ (side.store s).records, Dated r)
    (later : List Event) {id : String} {r : α} (hget : (side.store s).get? id = some r)
    (alive : ¬ Happened config s later Verb.isRemoval side.kind id) :
    ∃ r', (side.store (after config s later)).get? id = some r' ∧
      Continues (Happened config s later Verb.isOverwrite side.kind id) r r' := by
  induction later using List.reverseRecOn with
  | nil => exact ⟨r, hget, continues_refl not_happened_nil r⟩
  | append_singleton later e ih =>
    obtain ⟨r', hget', hcontinues⟩ := ih fun h => alive (happened_snoc.mpr (.inl h))
    rw [after_snoc]
    rcases side.step config (after config s later) e with
      ⟨hsucceeds, hkind, hchange⟩ | ⟨hnot, heq⟩
    · by_cases hsubject : e.request.subject? e.occasion = some id
      · rw [hsubject] at hchange
        have hremoval : e.request.verb.isRemoval = false := by
          rw [← Bool.not_eq_true]
          exact fun hverb => alive (happened_snoc.mpr (.inr ⟨hsucceeds, hkind, hsubject, hverb⟩))
        have hdated' : Dated r' :=
          side.dated_after config hs hdated later r' (Store.get?_eq_some hget').1
        obtain ⟨r'', hget'', hlast⟩ := hchange.continues hget' hdated' hremoval
        refine ⟨r'', hget'', ?_⟩
        by_cases hverb : e.request.verb.isOverwrite = true
        · exact hcontinues.overwritten (hlast.congr (iff_of_true trivial hverb))
            (happened_snoc.mpr (.inr ⟨hsucceeds, hkind, hsubject, hverb⟩))
        · rw [hlast.same hverb]
          exact hcontinues.congr (happened_snoc_of_not fun h => hverb h.2.verb)
      · refine ⟨r', ?_, hcontinues.congr (happened_snoc_of_not fun h => hsubject h.2.subject)⟩
        rw [hchange.get?_eq hsubject]
        exact hget'
    · refine ⟨r', ?_, hcontinues.congr (happened_snoc_of_not fun h => hnot ⟨h.1, h.2.kind⟩)⟩
      rw [heq]
      exact hget'

/-- What holds of the records of one side at some point of a history, and of the same records at any
later point. -/
structure Lifecycle (side : Side α) (config : Config) (before later : List Event) : Prop where
  dated : ∀ r ∈ (side.store (after config empty before)).records, Dated r
  continues : ∀ r ∈ (side.store (after config empty before)).records, ∃ id,
    Resource.id r = some id ∧
      (¬ Happened config (after config empty before) later Verb.isRemoval side.kind id →
        ∃ r', (side.store (after config empty (before ++ later))).get? id = some r' ∧
          Continues (Happened config (after config empty before) later Verb.isOverwrite side.kind id)
            r r')

theorem Side.lifecycle (side : Side α) (config : Config) (before later : List Event) :
    Lifecycle side config before later := by
  have hdated : ∀ r ∈ (side.store empty).records, Dated r := by
    rw [side.store_empty]
    intro r hr
    cases hr
  have hkept' := side.kept_after config side.kept_empty before
  have hdated' := side.dated_after config side.kept_empty hdated before
  refine ⟨hdated', ?_⟩
  intro r hr
  obtain ⟨id, hid⟩ := hkept'.has_id r hr
  refine ⟨id, hid, fun alive => ?_⟩
  rw [after_append]
  exact side.continues_after config hkept' hdated' later (hkept'.get?_of_mem hr hid) alive

/-- Every record of every history that starts from empty stores lives by these rules. -/
theorem records_live_by_lifecycle (config : Config) (before later : List Event) :
    Lifecycle users config before later ∧ Lifecycle groups config before later :=
  ⟨users.lifecycle config before later, groups.lifecycle config before later⟩

end Directory

end Scim
