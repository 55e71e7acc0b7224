import Scim.Proofs.JsonText
import Scim.Proofs.Lifecycle
import Scim.Proofs.ResourceForm
import Scim.Proofs.StoredMetadata
import Scim.Proofs.TagDigest

/-!
# The content of a version

The version of a record is the tag of its content: the text that it has without a version. The text
of a resource can be read back, so that it tells the whole resource, down to the time at which it
was last modified. That time moves forward with every write, and so no content of a record comes
back in its life. Where a version does come back all the same, two contents have collided. A write
that is refused gives the record no content, whatever was found on the way to the refusal.
-/

namespace Scim

/-! ## Texts of resources -/

namespace Json

theorem plain_present {slots : List (String × Option Json)}
    (plain : ∀ slot ∈ slots, ∀ v, slot.2 = some v → v.Plain) :
    (Json.obj (present slots)).Plain := by
  refine .obj fun f hf => ?_
  exact plain (f.1, some f.2) (mem_present_iff.mp hf) f.2 rfl

theorem plain_list {β : Type} {encode : β → Json} (plain : ∀ b, (encode b).Plain) (bs : List β) :
    (Json.arr (bs.map encode)).Plain := by
  refine .arr fun v hv => ?_
  obtain ⟨b, -, rfl⟩ := List.mem_map.mp hv
  exact plain b

end Json

open Json (plain_present plain_list)

theorem Time.Instant.plain_encode (t : Instant) : t.encode.Plain :=
  .str t.text

theorem Name.plain_encode (n : Name) : n.encode.Plain := by
  rw [encode_eq]
  refine plain_present ?_
  simp [slots, Json.Plain.str]

theorem Email.plain_encode (e : Email) : e.encode.Plain := by
  rw [encode_eq]
  refine plain_present ?_
  simp [slots, Json.Plain.str, Json.Plain.bool]

theorem Member.plain_encode (m : Member) : m.encode.Plain := by
  rw [encode_eq]
  refine plain_present ?_
  simp [slots, Json.Plain.str]

theorem Metadata.plain_encode (m : Metadata) : m.encode.Plain := by
  rw [encode_eq]
  refine plain_present ?_
  simp [slots, Json.Plain.str, Time.Instant.plain_encode]

theorem User.plain_encode (u : User) : u.encode.Plain := by
  rw [encode_eq]
  refine plain_present ?_
  simp [slots, Json.Plain.str, Json.Plain.bool, Encode.texts, plain_list, Name.plain_encode,
    Email.plain_encode, Metadata.plain_encode]

theorem Group.plain_encode (g : Group) : g.encode.Plain := by
  rw [encode_eq]
  refine plain_present ?_
  simp [slots, Json.Plain.str, Encode.texts, plain_list, Member.plain_encode, Metadata.plain_encode]

/-- Types of resources that can be read back from their text. -/
class Legible (α : Type) [Resource α] : Prop where
  plain (r : α) : (Resource.encode r).Plain
  back (r : α) : Resource.decode (Resource.encode r).sorted = .ok r

instance : Legible User where
  plain := User.plain_encode
  back := User.codec.back

instance : Legible Group where
  plain := Group.plain_encode
  back := Group.codec.back

section Records

variable {α : Type} [Resource α] [Legible α] {r r' : α}

/-- The text of a resource, read and decoded, is the resource again. -/
theorem decode_text (r : α) :
    ∃ v, Json.read (Resource.text r) = some v ∧ Resource.decode v = .ok r :=
  ⟨(Resource.encode r).sorted, (Legible.plain r).read_print, Legible.back r⟩

/-- Resources with the same text, octet for octet, are the same. -/
theorem eq_of_text (h : (Resource.text r).toUTF8 = (Resource.text r').toUTF8) : r = r' := by
  obtain ⟨v, hread, hdecode⟩ := decode_text r
  obtain ⟨v', hread', hdecode'⟩ := decode_text r'
  rw [String.toByteArray_inj.mp h, hread'] at hread
  cases hread
  rw [hdecode'] at hdecode
  exact (Except.ok.inj hdecode).symm

/-- What the version of a record is the tag of. -/
def content (r : α) : String :=
  Resource.text (unversioned r)

/-- A record that was modified after another has another content. -/
theorem content_ne_of_modifiedAfter [LawfulResource α] (h : ModifiedAfter r' r) :
    content r' ≠ content r := by
  intro heq
  have hsame : unversioned r' = unversioned r := eq_of_text (congrArg String.toUTF8 heq)
  have hmodified (x : α) :
      (Resource.metadata (unversioned x)).lastModified = (Resource.metadata x).lastModified := by
    rw [unversioned, LawfulResource.metadata_withMetadata]
  obtain ⟨m, m', hm, hm', hlt⟩ := h
  have hboth : some m' = some m := by
    rw [← hm', ← hm, ← hmodified r', hsame, hmodified r]
  rw [Option.some.inj hboth, Time.Instant.lt_iff] at hlt
  omega

end Records

/-! ## Contents along a history -/

namespace Service

variable {α : Type} [Managed α] {config : Config} {o : Occasion} {s t : Store α}

/-- What is stored under the id of a stored record is put in its place. -/
theorem Change.isOverwrite_of_stored {verb : Verb} {id : String} {r : α}
    (h : Change config o s verb (some id) t) (stored : s.get? id = some r)
    (stores : verb.isStoring = true) : verb.isOverwrite = true := by
  cases h with
  | none reads =>
    rw [Verb.isStoring_of_read reads] at stores
    cases stores
  | added _ freshId _ =>
    rw [Store.containsId_of_get? stored] at freshId
    cases freshId
  | overwritten overwrites _ => exact overwrites
  | removed => cases stores

end Service

namespace Directory

/-- Whether the event succeeds can be told from its answer. -/
instance (config : Config) (s : Stores) (e : Event) : Decidable (Succeeds config s e) :=
  match h : (serve config s e).1 with
  | .ok a => isTrue ⟨a, h⟩
  | .error _ => isFalse fun ⟨_, ha⟩ => (by rw [h] at ha; cases ha)

instance (config : Config) (sort : Verb → Bool) (kind : Kind) (id : String) (s : Stores)
    (e : Event) : Decidable (Did config sort kind id s e) :=
  decidable_of_iff (Succeeds config s e ∧ e.request.kind? = some kind ∧
      e.request.subject? e.occasion = some id ∧ sort e.request.verb = true)
    ⟨fun ⟨succeeds, kind, subject, verb⟩ => ⟨succeeds, kind, subject, verb⟩,
      fun h => ⟨h.1, h.2.kind, h.2.subject, h.2.verb⟩⟩

variable {α : Type} [Managed α] (side : Side α) {config : Config} {s : Stores} {id : String}

/-- What happens after an event happens in the history that starts with it. -/
theorem happened_cons {e : Event} {later : List Event} {sort : Verb → Bool} {kind : Kind}
    (h : Happened config (serve config s e).2 later sort kind id) :
    Happened config s (e :: later) sort kind id := by
  obtain ⟨before, x, rest, rfl, hsucceeds, hdoes⟩ := h
  exact ⟨e :: before, x, rest, rfl, hsucceeds, hdoes⟩

/-- What happens in a history happens in every continuation of it. -/
theorem Happened.append {events : List Event} {sort : Verb → Bool} {kind : Kind}
    (h : Happened config s events sort kind id) (later : List Event) :
    Happened config s (events ++ later) sort kind id := by
  obtain ⟨before, x, rest, rfl, hx⟩ := h
  exact ⟨before, x, rest ++ later, by rw [List.append_assoc, List.cons_append], hx⟩

/-- The contents of the record of an id in the course of a history, one for each event that stores
the record. These are what its versions are found from. -/
def Side.contents (config : Config) (id : String) : Stores → List Event → List String
  | _, [] => []
  | s, e :: later =>
    let next := (serve config s e).2
    let stored := ((side.store next).get? id).toList
    if Did config Verb.isStoring side.kind id s e then
      stored.map content ++ contents config id next later
    else contents config id next later

/-- A content comes from an event that stores the record. -/
theorem Side.exists_of_mem_contents {c : String} {events : List Event}
    (h : c ∈ side.contents config id s events) :
    ∃ before e later r, events = before ++ e :: later ∧
      Did config Verb.isStoring side.kind id (after config s before) e ∧
      (side.store (serve config (after config s before) e).2).get? id = some r ∧ content r = c := by
  induction events generalizing s with
  | nil => cases h
  | cons e later ih =>
    have hlater (h : c ∈ side.contents config id (serve config s e).2 later) :
        ∃ before x rest r, e :: later = before ++ x :: rest ∧
          Did config Verb.isStoring side.kind id (after config s before) x ∧
          (side.store (serve config (after config s before) x).2).get? id = some r ∧
          content r = c := by
      obtain ⟨before, x, rest, r, rfl, hx⟩ := ih h
      exact ⟨e :: before, x, rest, r, rfl, hx⟩
    rw [contents] at h
    split at h
    · next hstores =>
      rcases List.mem_append.mp h with hnow | hthen
      · obtain ⟨r, hr, rfl⟩ := List.mem_map.mp hnow
        exact ⟨[], e, later, r, rfl, hstores, Option.mem_toList.mp hr, rfl⟩
      · exact hlater hthen
    · exact hlater h

/-- An event that stores a record leaves it there, and its content is among the contents. -/
theorem Side.Lawful.content_mem_contents [LawfulManaged α] {side : Side α} (lawful : side.Lawful)
    (s : Stores) (before later : List Event) {e : Event}
    (stores : Did config Verb.isStoring side.kind id (after config s before) e) :
    ∃ r, (side.store (serve config (after config s before) e).2).get? id = some r ∧
      content r ∈ side.contents config id s (before ++ e :: later) := by
  induction before generalizing s with
  | nil =>
    rcases lawful.settles_or_eq config s e id with ⟨q, a, hmeets, hsubject, hsettles⟩ | ⟨hnot, -⟩
    · have hverb : q.verb.isStoring = true := (hmeets.did_iff hsubject).mp stores
      obtain ⟨r, hr⟩ := hsettles.exists_left_of_isStoring hverb
      refine ⟨r, hr, ?_⟩
      have hnow : Did config Verb.isStoring side.kind id s e := stores
      rw [List.nil_append, contents, if_pos hnow, hr]
      exact List.mem_append_left _ List.mem_cons_self
    · exact absurd stores (hnot _)
  | cons x before ih =>
    obtain ⟨r, hr, hmem⟩ := ih (serve config s x).2 stores
    refine ⟨r, hr, ?_⟩
    rw [List.cons_append, contents]
    split
    · exact List.mem_append_right _ hmem
    · exact hmem

variable [LawfulManaged α] [Legible α]

/-- The record of an id and what a later event puts in its place differ in their contents. -/
theorem Side.content_ne_later {before : List Event} {e : Event} {r r' : α}
    (hs : (side.store s).Kept) (hdated : ∀ x ∈ (side.store s).records, Dated x)
    (found : (side.store s).get? id = some r)
    (alive : ¬ Happened config s (before ++ [e]) Verb.isRemoval side.kind id)
    (stores : Did config Verb.isStoring side.kind id (after config s before) e)
    (found' : (side.store (serve config (after config s before) e).2).get? id = some r') :
    content r' ≠ content r := by
  obtain ⟨x, hx, -⟩ := side.continues_after config hs hdated before found
    fun h => alive (happened_snoc.mpr (.inl h))
  obtain ⟨y, hy, hcontinues⟩ := side.continues_after config hs hdated (before ++ [e]) found alive
  rw [after_snoc, found'] at hy
  cases hy
  obtain ⟨succeeds, does⟩ := stores
  refine content_ne_of_modifiedAfter (hcontinues.modified (happened_snoc.mpr (.inr ⟨succeeds, ?_⟩)))
  rcases side.step config (after config s before) e with ⟨-, -, hchange⟩ | ⟨hnot, -⟩
  · rw [does.subject] at hchange
    exact ⟨does.kind, does.subject, hchange.isOverwrite_of_stored hx does.verb⟩
  · exact absurd ⟨succeeds, does.kind⟩ hnot

/-- While a record is not removed, its contents are pairwise different. By induction on the history:
the content of its first event comes in none of the later ones. -/
theorem Side.nodup_contents (hs : (side.store s).Kept)
    (hdated : ∀ x ∈ (side.store s).records, Dated x) (life : List Event)
    (alive : ¬ Happened config s life Verb.isRemoval side.kind id) :
    (side.contents config id s life).Nodup := by
  induction life generalizing s with
  | nil => exact List.nodup_nil
  | cons e later ih =>
    have hs' : (side.store (serve config s e).2).Kept := side.kept_after config hs [e]
    have hdated' : ∀ x ∈ (side.store (serve config s e).2).records, Dated x :=
      side.dated_after config hs hdated [e]
    have alive' : ¬ Happened config (serve config s e).2 later Verb.isRemoval side.kind id :=
      fun h => alive (happened_cons h)
    have hrest := ih hs' hdated' alive'
    rw [contents]
    split
    · cases hget : (side.store (serve config s e).2).get? id with
      | none => exact hrest
      | some r =>
        refine List.nodup_cons.mpr ⟨fun hmem => ?_, hrest⟩
        obtain ⟨before, x, rest, r', rfl, hstores, hget', heq⟩ := side.exists_of_mem_contents hmem
        refine side.content_ne_later hs' hdated' hget (fun h => alive' ?_) hstores hget' heq
        rw [List.append_cons]
        exact h.append rest
    · exact hrest

/-- What the versions of the records of one side tell, in every history from empty stores. -/
structure Side.VersionsTell (config : Config) : Prop where
  /-- The text of a resource tells the resource. -/
  text (r r' : α) : (Resource.text r).toUTF8 = (Resource.text r').toUTF8 → r = r'
  /-- The version of a record is the tag of its content. -/
  tagged (events : List Event) : ∀ r ∈ (side.store (after config empty events)).records,
    (Resource.metadata r).version = some (EntityTag.ofContent (content r))
  /-- Every event that stores a record adds a content, that of the record as it is then. -/
  stored (s : Stores) (before later : List Event) (id : String) {e : Event} :
    Did config Verb.isStoring side.kind id (after config s before) e →
      ∃ r, (side.store (serve config (after config s before) e).2).get? id = some r ∧
        content r ∈ side.contents config id s (before ++ e :: later)
  /-- No content of a record comes back while the record lives. -/
  distinct (before life : List Event) (id : String) :
    ¬ Happened config (after config empty before) life Verb.isRemoval side.kind id →
      (side.contents config id (after config empty before) life).Nodup
  /-- Where a version comes back, the record is as it was or two contents have collided. -/
  repeats (before life : List Event) (id : String) {r r' : α} :
    ¬ Happened config (after config empty before) life Verb.isRemoval side.kind id →
      (side.store (after config empty before)).get? id = some r →
      (side.store (after config empty (before ++ life))).get? id = some r' →
      (Resource.metadata r').version = (Resource.metadata r).version →
        r' = r ∨ EntityTag.Collide (content r') (content r)

theorem Side.Lawful.versionsTell [Rewritable α] {side : Side α} (lawful : side.Lawful)
    (holds : side.HoldsOwn) (config : Config) : side.VersionsTell config := by
  have tagged (events : List Event) : ∀ r ∈ (side.store (after config empty events)).records,
      (Resource.metadata r).version = some (EntityTag.ofContent (content r)) :=
    fun r hr => ((lawful.metadataDescribes holds config events).described r hr).version
  have lifecycle (before : List Event) := side.lifecycle config before []
  have kept (before : List Event) := side.kept_after config side.kept_empty before
  refine ⟨fun r r' => eq_of_text, tagged,
    fun s before later _ _ => lawful.content_mem_contents s before later, ?_, ?_⟩
  · intro before life id alive
    exact side.nodup_contents (kept before) (lifecycle before).dated life alive
  · intro before life id r r' alive hget hget' hversion
    rw [tagged _ r (Store.get?_eq_some hget).1,
      tagged _ r' (Store.get?_eq_some hget').1] at hversion
    rcases EntityTag.eq_or_collide (Option.some.inj hversion) with hcontent | hcollide
    · rw [after_append] at hget'
      obtain ⟨x, hx, hcontinues⟩ :=
        side.continues_after config (kept before) (lifecycle before).dated life hget alive
      rw [hget'] at hx
      cases hx
      refine .inl (hcontinues.same fun overwritten => ?_)
      exact content_ne_of_modifiedAfter (hcontinues.modified overwritten) hcontent
    · exact .inr hcollide

/-- Versions tell contents, for users and for groups. -/
theorem versions_tell_contents (config : Config) :
    users.VersionsTell config ∧ groups.VersionsTell config :=
  ⟨users_lawful.versionsTell users_holdOwn config, groups_lawful.versionsTell groups_holdOwn config⟩

/-- A user that is put in its own place, at the same reading of the clock, gets another content. -/
example :
    let created : Event := ⟨newYear, .users (.create (User.named "ada"))⟩
    let replaced : Event :=
      ⟨newYear, .users (.replace { User.named "ada" with id := some newYear.freshId })⟩
    (users.contents Config.default newYear.freshId empty [created, replaced]).length = 2 := by
  decide +kernel

end Directory

end Scim
