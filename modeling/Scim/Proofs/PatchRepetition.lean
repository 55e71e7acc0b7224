import Scim.Proofs.PatchFrame
import Scim.Proofs.PatchVerdict
import Scim.Proofs.WriteBack
import Scim.Proofs.WriteOutcomes

/-!
# Operations made twice

A caller who does not know whether a patch of one operation was made can send it again. What the
operation has made of a resource it leaves as it is: a value that is set is set already, entries that
are added are there, entries that are dropped are gone, and a name that was dropped with its last part
is built from no parts once more. Nothing is asked of the resource. The service that is sent the patch
again stamps the record anew, and that is all.
-/

namespace Scim

open Fallible
open Time (Instant)

theorem Name.setPart_setPart (n : Name) (part : Patch.NamePart) (value : Option String) :
    (n.setPart part value).setPart part value = n.setPart part value := by
  cases part <;> rfl

theorem User.setText_setText (u : User) (field : Patch.UserText) (value : Option String) :
    (u.setText field value).setText field value = u.setText field value := by
  cases field <;> rfl

namespace Patch

/-! ## Edits -/

namespace UserEdit

theorem apply_apply (e : UserEdit) (u : User) : e.apply (e.apply u) = e.apply u := by
  cases e with
  | setText field value => exact u.setText_setText field value
  | setActive value => rfl
  | setName value => rfl
  | setNamePart part value => simp only [apply, Name.getD_orNone, Name.setPart_setPart]
  | addEmails emails =>
    have again : emails.foldl User.insertEmail (emails.foldl User.insertEmail u.emails) =
        emails.foldl User.insertEmail u.emails := Keyed.foldl_insertNew_again u.emails emails
    simp only [apply, again]
  | setEmails emails => rfl
  | dropEmails values => simp only [apply, List.filter_filter, Bool.and_self]

theorem apply_withMetadata (e : UserEdit) (u : User) (m : Metadata) :
    e.apply { u with metadata := m } = { e.apply u with metadata := m } := by
  cases e with
  | setText field value => cases field <;> rfl
  | _ => rfl

end UserEdit

namespace GroupEdit

theorem apply_apply (e : GroupEdit) (g : Group) : e.apply (e.apply g) = e.apply g := by
  cases e with
  | setDisplayName value => rfl
  | setExternalId value => rfl
  | addMembers members =>
    have again : members.foldl Group.insertMember (members.foldl Group.insertMember g.members) =
        members.foldl Group.insertMember g.members :=
      Keyed.foldl_insertNew_again g.members members
    simp only [apply, Group.addMembers, again]
  | setMembers members => rfl
  | dropMembers values =>
    simp only [apply, foldl_removeMember, List.filter_filter, Bool.and_self]

theorem apply_withMetadata (e : GroupEdit) (g : Group) (m : Metadata) :
    e.apply { g with metadata := m } = { e.apply g with metadata := m } := by
  cases e with
  | dropMembers values => simp only [apply, foldl_removeMember]
  | _ => rfl

end GroupEdit

end Patch

/-- Types of resources on which an edit does once what it does however often. It does not look at the
metadata. -/
class Repeatable (α : Type) [Managed α] : Prop where
  edit_edit {o : Patch.Operation} {f : α → α} (h : Patchable.edit o = .ok f) (r : α) :
    f (f r) = f r
  edit_withMetadata {o : Patch.Operation} {f : α → α} (h : Patchable.edit o = .ok f) (r : α)
    (m : Metadata) : f (Resource.withMetadata r m) = Resource.withMetadata (f r) m

instance : Repeatable User where
  edit_edit h u := by
    obtain ⟨e, -, rfl⟩ := map_ok_iff.mp h
    exact e.apply_apply u
  edit_withMetadata h u m := by
    obtain ⟨e, -, rfl⟩ := map_ok_iff.mp h
    exact e.apply_withMetadata u m

instance : Repeatable Group where
  edit_edit h g := by
    obtain ⟨e, -, rfl⟩ := map_ok_iff.mp h
    exact e.apply_apply g
  edit_withMetadata h g m := by
    obtain ⟨e, -, rfl⟩ := map_ok_iff.mp h
    exact e.apply_withMetadata g m

variable {α : Type} [Managed α]

/-! ## Patches of one operation -/

namespace Patch

variable {q : Request} {o : Operation} {r p : α}

theorem apply_single (single : q.operations = [o]) (r : α) :
    apply r q = (Patchable.edit o).map fun edit => edit r := by
  rw [apply, single]
  exact apply_alone r o

variable [Repeatable α]

theorem apply_again (single : q.operations = [o]) (h : apply r q = .ok p) : apply p q = .ok p := by
  rw [apply_single single] at h ⊢
  obtain ⟨edit, hedit, rfl⟩ := map_ok_iff.mp h
  exact map_ok_iff.mpr ⟨edit, hedit, Repeatable.edit_edit hedit r⟩

/-- New metadata do not bring back anything to do. -/
theorem apply_again_stamped (single : q.operations = [o]) (h : apply r q = .ok p) (m : Metadata) :
    apply (Resource.withMetadata p m) q = .ok (Resource.withMetadata p m) := by
  have hagain := apply_again single h
  rw [apply_single single] at hagain ⊢
  obtain ⟨edit, hedit, heq⟩ := map_ok_iff.mp hagain
  exact map_ok_iff.mpr ⟨edit, hedit, (Repeatable.edit_withMetadata hedit p m).trans (by rw [heq])⟩

end Patch

/-! ## Patches sent again -/

/-- Whether a key is taken beside a record does not depend on the record. -/
theorem Store.containsKeyBeside_replaceFirst {s : Store α} {id : String} {x r : α}
    (found : s.get? id = some x) (sameId : Resource.id r = some id) (key : String) :
    Store.containsKeyBeside ⟨replaceFirst id r s.records⟩ id key = s.containsKeyBeside id key := by
  have eq_any (t : Store α) : t.containsKeyBeside id key = (t.beside id).any (hasKey key) := by
    rw [containsKeyBeside, beside, List.any_filter]
  rw [eq_any, eq_any, beside_replaceFirst found sameId]

namespace Service

variable [LawfulManaged α] [Rewritable α] {config : Config} {o : Occasion} {s t : Store α}
  {m : PatchMessage} {q : Patch.Request} {operation : Patch.Operation} {id : String} {r : α}

omit [LawfulManaged α] in
/-- Metadata that were set are the only part that is finished. -/
theorem finishMetadata_withMetadata (config : Config) (id : String) (r : α) (md : Metadata) :
    ∃ md', finishMetadata config id (Resource.withMetadata r md) = Resource.withMetadata r md' :=
  ⟨_, (Rewritable.withMetadata_withMetadata _ _ _).trans
    (Rewritable.withMetadata_withMetadata r md _)⟩

omit [LawfulManaged α] in
/-- What is stored is the new record with other metadata. -/
theorem Overwrites.exists_metadata {existing given stored : α}
    (overwrites : Overwrites config o s id existing given stored) :
    ∃ md, stored = Resource.withMetadata given md := by
  obtain ⟨md, -, hstored⟩ := stampChanged_ok overwrites.stamped
  obtain ⟨md', hfinished⟩ := finishMetadata_withMetadata config id given md
  exact ⟨md', hstored.trans hfinished⟩

/-- What is stored can be put in its own place at once. -/
theorem Overwrites.overwritten_again {existing given stored : α} {key : String}
    (overwrites : Overwrites config o s id existing given stored)
    (named : requireNaturalKey stored = .ok key) {o' : Occasion} {later : Instant}
    (hlater : Instant.after? (Resource.metadata stored).lastModified o'.now = some later) :
    ∃ version front back, Store.replaceFirst id stored s.records = front ++ stored :: back ∧
      overwritten config o' id key stored stored ⟨Store.replaceFirst id stored s.records⟩ =
        .ok (modifiedAt stored later version, ⟨front ++ modifiedAt stored later version :: back⟩) := by
  have hget := Store.get?_replaceFirst_self overwrites.found overwrites.id_stored
  have placed : (Resource.metadata stored).location =
      some (config.resourceLocation (Resource.kind α).endpoint id) := by
    obtain ⟨md, -, hstored⟩ := stampChanged_ok overwrites.stamped
    rw [hstored, location_finishMetadata]
  obtain ⟨key', hkey', free⟩ := overwrites.key
  have sameKey : key' = key := by
    obtain ⟨md, rfl⟩ := overwrites.exists_metadata
    rw [requireNaturalKey_ok_iff, LawfulResource.naturalKey_withMetadata] at named
    cases hkey'.symm.trans (requireNaturalKey_ok_iff.mpr named)
    rfl
  rw [sameKey, ← Store.containsKeyBeside_replaceFirst overwrites.found overwrites.id_stored] at free
  exact overwritten_self (o := o') hget placed hlater (requireNaturalKey_ok_iff.mp named).1 free

/-- The record that a patch of one operation has left is patched to itself, and then stamped. -/
theorem updated_again [Repeatable α] (asks : Asks α m id q) (single : q.operations = [operation])
    (first : updated config o m s = .ok (r, t)) :
    t.get? id = some r ∧ ∀ {o' : Occasion} {later : Instant},
      Instant.after? (Resource.metadata r).lastModified o'.now = some later →
      ∃ version front back, t.records = front ++ r :: back ∧
        updated config o' m t =
          .ok (modifiedAt r later version, ⟨front ++ modifiedAt r later version :: back⟩) := by
  rw [updated_eq asks] at first
  obtain ⟨existing, hfind, first⟩ := bind_ok_iff.mp first
  obtain ⟨patched, applied, first⟩ := bind_ok_iff.mp first
  obtain ⟨key, hkey, first⟩ := bind_ok_iff.mp first
  have found := find_ok_iff.mp hfind
  have sameId : Resource.id patched = some id :=
    (Patch.id_applyOperations applied).trans (Store.get?_eq_some found).2
  obtain ⟨overwrites, rfl⟩ := overwritten_ok first found sameId hkey
  obtain ⟨md, hr⟩ := overwrites.exists_metadata
  have again : Patch.apply r q = .ok r := hr ▸ Patch.apply_again_stamped single applied md
  have named : requireNaturalKey r = .ok key := by
    rw [requireNaturalKey_ok_iff] at hkey ⊢
    rwa [hr, LawfulResource.naturalKey_withMetadata]
  have hget := Store.get?_replaceFirst_self found overwrites.id_stored
  refine ⟨hget, fun {o' later} hlater => ?_⟩
  obtain ⟨version, front, back, hrecords, hoverwritten⟩ := overwrites.overwritten_again named hlater
  refine ⟨version, front, back, hrecords, ?_⟩
  rw [updated_eq asks, find_ok_iff.mpr hget, ok_bind, again, ok_bind, named, ok_bind, hoverwritten]

end Service

namespace Directory

/-- What comes of an operation that is made twice: on a resource, and through a directory, where the
record of the id is stamped once more and everything else stays. -/
structure Repeats (side : Side α) : Prop where
  again {q : Patch.Request} {operation : Patch.Operation} (single : q.operations = [operation])
    {r p : α} (h : Patch.apply r q = .ok p) : Patch.apply p q = .ok p
  retried {q : Patch.Request} {operation : Patch.Operation} (single : q.operations = [operation])
    {m : PatchMessage} {id : String} (asks : Service.Asks α m id q) {request : DirectoryRequest}
    (puts : side.Puts (.update m) request) {config : Config} {o : Occasion} {s t : Stores}
    {a : Answer AnyResource} (first : serve config s ⟨o, request⟩ = (.ok a, t)) :
    ∃ r, (side.store t).get? id = some r ∧ a = request.shown (.resource (side.wrap r)) ∧
      ∀ {o' : Occasion} {later : Instant},
        Instant.after? (Resource.metadata r).lastModified o'.now = some later →
        ∃ version front back, (side.store t).records = front ++ r :: back ∧
          serve config t ⟨o', request⟩ =
            (.ok (request.shown (.resource (side.wrap (modifiedAt r later version)))),
              side.put t ⟨front ++ modifiedAt r later version :: back⟩)

variable [LawfulManaged α] [Rewritable α] [Repeatable α] {side : Side α}

theorem Side.repeats (directs : side.Directs) : Repeats side where
  again single _ _ h := Patch.apply_again single h
  retried {q operation} single {m id} asks {request} puts {config o s t a} first := by
    have houtcome : outcome config o s request = .ok (a, t) := serve_eq_ok_iff.mp first
    rw [directs.outcome_puts config o s puts] at houtcome
    obtain ⟨⟨answer, u⟩, hservice, heq⟩ := map_ok_iff.mp houtcome
    obtain ⟨⟨r, u'⟩, hupdated, heq'⟩ := map_ok_iff.mp hservice
    cases heq
    cases heq'
    obtain ⟨hget, hagain⟩ := Service.updated_again asks single hupdated
    rw [side.store_put]
    refine ⟨r, hget, rfl, fun {o' later} hlater => ?_⟩
    obtain ⟨version, front, back, hrecords, hretried⟩ := hagain hlater
    refine ⟨version, front, back, hrecords, serve_of_ok ?_⟩
    rw [directs.outcome_puts config o' _ puts, side.store_put, Service.outcome, hretried]
    rfl

/-- Operations can be made twice on every user and on every group. -/
theorem operations_repeat : Repeats users ∧ Repeats groups :=
  ⟨Side.repeats users_direct, Side.repeats groups_direct⟩

/-- A group that lists a member twice is sent another one twice. -/
theorem operations_repeat_new_member :
    let q : Patch.Request := .ofOperations [.add " Members" (.obj [("value", .str "u2")])]
    let m : PatchMessage := ⟨some ⟨"Group", " g1 "⟩, some (.operations q)⟩
    let u1 : Member := ⟨"u1", none, none⟩
    let g : Group := { Group.named "Tour Guides" with id := some "g1", members := [u1, u1] }
    let p : Group := { g with members := [u1, u1, ⟨"u2", none, none⟩] }
    let s : Stores := ⟨Store.empty, ⟨[g]⟩⟩
    let e : Event := ⟨newYear, .groups (.update m)⟩
    Patch.apply g q = .ok p ∧ Patch.apply p q = .ok p ∧ fault? Config.default s e = none ∧
      ∃ r, (serve Config.default s e).2.groups.get? "g1" = some r ∧
        ∀ {o' : Occasion} {later : Instant},
          Instant.after? r.metadata.lastModified o'.now = some later →
          ∃ version front back, (serve Config.default s e).2.groups.records = front ++ r :: back ∧
            serve Config.default (serve Config.default s e).2 ⟨o', .groups (.update m)⟩ =
              (.ok (.resource (.group (modifiedAt r later version))),
                groups.put (serve Config.default s e).2
                  ⟨front ++ modifiedAt r later version :: back⟩) := by
  intro q m u1 g p s e
  have applied : Patch.apply g q = .ok p := rfl
  have hfault : fault? Config.default s e = none := by decide +kernel
  have asks : Service.Asks Group m "g1" q :=
    ⟨⟨⟨"Group", " g1 "⟩, rfl, by decide +kernel, by decide⟩, rfl⟩
  obtain ⟨a, ha⟩ := failure?_eq_none_iff.mp hfault
  have first : serve Config.default s e = (.ok a, (serve Config.default s e).2) := Prod.ext ha rfl
  refine ⟨applied, operations_repeat.2.again rfl applied, hfault, ?_⟩
  obtain ⟨r, hget, -, hagain⟩ := operations_repeat.2.retried rfl asks (.asked _) first
  exact ⟨r, hget, hagain⟩

end Directory

end Scim
