import Scim.Proofs.Outcome

/-!
# What a success has found out

A request that succeeds has passed every check on its way. Here its outcome is taken apart into
those checks and the change to the store, one case for each kind of request, so that a property of
all requests has to be shown of these cases alone.
-/

namespace Scim.Service

open Fallible

variable {α : Type} [Managed α]

/-- A stored record is overwritten by `stored`, which is `r` stamped after the record it replaces. -/
structure Overwrites (config : Config) (o : Occasion) (s : Store α) (id : String)
    (existing r stored : α) : Prop where
  found : s.get? id = some existing
  sameId : Resource.id r = some id
  key : ∃ key, requireNaturalKey r = .ok key ∧ s.containsKeyBeside id key = false
  stamped : stampChanged config o id existing r = .ok stored

/-- Everything that a request can do to a store and still succeed, by its kind. -/
inductive Effect (config : Config) (o : Occasion) (s : Store α) :
    Request α → Answer α → Store α → Prop
  | created {r : α} {key : String} (unnamed : Resource.id r = none)
      (hkey : requireNaturalKey r = .ok key) (freshId : s.containsId o.freshId = false)
      (freshKey : s.containsKey key = false) :
      Effect config o s (.create r) (.resource (stampNew config o r))
        ⟨s.records ++ [stampNew config o r]⟩
  | retrieved {address : Address} {id : String} {r : α} (hid : resolve α address = .ok id)
      (found : s.get? id = some r) : Effect config o s (.retrieve address) (.resource r) s
  | replaced {r existing stored : α} {id : String} (hid : ownId r = .ok id)
      (overwrites : Overwrites config o s id existing (Resource.withId r id) stored) :
      Effect config o s (.replace r) (.resource stored) ⟨Store.replaceFirst id stored s.records⟩
  | updated {m : PatchMessage} {address : Address} {request : Patch.Request}
      {existing patched stored : α} {id : String} (target : m.target = .ok address)
      (hid : resolve α address = .ok id) (hrequest : m.request = .ok request)
      (applied : Patch.apply existing request = .ok patched)
      (overwrites : Overwrites config o s id existing patched stored) :
      Effect config o s (.update m) (.resource stored) ⟨Store.replaceFirst id stored s.records⟩
  | deleted {address : Address} {id : String} (hid : resolve α address = .ok id) :
      Effect config o s (.delete address) .nothing (s.delete id)
  | queried {q : Query} {results : List α} (selected : q.select s.records = .ok results) :
      Effect config o s (.query q) (.resources results) s

theorem retrieved_ok {config : Config} {o : Occasion} {address : Address} {r : α} {s : Store α}
    (h : retrieved o address s = .ok r) :
    Effect config o s (.retrieve address) (.resource r) s := by
  obtain ⟨-, -, h⟩ := bind_ok_iff.mp h
  obtain ⟨id, hid, h⟩ := bind_ok_iff.mp h
  exact .retrieved hid (find_ok_iff.mp h)

theorem queried_ok {config : Config} {o : Occasion} {q : Query} {results : List α} {s : Store α}
    (h : queried o q s = .ok results) : Effect config o s (.query q) (.resources results) s := by
  obtain ⟨-, -, h⟩ := bind_ok_iff.mp h
  obtain ⟨-, -, h⟩ := bind_ok_iff.mp h
  obtain ⟨-, -, h⟩ := bind_ok_iff.mp h
  exact .queried h

theorem deleted_ok {config : Config} {o : Occasion} {address : Address} {s t : Store α}
    (h : deleted address s = .ok ((), t)) : Effect config o s (.delete address) .nothing t := by
  obtain ⟨id, hid, heq⟩ := bind_ok_iff.mp h
  cases heq
  exact .deleted hid

theorem stampChanged_ok {config : Config} {o : Occasion} {id : String} {existing r stored : α}
    (h : stampChanged config o id existing r = .ok stored) :
    ∃ m, Metadata.forModification? (Resource.metadata existing) o.now = some m ∧
      stored = finishMetadata config id (Resource.withMetadata r m) := by
  rw [stampChanged] at h
  cases hm : Metadata.forModification? (Resource.metadata existing) o.now with
  | none =>
    rw [hm] at h
    cases h
  | some m =>
    rw [hm] at h
    exact ⟨m, rfl, (Except.ok.inj h).symm⟩

theorem requireNaturalKey_ok_iff {r : α} {key : String} :
    requireNaturalKey r = .ok key ↔
      Resource.naturalKey r = some key ∧ Text.isBlank key = false := by
  rw [requireNaturalKey]
  cases hk : Resource.naturalKey r with
  | none => exact ⟨fun h => (by cases h), fun h => (by cases h.1)⟩
  | some k =>
    cases hb : Text.isBlank k with
    | true =>
      simp only [hb]
      constructor
      · intro h
        cases h
      · rintro ⟨⟨⟩, h⟩
        rw [hb] at h
        cases h
    | false =>
      simp only [hb]
      constructor
      · intro h
        cases h
        exact ⟨rfl, hb⟩
      · rintro ⟨⟨⟩, -⟩
        rfl

variable [LawfulManaged α]

/-- Stamping sets the metadata and nothing else. -/
@[simp] theorem id_finishMetadata (config : Config) (id : String) (r : α) :
    Resource.id (finishMetadata config id r) = Resource.id r := by
  simp [finishMetadata]

@[simp] theorem naturalKey_finishMetadata (config : Config) (id : String) (r : α) :
    Resource.naturalKey (finishMetadata config id r) = Resource.naturalKey r := by
  simp [finishMetadata]

@[simp] theorem created_finishMetadata (config : Config) (id : String) (r : α) :
    (Resource.metadata (finishMetadata config id r)).created = (Resource.metadata r).created := by
  simp [finishMetadata]

@[simp] theorem lastModified_finishMetadata (config : Config) (id : String) (r : α) :
    (Resource.metadata (finishMetadata config id r)).lastModified =
      (Resource.metadata r).lastModified := by
  simp [finishMetadata]

@[simp] theorem resourceType_finishMetadata (config : Config) (id : String) (r : α) :
    (Resource.metadata (finishMetadata config id r)).resourceType =
      (Resource.metadata r).resourceType := by
  simp [finishMetadata]

theorem location_finishMetadata (config : Config) (id : String) (r : α) :
    (Resource.metadata (finishMetadata config id r)).location =
      some (config.resourceLocation (Resource.kind α).endpoint id) := by
  simp only [finishMetadata, LawfulResource.metadata_withMetadata]

@[simp] theorem id_stampNew (config : Config) (o : Occasion) (r : α) :
    Resource.id (stampNew config o r) = some o.freshId := by
  simp [stampNew]

@[simp] theorem naturalKey_stampNew (config : Config) (o : Occasion) (r : α) :
    Resource.naturalKey (stampNew config o r) = Resource.naturalKey r := by
  simp [stampNew]

theorem created_ok {config : Config} {o : Occasion} {r stored : α} {s t : Store α}
    (h : created config o r s = .ok (stored, t)) :
    Effect config o s (.create r) (.resource stored) t := by
  rw [created] at h
  cases hid : Resource.id r with
  | some id =>
    simp only [hid, Option.isSome_some, if_true] at h
    cases h
  | none =>
    simp only [hid, Option.isSome_none, Bool.false_eq_true, if_false] at h
    obtain ⟨key, hkey, h⟩ := bind_ok_iff.mp h
    cases htaken : s.containsKey key with
    | true =>
      simp only [htaken, if_true] at h
      cases h
    | false =>
      simp only [htaken, Bool.false_eq_true, if_false] at h
      obtain ⟨u, hu, h⟩ := bind_ok_iff.mp h
      cases h
      obtain ⟨id, hstored, hfresh, -, rfl⟩ := Store.create_ok_iff.mp (written_ok_iff.mp hu)
      rw [id_stampNew] at hstored
      cases hstored
      exact .created hid hkey hfresh htaken

/-- Nothing else stops a creation. -/
theorem created_of_free {config : Config} {o : Occasion} {r : α} {key : String} {s : Store α}
    (unnamed : Resource.id r = none) (hkey : requireNaturalKey r = .ok key)
    (freshId : s.containsId o.freshId = false) (freshKey : s.containsKey key = false) :
    created config o r s = .ok (stampNew config o r, ⟨s.records ++ [stampNew config o r]⟩) := by
  have hcreate : s.create (stampNew config o r) = .ok ⟨s.records ++ [stampNew config o r]⟩ := by
    refine Store.create_ok_iff.mpr ⟨o.freshId, id_stampNew config o r, freshId, fun k hk => ?_, rfl⟩
    rw [naturalKey_stampNew, (requireNaturalKey_ok_iff.mp hkey).1] at hk
    cases hk
    exact freshKey
  simp only [created, unnamed, Option.isSome_none, Bool.false_eq_true, if_false, hkey, ok_bind,
    freshKey, written_ok_iff.mpr hcreate]
  rfl

theorem overwritten_ok {config : Config} {o : Occasion} {id key : String} {existing r stored : α}
    {s t : Store α} (h : overwritten config o id key existing r s = .ok (stored, t))
    (found : s.get? id = some existing) (sameId : Resource.id r = some id)
    (hkey : requireNaturalKey r = .ok key) :
    Overwrites config o s id existing r stored ∧
      t = ⟨Store.replaceFirst id stored s.records⟩ := by
  obtain ⟨x, hx, h⟩ := bind_ok_iff.mp h
  obtain ⟨u, hu, h⟩ := bind_ok_iff.mp h
  cases h
  obtain ⟨-, hbeside, rfl⟩ := Store.update_ok_iff.mp (written_ok_iff.mp hu)
  obtain ⟨m, -, hstored⟩ := stampChanged_ok hx
  have hname : Resource.naturalKey stored = some key := by
    rw [hstored]
    simp [(requireNaturalKey_ok_iff.mp hkey).1]
  exact ⟨⟨found, sameId, ⟨key, hkey, hbeside key hname⟩, hx⟩, rfl⟩

theorem replaced_ok {config : Config} {o : Occasion} {r stored : α} {s t : Store α}
    (h : replaced config o r s = .ok (stored, t)) :
    Effect config o s (.replace r) (.resource stored) t := by
  obtain ⟨id, hid, h⟩ := bind_ok_iff.mp h
  obtain ⟨key, hkey, h⟩ := bind_ok_iff.mp h
  obtain ⟨existing, hfound, h⟩ := bind_ok_iff.mp h
  have hname : requireNaturalKey (Resource.withId r id) = .ok key := by
    rw [requireNaturalKey_ok_iff] at hkey ⊢
    simpa using hkey
  obtain ⟨overwrites, rfl⟩ := overwritten_ok h (find_ok_iff.mp hfound) (by simp) hname
  exact .replaced hid overwrites

theorem updated_ok {config : Config} {o : Occasion} {m : PatchMessage} {stored : α} {s t : Store α}
    (h : updated config o m s = .ok (stored, t)) :
    Effect config o s (.update m) (.resource stored) t := by
  obtain ⟨address, htarget, h⟩ := bind_ok_iff.mp h
  obtain ⟨id, hid, h⟩ := bind_ok_iff.mp h
  obtain ⟨request, hrequest, h⟩ := bind_ok_iff.mp h
  obtain ⟨existing, hfound, h⟩ := bind_ok_iff.mp h
  obtain ⟨patched, happlied, h⟩ := bind_ok_iff.mp h
  obtain ⟨key, hkey, h⟩ := bind_ok_iff.mp h
  have hget := find_ok_iff.mp hfound
  have hsame : Resource.id patched = some id :=
    (Patch.id_applyOperations happlied).trans (Store.get?_eq_some hget).2
  obtain ⟨overwrites, rfl⟩ := overwritten_ok h hget hsame hkey
  exact .updated (ofValidated_ok_iff.mp htarget) hid hrequest happlied overwrites

/-- A request that succeeds does what its kind can do, and nothing else. -/
theorem effect_of_outcome {config : Config} {o : Occasion} {s t : Store α} {q : Request α}
    {a : Answer α} (h : outcome config o s q = .ok (a, t)) : Effect config o s q a t := by
  cases q with
  | create r =>
    simp only [outcome, map_ok_iff, Prod.exists, Prod.mk.injEq] at h
    obtain ⟨stored, u, hu, rfl, rfl⟩ := h
    exact created_ok hu
  | retrieve address =>
    simp only [outcome, map_ok_iff, Prod.mk.injEq] at h
    obtain ⟨r, hr, rfl, rfl⟩ := h
    exact retrieved_ok hr
  | replace r =>
    simp only [outcome, map_ok_iff, Prod.exists, Prod.mk.injEq] at h
    obtain ⟨stored, u, hu, rfl, rfl⟩ := h
    exact replaced_ok hu
  | update m =>
    simp only [outcome, map_ok_iff, Prod.exists, Prod.mk.injEq] at h
    obtain ⟨stored, u, hu, rfl, rfl⟩ := h
    exact updated_ok hu
  | delete address =>
    simp only [outcome, map_ok_iff, Prod.exists, Prod.mk.injEq] at h
    obtain ⟨_, u, hu, rfl, rfl⟩ := h
    exact deleted_ok hu
  | query q =>
    simp only [outcome, map_ok_iff, Prod.mk.injEq] at h
    obtain ⟨results, hresults, rfl, rfl⟩ := h
    exact queried_ok hresults

end Scim.Service
