import Scim.Proofs.Asked
import Scim.Proofs.Lifecycle

/-!
# The latest write

Which ids are in use after a history, and which resource was last stored under each, said of the
events and their answers alone. The stores hold just these resources, in the order in which their
ids were handed out.
-/

namespace Scim

/-- Whether a request of the verb hands out an id. -/
def Verb.isCreation : Verb → Bool
  | .create => true
  | _ => false

namespace Directory

/-- The event at the place `n` of the history began what no later event has ended. -/
def Since (config : Config) (begins ends : Stores → Event → Prop) (events : List Event) (n : Nat) :
    Prop :=
  ∃ before e later, events = before ++ e :: later ∧ before.length = n ∧
    begins (after config empty before) e ∧
    ∀ between x rest, later = between ++ x :: rest →
      ¬ ends (after config empty (before ++ e :: between)) x

/-- The event succeeds, with a verb of the sort, for this kind and id. -/
def Did (config : Config) (sort : Verb → Bool) (kind : Kind) (id : String) (s : Stores)
    (e : Event) : Prop :=
  Succeeds config s e ∧ e.Does sort kind id

variable {α : Type} [Managed α]

/-- The id was handed out at the place `n` of the history, and not removed since. -/
def InUse (side : Side α) (config : Config) (events : List Event) (id : String) (n : Nat) : Prop :=
  Since config (Did config Verb.isCreation side.kind id) (Did config Verb.isRemoval side.kind id)
    events n

/-- The latest request that stored a resource under the id was answered with this resource by its
service, and the id was not removed since. -/
def LatestWrite (side : Side α) (config : Config) (events : List Event) (id : String) (r : α) :
    Prop :=
  ∃ n, Since config
    (fun s e => Did config Verb.isStoring side.kind id s e ∧ Yields config s e (side.wrap r))
    (fun s e => Did config Verb.isStoring side.kind id s e ∨
      Did config Verb.isRemoval side.kind id s e) events n

/-- The one id was handed out before the other. -/
def HandedOutBefore (side : Side α) (config : Config) (events : List Event)
    (a b : Option String) : Prop :=
  ∃ id m id' n, a = some id ∧ b = some id' ∧ InUse side config events id m ∧
    InUse side config events id' n ∧ m < n

/-! ## One event more -/

section Since

variable {config : Config} {begins ends : Stores → Event → Prop} {events : List Event} {e : Event}
  {n : Nat}

theorem not_since_nil : ¬ Since config begins ends [] n := by
  rintro ⟨before, e, later, heq, -⟩
  cases before with
  | nil => cases heq
  | cons x rest => cases heq

theorem Since.lt_length (h : Since config begins ends events n) : n < events.length := by
  obtain ⟨before, e, later, rfl, rfl, -⟩ := h
  rw [List.length_append, List.length_cons]
  omega

/-- What has begun goes on unless the last event ends it, and the last event may begin it. -/
theorem since_snoc : Since config begins ends (events ++ [e]) n ↔
    (Since config begins ends events n ∧ ¬ ends (after config empty events) e) ∨
      (n = events.length ∧ begins (after config empty events) e) := by
  constructor
  · rintro ⟨before, x, later, heq, rfl, hbegins, hlasts⟩
    rcases List.eq_nil_or_concat later with rfl | ⟨rest, last, rfl⟩
    · obtain ⟨rfl, hx⟩ := List.append_inj' heq rfl
      cases hx
      exact .inr ⟨rfl, hbegins⟩
    · rw [List.concat_eq_append, ← List.cons_append, ← List.append_assoc] at heq
      obtain ⟨rfl, hlast⟩ := List.append_inj' heq rfl
      cases hlast
      refine .inl ⟨⟨before, x, rest, rfl, rfl, hbegins, ?_⟩, ?_⟩
      · rintro between y others rfl
        exact hlasts between y (others ++ [e]) (by simp)
      · exact hlasts rest e [] (by simp)
  · rintro (⟨⟨before, x, later, rfl, rfl, hbegins, hlasts⟩, hgoesOn⟩ | ⟨rfl, hbegins⟩)
    · refine ⟨before, x, later ++ [e], by simp, rfl, hbegins, ?_⟩
      intro between y rest heq
      rcases List.eq_nil_or_concat rest with rfl | ⟨others, last, rfl⟩
      · obtain ⟨rfl, hy⟩ := List.append_inj' heq rfl
        cases hy
        exact hgoesOn
      · rw [List.concat_eq_append, ← List.cons_append, ← List.append_assoc] at heq
        obtain ⟨rfl, -⟩ := List.append_inj' heq rfl
        exact hlasts between y others rfl
    · refine ⟨events, e, [], rfl, rfl, hbegins, ?_⟩
      intro between x rest heq
      cases between with
      | nil => cases heq
      | cons y others => cases heq

end Since

theorem inUse_snoc {side : Side α} {config : Config} {events : List Event} {e : Event}
    {id : String} {n : Nat} : InUse side config (events ++ [e]) id n ↔
      (InUse side config events id n ∧
        ¬ Did config Verb.isRemoval side.kind id (after config empty events) e) ∨
      (n = events.length ∧ Did config Verb.isCreation side.kind id (after config empty events) e) :=
  since_snoc

theorem latestWrite_snoc {side : Side α} {config : Config} {events : List Event} {e : Event}
    {id : String} {r : α} : LatestWrite side config (events ++ [e]) id r ↔
      (LatestWrite side config events id r ∧
        ¬ (Did config Verb.isStoring side.kind id (after config empty events) e ∨
          Did config Verb.isRemoval side.kind id (after config empty events) e)) ∨
      (Did config Verb.isStoring side.kind id (after config empty events) e ∧
        Yields config (after config empty events) e (side.wrap r)) := by
  simp only [LatestWrite, since_snoc, exists_or, exists_and_right, exists_eq, true_and]

theorem not_inUse_nil {side : Side α} {config : Config} {id : String} {n : Nat} :
    ¬ InUse side config [] id n :=
  not_since_nil

end Directory

theorem Store.mem_ids_iff {α : Type} [Resource α] {s : Store α} {id : String} :
    some id ∈ s.records.map Resource.id ↔ ∃ r, s.get? id = some r := by
  rw [← containsId_iff]
  cases h : s.get? id with
  | none =>
    rw [get?_eq_none_iff.mp h]
    simp
  | some r => simp [containsId_of_get? h]

/-! ## What an operation leaves under its id -/

namespace Service

variable {α : Type}

/-- What is found under an id before and after a request about it, by its verb and its answer. -/
inductive Settles : Verb → Answer α → Option α → Option α → Prop
  | read {a : Answer α} {found : Option α} : Settles .retrieve a found found
  | created {r : α} : Settles .create (.resource r) none (some r)
  | overwritten {verb : Verb} {existing r : α} (hverb : verb = .replace ∨ verb = .update) :
      Settles verb (.resource r) (some existing) (some r)
  | removed {a : Answer α} {found : Option α} : Settles .delete a found none

namespace Settles

variable {verb : Verb} {a : Answer α} {found left : Option α}

/-- What is found afterwards was found before, or is the answer of a storing request. -/
theorem left_eq_iff (h : Settles verb a found left) (r : α) :
    left = some r ↔
      (found = some r ∧ ¬ (verb.isStoring = true ∨ verb.isRemoval = true)) ∨
        (verb.isStoring = true ∧ a = .resource r) := by
  cases h with
  | read => simp [Verb.isStoring, Verb.isRemoval]
  | created => simp [Verb.isStoring]
  | overwritten hverb => rcases hverb with rfl | rfl <;> simp [Verb.isStoring]
  | removed => simp [Verb.isStoring, Verb.isRemoval]

/-- Something is found afterwards if it was there and is not removed, or if it is new. -/
theorem exists_left_iff (h : Settles verb a found left) :
    (∃ r, left = some r) ↔
      ((∃ r, found = some r) ∧ ¬ verb.isRemoval = true) ∨ verb.isCreation = true := by
  cases h with
  | read => simp [Verb.isCreation, Verb.isRemoval]
  | created => simp [Verb.isCreation]
  | overwritten hverb => rcases hverb with rfl | rfl <;> simp [Verb.isCreation, Verb.isRemoval]
  | removed => simp [Verb.isCreation, Verb.isRemoval]

theorem found_of_isCreation (h : Settles verb a found left) (creates : verb.isCreation = true) :
    found = none := by
  cases h with
  | created => rfl
  | overwritten hverb => rcases hverb with rfl | rfl <;> cases creates
  | read => cases creates
  | removed => cases creates

/-- Something is found where it was just stored. -/
theorem exists_left_of_isStoring (h : Settles verb a found left) (stores : verb.isStoring = true) :
    ∃ r, left = some r := by
  cases h with
  | created => exact ⟨_, rfl⟩
  | overwritten _ => exact ⟨_, rfl⟩
  | read => cases stores
  | removed => cases stores

end Settles

theorem Overwrites.settles [Managed α] [LawfulManaged α] {config : Config} {o : Occasion}
    {s : Store α} {id : String} {existing r stored : α} {verb : Verb}
    (h : Overwrites config o s id existing r stored) (hverb : verb = .replace ∨ verb = .update) :
    Settles verb (.resource stored) (s.get? id)
      (Store.get? ⟨Store.replaceFirst id stored s.records⟩ id) := by
  rw [h.found, Store.get?_replaceFirst_self h.found h.id_stored]
  exact .overwritten hverb

theorem Effect.settles [Managed α] [LawfulManaged α] {config : Config} {o : Occasion}
    {s t : Store α} {q : Request α} {a : Answer α} {id : String} (h : Effect config o s q a t)
    (subject : q.subject? Resource.id o = some id) :
    Settles q.verb a (s.get? id) (t.get? id) := by
  cases h with
  | @created r _ _ _ freshId _ =>
    cases subject
    have hnone : s.get? o.freshId = none := Store.get?_eq_none_iff.mpr freshId
    have hsome : Store.get? ⟨s.records ++ [stampNew config o r]⟩ o.freshId =
        some (stampNew config o r) := by
      rw [Store.get?] at hnone ⊢
      rw [List.find?_append, hnone]
      simp [Store.hasId_iff]
    rw [hnone, hsome]
    exact .created
  | retrieved _ _ => exact .read
  | replaced hid overwrites =>
    rw [Request.subject?, ownId_ok_iff.mp hid] at subject
    cases subject
    exact overwrites.settles (.inl rfl)
  | updated target hid _ _ overwrites =>
    rw [Request.subject?, PatchMessage.address_of_target target, Option.bind_some,
      givenId?_of_resolve hid] at subject
    cases subject
    exact overwrites.settles (.inr rfl)
  | deleted hid =>
    rw [Request.subject?, givenId?_of_resolve hid] at subject
    cases subject
    have hnone : (s.delete id).get? id = none := by simp [Store.get?, Store.delete]
    rw [hnone]
    exact .removed
  | queried _ => cases subject

/-- A change takes some ids away, or adds the new one at the end. -/
theorem Change.ids [Managed α] [LawfulManaged α] {config : Config} {o : Occasion} {s t : Store α}
    {verb : Verb} {subject : Option String} (h : Change config o s verb subject t) :
    (t.records.map Resource.id).Sublist (s.records.map Resource.id) ∨
      (verb = .create ∧ ∃ id, subject = some id ∧
        t.records.map Resource.id = s.records.map Resource.id ++ [some id]) := by
  cases h with
  | none _ => exact .inl (List.Sublist.refl _)
  | @added r key _ _ _ =>
    refine .inr ⟨rfl, o.freshId, rfl, ?_⟩
    rw [List.map_append, List.map_singleton, id_stampNew]
  | @overwritten verb id existing r stored _ overwrites =>
    obtain ⟨front, back, heq, hnew, -⟩ := Store.replaceFirst_of_get? overwrites.found stored
    have hid := (Store.get?_eq_some overwrites.found).2
    have hsame : (Store.replaceFirst id stored s.records).map Resource.id =
        s.records.map Resource.id := by
      rw [hnew, heq]
      simp only [List.map_append, List.map_cons, overwrites.id_stored, hid]
    exact .inl (hsame ▸ List.Sublist.refl _)
  | removed => exact .inl (List.filter_sublist.map _)

end Service

namespace Directory

variable {α : Type} [Managed α]

section Meets

variable {side : Side α} {config : Config} {s : Stores} {e : Event} {q : Request α} {a : Answer α}
  {id : String} {sort : Verb → Bool}

theorem Side.Meets.did_iff (h : side.Meets config s e q a)
    (subject : e.request.subject? e.occasion = some id) :
    Did config sort side.kind id s e ↔ sort q.verb = true := by
  rw [← h.verb]
  exact ⟨fun hdid => hdid.2.verb, fun hsort => ⟨h.succeeds, h.kind, subject, hsort⟩⟩

theorem not_did_of_subject (subject : e.request.subject? e.occasion ≠ some id) :
    ¬ Did config sort side.kind id s e :=
  fun hdid => subject hdid.2.subject

theorem not_did_of_unmet (unmet : ¬ (Succeeds config s e ∧ e.request.kind? = some side.kind)) :
    ¬ Did config sort side.kind id s e :=
  fun hdid => unmet ⟨hdid.1, hdid.2.kind⟩

end Meets

namespace Side.Lawful

variable {side : Side α} [LawfulManaged α]

/-- An event settles what is found under an id, or does nothing about it. -/
theorem settles_or_eq (lawful : side.Lawful) (config : Config) (s : Stores) (e : Event)
    (id : String) :
    (∃ q a, side.Meets config s e q a ∧ e.request.subject? e.occasion = some id ∧
      Service.Settles q.verb a ((side.store s).get? id)
        ((side.store (serve config s e).2).get? id)) ∨
    ((∀ sort, ¬ Did config sort side.kind id s e) ∧
      (side.store (serve config s e).2).get? id = (side.store s).get? id) := by
  rcases lawful.step config s e with ⟨q, a, hmeets⟩ | ⟨unmet, heq⟩
  · by_cases hsubject : e.request.subject? e.occasion = some id
    · have hsettles := hmeets.effect.settles (hmeets.subject.symm.trans hsubject)
      exact .inl ⟨q, a, hmeets, hsubject, hsettles⟩
    · have hne := hmeets.subject ▸ hsubject
      exact .inr ⟨fun _ => not_did_of_subject hsubject, hmeets.effect.change.get?_eq hne⟩
  · exact .inr ⟨fun _ => not_did_of_unmet unmet, by rw [heq]⟩

/-- What is found under an id is the latest write. By induction on the history from its end. -/
theorem get?_after_iff (lawful : side.Lawful) (config : Config) (events : List Event) (id : String)
    (r : α) : (side.store (after config empty events)).get? id = some r ↔
      LatestWrite side config events id r := by
  induction events using List.reverseRecOn with
  | nil =>
    rw [after, List.foldl_nil, side.store_empty]
    refine iff_of_false (fun h => (by cases h)) ?_
    rintro ⟨_, h⟩
    exact not_since_nil h
  | append_singleton events e ih =>
    rw [after_snoc, latestWrite_snoc, ← ih]
    rcases lawful.settles_or_eq config (after config empty events) e id with
      ⟨q, a, hmeets, hsubject, hsettles⟩ | ⟨hnot, heq⟩
    · rw [hmeets.did_iff hsubject, hmeets.did_iff hsubject, hmeets.yields, hsettles.left_eq_iff]
    · simp [heq, hnot]

/-- An id is in use exactly if something is found under it. -/
theorem inUse_iff (lawful : side.Lawful) (config : Config) (events : List Event) (id : String) :
    (∃ n, InUse side config events id n) ↔
      ∃ r, (side.store (after config empty events)).get? id = some r := by
  induction events using List.reverseRecOn with
  | nil =>
    rw [after, List.foldl_nil, side.store_empty]
    refine iff_of_false ?_ ?_
    · rintro ⟨_, h⟩
      exact not_inUse_nil h
    · rintro ⟨_, h⟩
      cases h
  | append_singleton events e ih =>
    simp only [after_snoc, inUse_snoc, exists_or, exists_and_right, exists_eq, true_and, ih]
    rcases lawful.settles_or_eq config (after config empty events) e id with
      ⟨q, a, hmeets, hsubject, hsettles⟩ | ⟨hnot, heq⟩
    · rw [hmeets.did_iff hsubject, hmeets.did_iff hsubject, hsettles.exists_left_iff]
    · simp [heq, hnot]

/-- An id is not handed out while it is in use. -/
theorem get?_of_did_creation (lawful : side.Lawful) {config : Config} {s : Stores} {e : Event}
    {id : String} (h : Did config Verb.isCreation side.kind id s e) :
    (side.store s).get? id = none := by
  rcases lawful.settles_or_eq config s e id with ⟨q, a, hmeets, hsubject, hsettles⟩ | ⟨hnot, -⟩
  · exact hsettles.found_of_isCreation ((hmeets.did_iff hsubject).mp h)
  · exact absurd h (hnot Verb.isCreation)

/-- No id that is found was removed by the last event. -/
theorem not_removed (lawful : side.Lawful) {config : Config} {events : List Event} {e : Event}
    {id : String} {r : α}
    (h : (side.store (after config empty (events ++ [e]))).get? id = some r) :
    ¬ Did config Verb.isRemoval side.kind id (after config empty events) e := by
  intro hremoved
  rcases latestWrite_snoc.mp ((lawful.get?_after_iff config _ id r).mp h) with
    ⟨-, hnot⟩ | ⟨hstored, -⟩
  · exact hnot (.inr hremoved)
  · have hstores := hstored.2.verb
    have hremoves := hremoved.2.verb
    cases hverb : e.request.verb with
    | delete =>
      rw [hverb] at hstores
      cases hstores
    | _ =>
      rw [hverb] at hremoves
      cases hremoves

/-- An id is in use since one place of the history only. -/
theorem inUse_unique (lawful : side.Lawful) {config : Config} {events : List Event} {id : String}
    {m n : Nat} (hm : InUse side config events id m) (hn : InUse side config events id n) :
    m = n := by
  induction events using List.reverseRecOn with
  | nil => exact absurd hm not_inUse_nil
  | append_singleton events e ih =>
    have apart {k : Nat} (hk : InUse side config events id k)
        (hnew : Did config Verb.isCreation side.kind id (after config empty events) e) : False := by
      obtain ⟨r, hr⟩ := (lawful.inUse_iff config events id).mp ⟨k, hk⟩
      rw [lawful.get?_of_did_creation hnew] at hr
      cases hr
    rcases inUse_snoc.mp hm with ⟨hm, -⟩ | ⟨rfl, hnew⟩
    · rcases inUse_snoc.mp hn with ⟨hn, -⟩ | ⟨rfl, hnew⟩
      · exact ih hm hn
      · exact (apart hm hnew).elim
    · rcases inUse_snoc.mp hn with ⟨hn, -⟩ | ⟨rfl, -⟩
      · exact (apart hn hnew).elim
      · rfl

/-- An id stays in use since the same place as long as something is found under it. -/
theorem inUse_stays (lawful : side.Lawful) {config : Config} {events : List Event} {e : Event}
    {id : String} {n : Nat} (h : InUse side config events id n)
    (hid : some id ∈ (side.store (after config empty (events ++ [e]))).records.map Resource.id) :
    InUse side config (events ++ [e]) id n := by
  obtain ⟨r, hr⟩ := Store.mem_ids_iff.mp hid
  exact inUse_snoc.mpr (.inl ⟨h, lawful.not_removed hr⟩)

/-- The records stand in the order in which their ids were handed out. -/
theorem handedOut_in_order (lawful : side.Lawful) (config : Config) (events : List Event) :
    ((side.store (after config empty events)).records.map Resource.id).Pairwise
      (HandedOutBefore side config events) := by
  induction events using List.reverseRecOn with
  | nil =>
    rw [after, List.foldl_nil, side.store_empty]
    exact .nil
  | append_singleton events e ih =>
    have stays {ids : List (Option String)}
        (hsub : ∀ x ∈ ids,
          x ∈ (side.store (after config empty (events ++ [e]))).records.map Resource.id)
        (hids : ids.Pairwise (HandedOutBefore side config events)) :
        ids.Pairwise (HandedOutBefore side config (events ++ [e])) := by
      refine hids.imp_of_mem ?_
      rintro x y hx hy ⟨id, m, id', n, rfl, rfl, hm, hn, hlt⟩
      exact ⟨id, m, id', n, rfl, rfl, lawful.inUse_stays hm (hsub _ hx),
        lawful.inUse_stays hn (hsub _ hy), hlt⟩
    have hsnoc : after config empty (events ++ [e]) =
        (serve config (after config empty events) e).2 := after_snoc
    rcases lawful.step config (after config empty events) e with ⟨q, a, hmeets⟩ | ⟨-, heq⟩
    · rcases hmeets.effect.change.ids with hsub | ⟨hverb, id, hsubject, hids⟩
      · rw [← hsnoc] at hsub
        exact stays (fun x hx => hx) (ih.sublist hsub)
      · rw [← hsnoc] at hids
        have hnew : InUse side config (events ++ [e]) id events.length := by
          refine inUse_snoc.mpr (.inr ⟨rfl, hmeets.succeeds, hmeets.kind, ?_, ?_⟩)
          · exact hmeets.subject.trans hsubject
          · rw [hmeets.verb, hverb]
            rfl
        have hold := stays (fun x hx => hids ▸ List.mem_append_left _ hx) ih
        rw [hids, List.pairwise_append]
        refine ⟨hold, List.pairwise_singleton _ _, ?_⟩
        intro x hx y hy
        rw [List.mem_singleton.mp hy]
        obtain ⟨r, hr, rfl⟩ := List.mem_map.mp hx
        obtain ⟨id', hid'⟩ := (side.kept_after config side.kept_empty events).has_id r hr
        rw [hid'] at hx ⊢
        obtain ⟨n, hn⟩ := (lawful.inUse_iff config events id').mpr (Store.mem_ids_iff.mp hx)
        exact ⟨id', n, id, events.length, rfl, rfl,
          lawful.inUse_stays hn (hids ▸ List.mem_append_left _ hx), hnew, hn.lt_length⟩
    · rw [← hsnoc] at heq
      rw [heq]
      exact stays (fun x hx => heq ▸ hx) ih

end Side.Lawful

end Directory

end Scim
