import Scim.Proofs.KeyQuery
import Scim.Proofs.LatestWrite

/-!
# Reads reflect the history

A retrieval answers the latest write of the id that it asks for, and fails if the id is not in use.
A query answers the latest writes of all ids in use that satisfy its filters, in the order in which
the ids were handed out, cut by its pagination. Both hold on either way into a directory.
-/

namespace Scim

open Fallible

theorem Verb.eq_create_of_isCreation {verb : Verb} (h : verb.isCreation = true) :
    verb = .create := by
  cases verb with
  | create => rfl
  | _ => cases h

/-- A creation is about the id that is generated for it. -/
theorem DirectoryRequest.subject?_of_create {o : Occasion} {q : DirectoryRequest}
    (h : q.verb = .create) : q.subject? o = some o.freshId := by
  have created {α : Type} (idOf : α → Option String) (q : Request α) (h : q.verb = .create) :
      q.subject? idOf o = some o.freshId := by
    cases q with
    | create _ => rfl
    | _ => cases h
  cases q with
  | routed q => exact created AnyResource.id q h
  | users q => exact created User.id q h
  | groups q => exact created Group.id q h

/-- What pagination leaves of a list of results. -/
def Pagination.cut {α : Type} : Option Pagination → List α → List α
  | none, results => results
  | some ⟨none⟩, _ => []
  | some ⟨some n⟩, results => results.take n

theorem Query.limit_eq_cut {α : Type} (q : Query) (results : List α) :
    q.limit results = Pagination.cut q.pagination results := by
  rw [limit]
  cases q.pagination with
  | none => rfl
  | some p =>
    obtain ⟨count⟩ := p
    cases count with
    | none => exact List.take_zero
    | some n => rfl

/-! ## One service -/

namespace Service

variable {α : Type} [Managed α] {o : Occasion} {s : Store α}

theorem retrieved_ok_iff {address : Address} {r : α} (context : Text.isBlank o.requestId = false)
    (schema : checkSchema α address.schemaIdentifier = .ok ()) :
    retrieved o address s = .ok r ↔
      ∃ id, givenId? address.identifier = some id ∧ s.get? id = some r := by
  have hsteps : retrieved o address s = Fault.ofValidated address.id? >>= find s := by
    simp only [retrieved, resolve, validateRequestId_of_not_blank context, schema]
    rfl
  simp only [hsteps, bind_ok_iff, ofValidated_ok_iff, Address.id?_ok_iff, find_ok_iff]

theorem queried_of_valid {q : Query} {predicate : Filter.Predicate α}
    (context : Text.isBlank o.requestId = false) (valid : q.validate = .ok ())
    (schema : checkSchema α q.schemaIdentifier = .ok ())
    (compiles : Filter.compile α q.filters = .ok predicate) :
    queried o q s = .ok (Pagination.cut q.pagination (s.records.filter predicate.holds)) := by
  rw [← Query.limit_eq_cut]
  simp only [queried, Query.select, validateRequestId_of_not_blank context, valid, schema, compiles]
  rfl

end Service

namespace Directory

variable {α : Type} [Managed α]

/-- Ways to ask a side for the resource of an address: its own service, with a schema that does not
name the other kind, or by a schema of its kind. -/
inductive Side.Retrieves (side : Side α) (address : Address) : DirectoryRequest → Prop
  | asked (schema : Service.checkSchema α address.schemaIdentifier = .ok ()) :
      side.Retrieves address (side.ask (.retrieve address))
  | routed (schema : Kind.ofIdentifier? address.schemaIdentifier = some side.kind) :
      side.Retrieves address (.routed (.retrieve address))

/-- Ways to put a query to a side. -/
inductive Side.Queries (side : Side α) (q : Query) : DirectoryRequest → Prop
  | asked (schema : Service.checkSchema α q.schemaIdentifier = .ok ()) :
      side.Queries q (side.ask (.query q))
  | routed (schema : Kind.ofIdentifier? q.schemaIdentifier = some side.kind) :
      side.Queries q (.routed (.query q))

/-- How reads after a history answer, in terms of the history alone. -/
structure ReadsHistory (side : Side α) (config : Config) (events : List Event) : Prop where
  since {id : String} {m n : Nat} : InUse side config events id m →
    InUse side config events id n → m = n
  askable {id : String} {n : Nat} : InUse side config events id n → givenId? id = some id
  retrieval_succeeds {o : Occasion} {address : Address} {q : DirectoryRequest} :
    Text.isBlank o.requestId = false → side.Retrieves address q →
      (Succeeds config (after config empty events) ⟨o, q⟩ ↔
        ∃ id n, givenId? address.identifier = some id ∧ InUse side config events id n)
  retrieval_answer {o : Occasion} {address : Address} {q : DirectoryRequest} :
    Text.isBlank o.requestId = false → side.Retrieves address q → ∀ a,
      (serve config (after config empty events) ⟨o, q⟩).1 = .ok a ↔
        ∃ id r, givenId? address.identifier = some id ∧ LatestWrite side config events id r ∧
          a = .resource (side.wrap r)
  query_answer {o : Occasion} {q : Query} {request : DirectoryRequest}
      {predicate : Filter.Predicate α} :
    Text.isBlank o.requestId = false → q.validate = .ok () →
      Filter.compile α q.filters = .ok predicate → side.Queries q request →
      ∃ matched : List α,
        (∀ r, r ∈ matched ↔ predicate.holds r = true ∧ ∃ id, LatestWrite side config events id r) ∧
        (matched.map Resource.id).Nodup ∧
        (matched.map Resource.id).Pairwise (HandedOutBefore side config events) ∧
        (serve config (after config empty events) ⟨o, request⟩).1 =
          .ok (.resources ((Pagination.cut q.pagination matched).map side.wrap))

theorem checkSchema_of_ofIdentifier? {side : Side α} {identifier : String}
    (h : Kind.ofIdentifier? identifier = some side.kind) :
    Service.checkSchema α identifier = .ok () := by
  delta Service.checkSchema
  rw [h, side.kind_eq]
  exact if_pos rfl

theorem serve_ok_iff {config : Config} {s : Stores} {e : Event} {a : Answer AnyResource} :
    (serve config s e).1 = .ok a ↔ ∃ t, outcome config e.occasion s e.request = .ok (a, t) := by
  constructor
  · intro h
    cases houtcome : outcome config e.occasion s e.request with
    | error f =>
      rw [serve_of_error houtcome] at h
      cases h
    | ok r =>
      rw [serve_of_ok houtcome] at h
      cases h
      exact ⟨r.2, rfl⟩
  · rintro ⟨t, h⟩
    rw [serve_of_ok h]

theorem serve_eq_ok_iff {config : Config} {s t : Stores} {e : Event} {a : Answer AnyResource} :
    serve config s e = (.ok a, t) ↔ outcome config e.occasion s e.request = .ok (a, t) := by
  constructor
  · intro h
    obtain ⟨u, houtcome⟩ := serve_ok_iff.mp (congrArg Prod.fst h)
    rw [serve_of_ok houtcome] at h
    cases h
    exact houtcome
  · exact serve_of_ok

namespace Side.Lawful

variable {side : Side α}

theorem outcome_retrieves (lawful : side.Lawful) (config : Config) (o : Occasion) (s : Stores)
    {address : Address} {q : DirectoryRequest} (h : side.Retrieves address q) :
    Service.checkSchema α address.schemaIdentifier = .ok () ∧
      outcome config o s q = outcome config o s (side.ask (.retrieve address)) := by
  cases h with
  | asked schema => exact ⟨schema, rfl⟩
  | routed schema =>
    refine ⟨checkSchema_of_ofIdentifier? schema, ?_⟩
    have hdirect : direct o (.routed (.retrieve address)) =
        .ok (choose (.retrieve address) (.retrieve address) side.kind) := by
      simp only [direct, directRouted, route_ok_iff.mpr schema]
      rfl
    rw [outcome_of_shown fun _ => rfl, hdirect, ← lawful.asked_retrieve, outcome_asked]
    rfl

theorem outcome_queries (lawful : side.Lawful) (config : Config) {o : Occasion} (s : Stores)
    {q : Query} {request : DirectoryRequest} (context : Text.isBlank o.requestId = false)
    (valid : q.validate = .ok ())
    (h : side.Queries q request) :
    Service.checkSchema α q.schemaIdentifier = .ok () ∧
      outcome config o s request = outcome config o s (side.ask (.query q)) := by
  cases h with
  | asked schema => exact ⟨schema, rfl⟩
  | routed schema =>
    refine ⟨checkSchema_of_ofIdentifier? schema, ?_⟩
    have hdirect : direct o (.routed (.query q)) =
        .ok (choose (.query q) (.query q) side.kind) := by
      simp only [direct, directRouted, validateRequestId_of_not_blank context, valid,
        route_ok_iff.mpr schema]
      rfl
    rw [outcome_of_shown fun _ => rfl, hdirect, ← lawful.asked_query, outcome_asked]
    rfl

variable {config : Config} {o : Occasion} {s : Stores}

theorem serve_retrieval (lawful : side.Lawful) {address : Address} {q : DirectoryRequest}
    (context : Text.isBlank o.requestId = false) (h : side.Retrieves address q)
    (a : Answer AnyResource) : (serve config s ⟨o, q⟩).1 = .ok a ↔
      ∃ id r, givenId? address.identifier = some id ∧ (side.store s).get? id = some r ∧
        a = .resource (side.wrap r) := by
  obtain ⟨schema, hsame⟩ := lawful.outcome_retrieves config o s h
  rw [serve_ok_iff, hsame, side.outcome_ask, Service.outcome, map_map]
  simp only [map_ok_iff, Service.retrieved_ok_iff context schema, Prod.mk.injEq]
  constructor
  · rintro ⟨t, r, ⟨id, hid, hr⟩, rfl, -⟩
    exact ⟨id, r, hid, hr, rfl⟩
  · rintro ⟨id, r, hid, hr, rfl⟩
    exact ⟨_, r, ⟨id, hid, hr⟩, rfl, rfl⟩

theorem serve_query (lawful : side.Lawful) {q : Query} {request : DirectoryRequest}
    {predicate : Filter.Predicate α} (context : Text.isBlank o.requestId = false)
    (valid : q.validate = .ok ()) (compiles : Filter.compile α q.filters = .ok predicate)
    (h : side.Queries q request) : (serve config s ⟨o, request⟩).1 = .ok (.resources
      ((Pagination.cut q.pagination ((side.store s).records.filter predicate.holds)).map
        side.wrap)) := by
  obtain ⟨schema, hsame⟩ := lawful.outcome_queries config s context valid h
  rw [serve_ok_iff, hsame, side.outcome_ask, Service.outcome,
    Service.queried_of_valid context valid schema compiles]
  exact ⟨_, rfl⟩

variable [LawfulManaged α]

/-- The records are the latest writes of all ids. -/
theorem mem_records_iff (lawful : side.Lawful) {events : List Event} {r : α} :
    r ∈ (side.store (after config empty events)).records ↔
      ∃ id, LatestWrite side config events id r := by
  have hkept := side.kept_after config side.kept_empty events
  constructor
  · intro hr
    obtain ⟨id, hid⟩ := hkept.has_id r hr
    exact ⟨id, (lawful.get?_after_iff config events id r).mp (hkept.get?_of_mem hr hid)⟩
  · rintro ⟨id, h⟩
    exact (Store.get?_eq_some ((lawful.get?_after_iff config events id r).mpr h)).1

theorem readsHistory (lawful : side.Lawful) (config : Config) (events : List Event)
    (issued : ∀ e ∈ events, e.request.verb = .create →
      givenId? e.occasion.freshId = some e.occasion.freshId) :
    ReadsHistory side config events := by
  have hkept := side.kept_after config side.kept_empty events
  refine ⟨lawful.inUse_unique, ?_, ?_, ?_, ?_⟩
  · rintro id n ⟨before, e, later, rfl, -, ⟨-, hdoes⟩, -⟩
    have hcreates : e.request.verb = .create := Verb.eq_create_of_isCreation hdoes.verb
    have hfresh := DirectoryRequest.subject?_of_create (o := e.occasion) hcreates
    rw [hdoes.subject] at hfresh
    cases hfresh
    exact issued e (List.mem_append_right before List.mem_cons_self) hcreates
  · intro o address q context h
    simp only [Succeeds, lawful.serve_retrieval context h]
    constructor
    · rintro ⟨a, id, r, hid, hr, -⟩
      obtain ⟨n, hn⟩ := (lawful.inUse_iff config events id).mpr ⟨r, hr⟩
      exact ⟨id, n, hid, hn⟩
    · rintro ⟨id, n, hid, hn⟩
      obtain ⟨r, hr⟩ := (lawful.inUse_iff config events id).mp ⟨n, hn⟩
      exact ⟨_, id, r, hid, hr, rfl⟩
  · intro o address q context h a
    rw [lawful.serve_retrieval context h]
    simp only [lawful.get?_after_iff]
  · intro o q request predicate context valid compiles h
    refine ⟨(side.store (after config empty events)).records.filter predicate.holds, ?_, ?_, ?_,
      lawful.serve_query context valid compiles h⟩
    · intro r
      rw [List.mem_filter, lawful.mem_records_iff, and_comm]
    · exact hkept.ids.sublist (List.filter_sublist.map _)
    · exact (lawful.handedOut_in_order config events).sublist (List.filter_sublist.map _)

end Side.Lawful

/-- Reads reflect the history, for users and for groups, whenever the generated ids are not blank and
stand without white space around them. -/
theorem reads_reflect_history (config : Config) (events : List Event)
    (issued : ∀ e ∈ events, e.request.verb = .create →
      givenId? e.occasion.freshId = some e.occasion.freshId) :
    ReadsHistory users config events ∧ ReadsHistory groups config events :=
  ⟨users_lawful.readsHistory config events issued, groups_lawful.readsHistory config events issued⟩

/-- The id that is generated at the new year is not changed by trimming. -/
theorem issued_of_newYear {events : List Event} (h : ∀ e ∈ events, e.occasion = newYear) :
    ∀ e ∈ events, e.request.verb = .create →
      givenId? e.occasion.freshId = some e.occasion.freshId := by
  intro e he _
  rw [h e he]
  decide

/-- A user is created, replaced and removed, and another one is created under the id that is free
again. -/
def reuse : List Event :=
  [⟨newYear, .routed (.create (.user (User.named "bjensen")))⟩,
    ⟨newYear, .users (.replace { User.named "barbara" with id := some "resource" })⟩,
    ⟨newYear, .routed (.delete ⟨"User", "resource"⟩)⟩,
    ⟨newYear, .users (.create (User.named "jsmith"))⟩]

theorem reads_reflect_reuse :
    (∀ e ∈ reuse, e.request.verb = .create →
      givenId? e.occasion.freshId = some e.occasion.freshId) ∧
    ReadsHistory users Config.default reuse ∧ ReadsHistory groups Config.default reuse := by
  have issued := @issued_of_newYear reuse (by simp [reuse])
  exact ⟨issued, reads_reflect_history Config.default reuse issued⟩

end Directory

end Scim
