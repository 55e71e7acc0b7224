import Scim.Proofs.History

/-!
# What a service is asked

A routed request ends at one of the two services, and what that service answers can be seen by
asking it directly. A routed patch hides its answer, which is the resource that was stored; here it
is told as well.
-/

namespace Scim

theorem Answer.map_eq_resource_iff {α β : Type} {f : α → β} (hf : ∀ {a b}, f a = f b → a = b)
    {a : Answer α} {r : α} : a.map f = .resource (f r) ↔ a = .resource r := by
  constructor
  · intro h
    cases a with
    | resource x =>
      injection h with h
      rw [hf h]
    | resources rs => cases h
    | nothing => cases h
  · rintro rfl
    rfl

namespace Directory

open Fallible

/-- The request as it is put to its service directly. -/
def Directed.asked : Directed → DirectoryRequest
  | .user q => .users q
  | .group q => .groups q

/-- The service that the event is given to answers with the resource. -/
def Yields (config : Config) (s : Stores) (e : Event) (r : AnyResource) : Prop :=
  ∃ p, direct e.occasion e.request = .ok p ∧
    (serve config s ⟨e.occasion, p.asked⟩).1 = .ok (.resource r)

theorem outcome_asked (config : Config) (o : Occasion) (s : Stores) (p : Directed) :
    outcome config o s p.asked = directedOutcome config o s p := by
  cases p with
  | user q => exact outcome_of_shown fun _ => rfl
  | group q => exact outcome_of_shown fun _ => rfl

/-- A service is asked what the directory is asked. -/
theorem request_of_direct {o : Occasion} {q : DirectoryRequest} {p : Directed}
    (h : direct o q = .ok p) : p.asked.request = q.request := by
  have chosen {identifier : String} {user : Request User} {group : Request Group}
      {r : Request AnyResource} (h : (route identifier).map (choose user group) = .ok p)
      (huser : user.map .user = r) (hgroup : group.map .group = r) : p.asked.request = r := by
    obtain ⟨kind, -, rfl⟩ := map_ok_iff.mp h
    cases kind with
    | user => exact huser
    | group => exact hgroup
  cases q with
  | users q => cases h; rfl
  | groups q => cases h; rfl
  | routed q =>
    cases q with
    | create r => cases r with
      | user u => cases h; rfl
      | group g => cases h; rfl
    | replace r => cases r with
      | user u => cases h; rfl
      | group g => cases h; rfl
    | retrieve address =>
      simp only [direct, directRouted] at h
      exact chosen h rfl rfl
    | update m =>
      obtain ⟨_, -, h⟩ := bind_ok_iff.mp h
      exact chosen h rfl rfl
    | delete address =>
      simp only [direct, directRouted] at h
      exact chosen h rfl rfl
    | query q =>
      obtain ⟨_, -, h⟩ := bind_ok_iff.mp h
      obtain ⟨_, -, h⟩ := bind_ok_iff.mp h
      exact chosen h rfl rfl

variable {α : Type} [Managed α]

/-- The service of a side can be asked for whatever is directed to the kind of the side. -/
structure Side.Lawful (side : Side α) : Prop where
  wrap_inj {a b : α} : side.wrap a = side.wrap b → a = b
  asked {p : Directed} : p.kind = side.kind → ∃ q : Request α, p.asked = side.ask q ∧
    p.verb = q.verb ∧ ∀ o, p.subject? o = q.subject? Resource.id o
  request_ask (q : Request α) : (side.ask q).request = q.map side.wrap
  asked_retrieve (address : Address) :
    (choose (.retrieve address) (.retrieve address) side.kind).asked = side.ask (.retrieve address)
  asked_query (q : Query) :
    (choose (.query q) (.query q) side.kind).asked = side.ask (.query q)

theorem users_lawful : users.Lawful where
  wrap_inj h := AnyResource.user.inj h
  asked {p} h := by
    cases p with
    | user q => exact ⟨q, rfl, rfl, fun _ => rfl⟩
    | group q => cases h
  request_ask _ := rfl
  asked_retrieve _ := rfl
  asked_query _ := rfl

theorem groups_lawful : groups.Lawful where
  wrap_inj h := AnyResource.group.inj h
  asked {p} h := by
    cases p with
    | user q => cases h
    | group q => exact ⟨q, rfl, rfl, fun _ => rfl⟩
  request_ask _ := rfl
  asked_retrieve _ := rfl
  asked_query _ := rfl

/-- The event succeeds on the side, whose service is asked `q` and answers `a`. -/
structure Side.Meets (side : Side α) (config : Config) (s : Stores) (e : Event) (q : Request α)
    (a : Answer α) : Prop where
  succeeds : Succeeds config s e
  kind : e.request.kind? = some side.kind
  verb : e.request.verb = q.verb
  subject : e.request.subject? e.occasion = q.subject? Resource.id e.occasion
  request : e.request.request = q.map side.wrap
  effect : Service.Effect config e.occasion (side.store s) q a (side.store (serve config s e).2)
  yields (r : α) : Yields config s e (side.wrap r) ↔ a = .resource r

namespace Side.Meets

variable {side : Side α} {config : Config} {s : Stores} {e : Event} {q : Request α} {a : Answer α}

theorem resource (h : side.Meets config s e q a) :
    e.request.resource? = q.resource?.map side.wrap := by
  rw [← DirectoryRequest.resource?_request, h.request, Request.resource?_map]

theorem operations (h : side.Meets config s e q a) :
    e.request.request.operations = q.operations := by
  rw [h.request, Request.operations_map]

end Side.Meets

namespace Side.Lawful

variable {side : Side α} [LawfulManaged α]

/-- An event that succeeds and is meant for the side is met by its service. -/
theorem exists_meets (lawful : side.Lawful) {config : Config} {s : Stores} {e : Event}
    (succeeds : Succeeds config s e) (kind : e.request.kind? = some side.kind) :
    ∃ q a, side.Meets config s e q a := by
  cases houtcome : outcome config e.occasion s e.request with
  | error f =>
    rw [Succeeds, serve_of_error houtcome] at succeeds
    obtain ⟨a, ha⟩ := succeeds
    cases ha
  | ok answered =>
    obtain ⟨p, hp, hsteps⟩ := bind_ok_iff.mp houtcome
    obtain ⟨r, hr, heq⟩ := bind_ok_iff.mp hsteps
    cases heq
    have hagrees := agrees_of_direct hp
    obtain ⟨q, hasked, hverb, hsubject⟩ :=
      lawful.asked (Option.some.inj (hagrees.kind.symm.trans kind))
    rw [← outcome_asked, hasked, side.outcome_ask] at hr
    obtain ⟨⟨a, t⟩, ht, rfl⟩ := map_ok_iff.mp hr
    have hserved : serve config s ⟨e.occasion, p.asked⟩ =
        (.ok (a.map side.wrap), side.put s t) := by
      refine serve_of_ok ?_
      rw [hasked, side.outcome_ask, ht]
      rfl
    refine ⟨q, a, succeeds, kind, hagrees.verb.trans hverb,
      hagrees.subject.trans (hsubject e.occasion), ?_, ?_, fun r => ?_⟩
    · rw [← request_of_direct hp, hasked, lawful.request_ask]
    · rw [serve_of_ok houtcome, side.store_put]
      exact Service.effect_of_outcome ht
    · rw [← Answer.map_eq_resource_iff lawful.wrap_inj]
      constructor
      · rintro ⟨p', hp', hyields⟩
        rw [hp] at hp'
        cases hp'
        rw [hserved] at hyields
        exact Except.ok.inj hyields
      · intro ha
        refine ⟨p, hp, ?_⟩
        rw [hserved, ha]

/-- An event is met by the service of the side, or it leaves the store of the side as it is. -/
theorem step (lawful : side.Lawful) (config : Config) (s : Stores) (e : Event) :
    (∃ q a, side.Meets config s e q a) ∨
      (¬ (Succeeds config s e ∧ e.request.kind? = some side.kind) ∧
        side.store (serve config s e).2 = side.store s) := by
  rcases side.step config s e with ⟨hsucceeds, hkind, -⟩ | hnot
  · exact .inl (lawful.exists_meets hsucceeds hkind)
  · exact .inr hnot

/-- What every event of a history that is met by the side keeps of its records holds of them after
the history. By induction on the history from its end. -/
theorem forall_after (lawful : side.Lawful) {config : Config} {events : List Event} {P : α → Prop}
    (keeps : ∀ before e later, events = before ++ e :: later → ∀ {q a},
      side.Meets config (after config empty before) e q a →
      (side.store (after config empty before)).Kept →
      (∀ r ∈ (side.store (after config empty before)).records, P r) →
      ∀ r ∈ (side.store (serve config (after config empty before) e).2).records, P r) :
    ∀ r ∈ (side.store (after config empty events)).records, P r := by
  induction events using List.reverseRecOn with
  | nil =>
    rw [after, List.foldl_nil, side.store_empty]
    intro r hr
    cases hr
  | append_singleton events e ih =>
    have hbefore := ih fun before x later heq =>
      keeps before x (later ++ [e]) (by rw [heq, List.append_assoc, List.cons_append])
    rw [after_snoc]
    rcases lawful.step config (after config empty events) e with ⟨q, a, hmeets⟩ | ⟨-, heq⟩
    · exact keeps events e [] rfl hmeets (side.kept_after config side.kept_empty events) hbefore
    · rw [heq]
      exact hbefore

end Side.Lawful

end Directory

end Scim
