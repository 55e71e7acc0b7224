import Scim.Proofs.Asked

/-!
# Users and groups do not interfere

A request is meant for users or for groups, or its schema names neither, and that is settled before
anything stored is looked at. So a history of mixed requests is two histories that only share their
order: what is asked of the one side can be taken out, and the other side answers and stores the
same. A request that the directory sends to a side is moreover the same request put to the service
of the side, over whatever repositories: it does the same, reports the same and answers the same,
but for a patch, which is answered with nothing.
-/

namespace Scim

namespace Directory

open Fallible

/-! ## The way through the directory -/

/-- Whatever repositories the directory has, it meets the routed request as it meets the other one,
and answers in the manner of a routed one. -/
def PassesTo (q : Request AnyResource) (asked : DirectoryRequest) : Prop :=
  ∀ {σ τ : Type} (repos : Repositories σ τ) (config : Config) (o : Occasion),
    handle repos config o q = (DirectoryRequest.routed q).shown <$> meet repos config o asked

theorem passesTo_of_eq {q : Request AnyResource} {asked : DirectoryRequest}
    (shown : ∀ a, (DirectoryRequest.routed q).shown a = a)
    (same : ∀ {σ τ : Type} (repos : Repositories σ τ) (config : Config) (o : Occasion),
      handle repos config o q = meet repos config o asked) : PassesTo q asked := by
  intro σ τ repos config o
  have hid : (DirectoryRequest.routed q).shown = id := funext shown
  rw [same, hid, id_map]

theorem ofExcept_ok_bind {σ β γ : Type} (b : β) (f : β → Run σ γ) :
    (Run.ofExcept (.ok b) >>= f) = f b :=
  rfl

section Dispatch

variable {σ τ : Type} (repos : Repositories σ τ) (config : Config) (o : Occasion)

theorem meet_choose (user : Request User) (group : Request Group) (kind : Kind) :
    meet repos config o (choose user group kind).asked =
      dispatch repos config o kind user group := by
  cases kind with
  | user => rfl
  | group => rfl

/-- A request that names its kind is given to the service of the kind. -/
theorem routed_dispatch {identifier : String} {kind : Kind}
    (resolved : Kind.ofIdentifier? identifier = some kind)
    (next : Kind → Run (Both σ τ) (Answer AnyResource)) :
    (Run.ofExcept (route identifier) >>= next) = next kind := by
  rw [route_ok_iff.mpr resolved, ofExcept_ok_bind]

/-- What neither service meets, the directory does not meet either. -/
theorem dispatch_throw {user : Request User} {group : Request Group} {fault : Fault} (kind : Kind)
    (huser : Service.handle repos.users config o user = throw fault)
    (hgroup : Service.handle repos.groups config o group = throw fault) :
    dispatch repos config o kind user group = throw fault := by
  cases kind with
  | user =>
    rw [dispatch, handleUser, huser]
    rfl
  | group =>
    rw [dispatch, handleGroup, hgroup]
    rfl

end Dispatch

section Service

variable {σ α : Type} [Managed α] (repo : Repository σ α) (config : Config) (o : Occasion)

theorem handle_update_throw {m : PatchMessage} {e : Invalid} (target : m.target = .error e) :
    Service.handle repo config o (.update m) = throw (.validation e) := by
  rw [Service.handle, Service.update, target]
  rfl

theorem handle_query_throw {q : Query} {fault : Fault}
    (invalid : (Fault.ofValidated (validateRequestId o.requestId) >>= fun _ => q.validate) =
      .error fault) : Service.handle repo config o (.query q) = throw fault := by
  rw [Service.handle, Service.query, Run.ofValidated]
  cases hid : Fault.ofValidated (validateRequestId o.requestId) with
  | error f =>
    rw [hid, error_bind] at invalid
    cases invalid
    rfl
  | ok _ =>
    rw [hid, ok_bind] at invalid
    rw [invalid]
    rfl

end Service

theorem update_passesTo {m : PatchMessage} {kind : Kind}
    (resolved : Request.kind? (.update m) = some kind) :
    PassesTo (.update m) (choose (.update m) (.update m) kind).asked := by
  intro σ τ repos config o
  rw [meet_choose]
  obtain ⟨address, haddress, hkind⟩ := Option.bind_eq_some_iff.mp resolved
  have htarget : m.target = address.id?.map fun _ => address := by
    rw [PatchMessage.target, haddress]
  cases hid : address.id? with
  | error e =>
    have target : m.target = .error e := by
      rw [htarget, hid]
      rfl
    rw [dispatch_throw repos config o kind (handle_update_throw repos.users config o target)
      (handle_update_throw repos.groups config o target), handle, target]
    rfl
  | ok id =>
    have target : m.target = .ok address := by
      rw [htarget, hid]
      rfl
    have hroute : handle repos config o (.update m) =
        Run.ofExcept (route address.schemaIdentifier) >>= fun kind =>
          dispatch repos config o kind (.update m) (.update m) >>= fun _ => pure .nothing := by
      rw [handle, target, Run.ofValidated, Fault.ofValidated, ofExcept_ok_bind]
    rw [hroute, routed_dispatch hkind, bind_pure_comp]
    rfl

theorem query_passesTo {q : Query} {kind : Kind}
    (resolved : Kind.ofIdentifier? q.schemaIdentifier = some kind) :
    PassesTo (.query q) (choose (.query q) (.query q) kind).asked := by
  refine passesTo_of_eq (fun _ => rfl) fun repos config o => ?_
  rw [meet_choose]
  cases hvalid : Fault.ofValidated (validateRequestId o.requestId) >>= fun _ => q.validate with
  | error fault =>
    rw [dispatch_throw repos config o kind (handle_query_throw repos.users config o hvalid)
      (handle_query_throw repos.groups config o hvalid)]
    cases hid : Fault.ofValidated (validateRequestId o.requestId) with
    | error f =>
      rw [hid, error_bind] at hvalid
      cases hvalid
      rw [handle, Run.ofValidated, hid]
      rfl
    | ok _ =>
      rw [hid, ok_bind] at hvalid
      rw [handle, Run.ofValidated, hid, hvalid]
      rfl
  | ok _ =>
    obtain ⟨_, hid, hquery⟩ := bind_ok_iff.mp hvalid
    have hroute : handle repos config o (.query q) =
        Run.ofExcept (route q.schemaIdentifier) >>= fun kind =>
          dispatch repos config o kind (.query q) (.query q) := by
      rw [handle, Run.ofValidated, hid, ofExcept_ok_bind, hquery, ofExcept_ok_bind]
    rw [hroute, routed_dispatch resolved]

/-- A request that is meant for a kind is the same request put to the service of the kind. -/
theorem exists_passesTo {q : Request AnyResource} {kind : Kind} (resolved : q.kind? = some kind) :
    ∃ p : Directed, p.kind = kind ∧ p.asked.request = q ∧ PassesTo q p.asked := by
  have chosen (user : Request User) (group : Request Group) :
      (choose user group kind).kind = kind := by
    cases kind with
    | user => rfl
    | group => rfl
  have requested {user : Request User} {group : Request Group} (huser : user.map .user = q)
      (hgroup : group.map .group = q) : (choose user group kind).asked.request = q := by
    cases kind with
    | user => exact huser
    | group => exact hgroup
  cases q with
  | create r =>
    cases r with
    | user u =>
      exact ⟨.user (.create u), Option.some.inj resolved, rfl,
        passesTo_of_eq (fun _ => rfl) fun _ _ _ => rfl⟩
    | group g =>
      exact ⟨.group (.create g), Option.some.inj resolved, rfl,
        passesTo_of_eq (fun _ => rfl) fun _ _ _ => rfl⟩
  | replace r =>
    cases r with
    | user u =>
      exact ⟨.user (.replace u), Option.some.inj resolved, rfl,
        passesTo_of_eq (fun _ => rfl) fun _ _ _ => rfl⟩
    | group g =>
      exact ⟨.group (.replace g), Option.some.inj resolved, rfl,
        passesTo_of_eq (fun _ => rfl) fun _ _ _ => rfl⟩
  | retrieve address =>
    have hkind : Kind.ofIdentifier? address.schemaIdentifier = some kind := resolved
    refine ⟨choose (.retrieve address) (.retrieve address) kind, chosen _ _, requested rfl rfl, ?_⟩
    refine passesTo_of_eq (fun _ => rfl) fun repos config o => ?_
    rw [meet_choose, handle, routed_dispatch hkind]
  | update m =>
    exact ⟨choose (.update m) (.update m) kind, chosen _ _, requested rfl rfl,
      update_passesTo resolved⟩
  | delete address =>
    have hkind : Kind.ofIdentifier? address.schemaIdentifier = some kind := resolved
    refine ⟨choose (.delete address) (.delete address) kind, chosen _ _, requested rfl rfl, ?_⟩
    refine passesTo_of_eq (fun _ => rfl) fun repos config o => ?_
    rw [meet_choose, handle, routed_dispatch hkind]
  | query q =>
    have hkind : Kind.ofIdentifier? q.schemaIdentifier = some kind := resolved
    exact ⟨choose (.query q) (.query q) kind, chosen _ _, requested rfl rfl,
      query_passesTo hkind⟩

variable {α : Type} [Managed α]

/-- What is meant for a side is what its service can be asked. -/
theorem Side.Lawful.exists_asked {side : Side α} (lawful : side.Lawful) {q : Request AnyResource}
    (resolved : q.kind? = some side.kind) :
    ∃ r : Request α, r.map side.wrap = q ∧ PassesTo q (side.ask r) := by
  obtain ⟨p, hkind, hrequest, hpasses⟩ := exists_passesTo resolved
  obtain ⟨r, hasked, -, -⟩ := lawful.asked hkind
  rw [hasked] at hrequest hpasses
  exact ⟨r, (lawful.request_ask r).symm.trans hrequest, hpasses⟩

/-! ## Two runs side by side -/

/-- The event is meant for the resources of the kind. -/
def Event.isFor (kind : Kind) (e : Event) : Bool :=
  e.request.kind? = some kind

/-- The history with everything taken out that is meant for the kind. -/
def without (kind : Kind) (events : List Event) : List Event :=
  events.filter fun e => !e.isFor kind

/-- The events of a history, each with the answer that it is given. -/
def transcript (config : Config) :
    Stores → List Event → List (Event × Except Fault (Answer AnyResource))
  | _, [] => []
  | s, e :: later => (e, (serve config s e).1) :: transcript config (serve config s e).2 later

theorem without_cons (kind : Kind) (e : Event) (later : List Event) :
    without kind (e :: later) =
      if e.isFor kind then without kind later else e :: without kind later := by
  by_cases isFor : e.isFor kind = true
  · simp [without, isFor]
  · simp [without, isFor]

variable (side : Side α) {config : Config} {s t : Stores} {e : Event} {other : Kind}

/-- An event for the other side leaves the store of this one. -/
theorem Side.store_serve_of_isFor (foreign : other ≠ side.kind) (isFor : e.isFor other = true) :
    side.store (serve config s e).2 = side.store s := by
  rcases side.step config s e with ⟨-, hkind, -⟩ | ⟨-, hsame⟩
  · rw [of_decide_eq_true isFor] at hkind
    exact absurd (Option.some.inj hkind) foreign
  · exact hsame

/-- What an event that is not for the other side comes to can be told from the store of this side
alone. -/
theorem Side.Lawful.serve_local {side : Side α} (lawful : side.Lawful) (config : Config)
    (foreign : other ≠ side.kind) (isFor : ¬ e.isFor other = true)
    (same : side.store s = side.store t) :
    (serve config s e).1 = (serve config t e).1 ∧
      side.store (serve config s e).2 = side.store (serve config t e).2 := by
  cases hdirect : direct e.occasion e.request with
  | error f =>
    have refused (s : Stores) : outcome config e.occasion s e.request = .error f := by
      rw [outcome, hdirect, error_bind]
    rw [serve_of_error (refused s), serve_of_error (refused t)]
    exact ⟨rfl, same⟩
  | ok p =>
    have hkind : p.kind = side.kind := by
      have hp : p.kind ≠ other := by
        intro heq
        refine isFor (decide_eq_true ?_)
        rw [(agrees_of_direct hdirect).kind, heq]
      -- there are no more than two kinds
      revert hp foreign
      cases p.kind <;> cases other <;> cases side.kind <;> decide
    obtain ⟨q, hasked, -, -⟩ := lawful.asked hkind
    have came (s : Stores) : outcome config e.occasion s e.request =
        (Service.outcome config e.occasion (side.store s) q).map fun r =>
          (e.request.shown (r.1.map side.wrap), side.put s r.2) := by
      rw [outcome, hdirect, ok_bind, ← outcome_asked, hasked, side.outcome_ask, bind_pure_eq_map,
        map_map]
    have hs := came s
    have ht := came t
    rw [same] at hs
    cases houtcome : Service.outcome config e.occasion (side.store t) q with
    | error f =>
      rw [houtcome] at hs ht
      rw [serve_of_error hs, serve_of_error ht]
      exact ⟨rfl, same⟩
    | ok r =>
      rw [houtcome] at hs ht
      rw [serve_of_ok hs, serve_of_ok ht, side.store_put, side.store_put]
      exact ⟨rfl, rfl⟩

/-- From stores that agree on a side, a history and the history without the other side give the same
answers to what is left, and end with the same store on the side. By induction on the history, whose
first event keeps the stores in agreement whether it is taken out or not. -/
theorem Side.Lawful.run_without {side : Side α} (lawful : side.Lawful)
    (foreign : other ≠ side.kind) (events : List Event) (same : side.store s = side.store t) :
    (transcript config s events).filter (fun line => !line.1.isFor other) =
        transcript config t (without other events) ∧
      side.store (after config s events) = side.store (after config t (without other events)) := by
  induction events generalizing s t with
  | nil => exact ⟨rfl, same⟩
  | cons e later ih =>
    by_cases isFor : e.isFor other = true
    · have hnext : side.store (serve config s e).2 = side.store t :=
        (side.store_serve_of_isFor foreign isFor).trans same
      obtain ⟨hanswers, hstored⟩ := ih hnext
      constructor
      · rw [without_cons, if_pos isFor, ← hanswers, transcript]
        simp [isFor]
      · rw [without_cons, if_pos isFor, ← hstored]
        rfl
    · obtain ⟨hanswer, hnext⟩ := lawful.serve_local config foreign isFor same
      obtain ⟨hanswers, hstored⟩ := ih hnext
      constructor
      · rw [without_cons, if_neg isFor, transcript, transcript, ← hanswer, ← hanswers]
        simp [isFor]
      · rw [without_cons, if_neg isFor]
        exact hstored

/-- A side is served as if there were no other: what is stored on the other side and what is asked
of it tell neither in its answers nor in its store, and what is sent to it on the way through the
directory does as it would if the service were asked. -/
structure Side.Apart (side : Side α) (other : Kind) (config : Config) : Prop where
  answers {s t : Stores} (same : side.store s = side.store t) (events : List Event) :
    (transcript config s events).filter (fun line => !line.1.isFor other) =
      transcript config t (without other events)
  stored {s t : Stores} (same : side.store s = side.store t) (events : List Event) :
    side.store (after config s events) = side.store (after config t (without other events))
  routed {q : Request AnyResource} (resolved : q.kind? = some side.kind) :
    ∃ r : Request α, r.map side.wrap = q ∧ PassesTo q (side.ask r)

theorem Side.Lawful.apart {side : Side α} (lawful : side.Lawful) (foreign : other ≠ side.kind)
    (config : Config) : side.Apart other config where
  answers same events := (lawful.run_without foreign events same).1
  stored same events := (lawful.run_without foreign events same).2
  routed resolved := lawful.exists_asked resolved

/-- Users and groups do not interfere. -/
theorem users_groups_apart (config : Config) :
    users.Apart .group config ∧ groups.Apart .user config :=
  ⟨users_lawful.apart (by decide) config, groups_lawful.apart (by decide) config⟩

end Directory

end Scim
