import Scim.Proofs.Change

/-!
# Outcomes of requests to a directory

A directory gives each request to one of its two services, which is found without a look at what is
stored. What the request comes to is then what it comes to there, and the other store stays as it
is. A routed patch succeeds with no answer.
-/

namespace Scim

namespace DirectoryRequest

/-- The answer as it is given on the way of the request. -/
def shown : DirectoryRequest → Answer AnyResource → Answer AnyResource
  | .routed (.update _), _ => .nothing
  | _, a => a

end DirectoryRequest

namespace Directory

open Fallible

/-- A request for one of the two services. -/
inductive Directed where
  | user (q : Request User)
  | group (q : Request Group)

namespace Directed

def kind : Directed → Kind
  | .user _ => .user
  | .group _ => .group

def verb : Directed → Verb
  | .user q => q.verb
  | .group q => q.verb

def subject? (o : Occasion) : Directed → Option String
  | .user q => q.subject? User.id o
  | .group q => q.subject? Group.id o

end Directed

/-- The request of a kind, out of one for either service. -/
def choose (user : Request User) (group : Request Group) : Kind → Directed
  | .user => .user user
  | .group => .group group

/-- The service that a routed request is given to, and what it is asked there. -/
def directRouted (o : Occasion) : Request AnyResource → Except Fault Directed
  | .create (.user u) => .ok (.user (.create u))
  | .create (.group g) => .ok (.group (.create g))
  | .replace (.user u) => .ok (.user (.replace u))
  | .replace (.group g) => .ok (.group (.replace g))
  | .retrieve address =>
    (route address.schemaIdentifier).map (choose (.retrieve address) (.retrieve address))
  | .update m => do
    let address ← Fault.ofValidated m.target
    (route address.schemaIdentifier).map (choose (.update m) (.update m))
  | .delete address =>
    (route address.schemaIdentifier).map (choose (.delete address) (.delete address))
  | .query q => do
    Fault.ofValidated (validateRequestId o.requestId)
    q.validate
    (route q.schemaIdentifier).map (choose (.query q) (.query q))

def direct (o : Occasion) : DirectoryRequest → Except Fault Directed
  | .routed q => directRouted o q
  | .users q => .ok (.user q)
  | .groups q => .ok (.group q)

/-- What a request for one of the services comes to on both stores. -/
def directedOutcome (config : Config) (o : Occasion) (s : Stores) :
    Directed → Except Fault (Answer AnyResource × Stores)
  | .user q => (Service.outcome config o s.users q).map fun r => (r.1.map .user, ⟨r.2, s.groups⟩)
  | .group q => (Service.outcome config o s.groups q).map fun r => (r.1.map .group, ⟨s.users, r.2⟩)

/-- What a request comes to: the answer and the stores that follow, or the fault. -/
def outcome (config : Config) (o : Occasion) (s : Stores) (q : DirectoryRequest) :
    Except Fault (Answer AnyResource × Stores) := do
  let p ← direct o q
  let r ← directedOutcome config o s p
  return (q.shown r.1, r.2)

/-- The repositories of a directory that keeps everything itself. -/
def repositories : Repositories (Store User) (Store Group) :=
  ⟨Store.repository User, Store.repository Group⟩

/-! ## Meeting a request comes to its outcome -/

theorem comesTo_user (config : Config) (o : Occasion) (q : Request User) (s : Stores) :
    Run.ComesTo (do return (← handleUser repositories config o q).map AnyResource.user) s
      (directedOutcome config o s (.user q)) := by
  have hpart := Run.ComesTo.onPart (s := s) Both.users (fun both users => ⟨users, both.groups⟩)
    (Service.comesTo_handle config o q s.users) rfl
  have hmap := hpart.map (Answer.map AnyResource.user)
  rw [map_map] at hmap
  exact hmap

theorem comesTo_group (config : Config) (o : Occasion) (q : Request Group) (s : Stores) :
    Run.ComesTo (do return (← handleGroup repositories config o q).map AnyResource.group) s
      (directedOutcome config o s (.group q)) := by
  have hpart := Run.ComesTo.onPart (s := s) Both.groups (fun both groups => ⟨both.users, groups⟩)
    (Service.comesTo_handle config o q s.groups) rfl
  have hmap := hpart.map (Answer.map AnyResource.group)
  rw [map_map] at hmap
  exact hmap

theorem comesTo_dispatch (config : Config) (o : Occasion) (kind : Kind) (user : Request User)
    (group : Request Group) (s : Stores) :
    (dispatch repositories config o kind user group).ComesTo s
      (directedOutcome config o s (choose user group kind)) := by
  cases kind with
  | user => exact comesTo_user config o user s
  | group => exact comesTo_group config o group s

/-- A request that is routed by its schema. -/
theorem comesTo_routed (config : Config) (o : Occasion) (identifier : String)
    (user : Request User) (group : Request Group) (s : Stores) :
    Run.ComesTo (do
      let kind ← Run.ofExcept (route identifier)
      dispatch repositories config o kind user group) s
      ((route identifier).map (choose user group) >>= directedOutcome config o s) := by
  have hbind := (Run.reads_ofExcept (route identifier) s).bind
    fun kind _ => comesTo_dispatch config o kind user group s
  cases h : route identifier with
  | error fault =>
    rw [h] at hbind
    exact hbind
  | ok kind =>
    rw [h] at hbind
    exact hbind

/-- Where the answer is given as it is, only the service that is asked decides what it comes to. -/
theorem outcome_of_shown {config : Config} {o : Occasion} {s : Stores} {q : DirectoryRequest}
    (hq : ∀ a, q.shown a = a) :
    outcome config o s q = direct o q >>= directedOutcome config o s := by
  simp only [outcome, hq, bind_pure_eq_map]
  refine congrArg (direct o q >>= ·) (funext fun p => ?_)
  cases directedOutcome config o s p with
  | error fault => rfl
  | ok r => rfl

theorem comesTo_handle (config : Config) (o : Occasion) (q : Request AnyResource) (s : Stores) :
    (handle repositories config o q).ComesTo s (outcome config o s (.routed q)) := by
  cases q with
  | create r =>
    rw [outcome_of_shown fun _ => rfl]
    cases r with
    | user u => exact comesTo_user config o (.create u) s
    | group g => exact comesTo_group config o (.create g) s
  | replace r =>
    rw [outcome_of_shown fun _ => rfl]
    cases r with
    | user u => exact comesTo_user config o (.replace u) s
    | group g => exact comesTo_group config o (.replace g) s
  | retrieve address =>
    rw [outcome_of_shown fun _ => rfl]
    exact comesTo_routed config o address.schemaIdentifier (.retrieve address) (.retrieve address) s
  | update m =>
    have hsteps : outcome config o s (.routed (.update m)) =
        Fault.ofValidated m.target >>= fun address => route address.schemaIdentifier >>= fun kind =>
          (directedOutcome config o s (choose (.update m) (.update m) kind)).map
            fun r => (.nothing, r.2) := by
      simp only [outcome, direct, directRouted, bind_assoc, map_bind, bind_pure_eq_map]
      rfl
    rw [hsteps]
    refine (Run.reads_ofValidated m.target s).bind fun address _ => ?_
    refine (Run.reads_ofExcept (route address.schemaIdentifier) s).bind fun kind _ => ?_
    exact (comesTo_dispatch config o kind (.update m) (.update m) s).map fun _ => Answer.nothing
  | delete address =>
    rw [outcome_of_shown fun _ => rfl]
    exact comesTo_routed config o address.schemaIdentifier (.delete address) (.delete address) s
  | query q =>
    rw [outcome_of_shown fun _ => rfl]
    have hsteps : direct o (.routed (.query q)) >>= directedOutcome config o s =
        Fault.ofValidated (validateRequestId o.requestId) >>= fun _ => q.validate >>= fun _ =>
          (route q.schemaIdentifier).map (choose (.query q) (.query q)) >>=
            directedOutcome config o s := by
      simp only [direct, directRouted, bind_assoc]
    rw [hsteps]
    refine (Run.reads_ofValidated (validateRequestId o.requestId) s).bind fun _ _ => ?_
    refine (Run.reads_ofExcept q.validate s).bind fun _ _ => ?_
    exact comesTo_routed config o q.schemaIdentifier (.query q) (.query q) s

/-- Meeting a request over two stores comes to its outcome. -/
theorem comesTo_meet (config : Config) (o : Occasion) (q : DirectoryRequest) (s : Stores) :
    (meet repositories config o q).ComesTo s (outcome config o s q) := by
  cases q with
  | routed q => exact comesTo_handle config o q s
  | users q =>
    rw [outcome_of_shown fun _ => rfl]
    exact comesTo_user config o q s
  | groups q =>
    rw [outcome_of_shown fun _ => rfl]
    exact comesTo_group config o q s

/-! ## What a request does to the two stores -/

theorem route_ok_iff {identifier : String} {kind : Kind} :
    route identifier = .ok kind ↔ Kind.ofIdentifier? identifier = some kind := by
  -- its equation lemma would reduce the test of the identifier
  delta route
  cases Kind.ofIdentifier? identifier with
  | none => exact ⟨fun h => (by cases h), fun h => (by cases h)⟩
  | some k => exact ⟨fun h => Except.ok.inj h ▸ rfl, fun h => Option.some.inj h ▸ rfl⟩

/-- A request is given to the service of its kind, with its verb and its subject. -/
structure Agrees (o : Occasion) (q : DirectoryRequest) (p : Directed) : Prop where
  kind : q.kind? = some p.kind
  verb : q.verb = p.verb
  subject : q.subject? o = p.subject? o

theorem agrees_choose {o : Occasion} {q : DirectoryRequest} {user : Request User}
    {group : Request Group} {identifier : String} {p : Directed}
    (h : (route identifier).map (choose user group) = .ok p)
    (hkind : q.kind? = Kind.ofIdentifier? identifier)
    (huser : q.verb = user.verb ∧ q.subject? o = user.subject? User.id o)
    (hgroup : q.verb = group.verb ∧ q.subject? o = group.subject? Group.id o) : Agrees o q p := by
  obtain ⟨kind, hroute, rfl⟩ := map_ok_iff.mp h
  rw [route_ok_iff, ← hkind] at hroute
  cases kind with
  | user => exact ⟨hroute, huser.1, huser.2⟩
  | group => exact ⟨hroute, hgroup.1, hgroup.2⟩

theorem agrees_of_directRouted {o : Occasion} {q : Request AnyResource} {p : Directed}
    (h : directRouted o q = .ok p) : Agrees o (.routed q) p := by
  cases q with
  | create r =>
    cases r with
    | user u => cases h; exact ⟨rfl, rfl, rfl⟩
    | group g => cases h; exact ⟨rfl, rfl, rfl⟩
  | replace r =>
    cases r with
    | user u => cases h; exact ⟨rfl, rfl, rfl⟩
    | group g => cases h; exact ⟨rfl, rfl, rfl⟩
  | retrieve address =>
    simp only [directRouted] at h
    exact agrees_choose h rfl ⟨rfl, rfl⟩ ⟨rfl, rfl⟩
  | update m =>
    obtain ⟨address, htarget, h⟩ := bind_ok_iff.mp h
    have haddress := PatchMessage.address_of_target (ofValidated_ok_iff.mp htarget)
    refine agrees_choose h ?_ ⟨rfl, rfl⟩ ⟨rfl, rfl⟩
    simp only [DirectoryRequest.kind?, Request.kind?, haddress, Option.bind_some]
  | delete address =>
    simp only [directRouted] at h
    exact agrees_choose h rfl ⟨rfl, rfl⟩ ⟨rfl, rfl⟩
  | query q =>
    obtain ⟨-, -, h⟩ := bind_ok_iff.mp h
    obtain ⟨-, -, h⟩ := bind_ok_iff.mp h
    exact agrees_choose h rfl ⟨rfl, rfl⟩ ⟨rfl, rfl⟩

theorem agrees_of_direct {o : Occasion} {q : DirectoryRequest} {p : Directed}
    (h : direct o q = .ok p) : Agrees o q p := by
  cases q with
  | routed q => exact agrees_of_directRouted h
  | users q => cases h; exact ⟨rfl, rfl, rfl⟩
  | groups q => cases h; exact ⟨rfl, rfl, rfl⟩

/-- What a request that succeeds does to the two stores: it changes the store of its kind and leaves
the other one. -/
inductive Change (config : Config) (o : Occasion) (s : Stores) (q : DirectoryRequest) :
    Stores → Prop
  | users {t : Store User} (kind : q.kind? = some .user)
      (change : Service.Change config o s.users q.verb (q.subject? o) t) :
      Change config o s q ⟨t, s.groups⟩
  | groups {t : Store Group} (kind : q.kind? = some .group)
      (change : Service.Change config o s.groups q.verb (q.subject? o) t) :
      Change config o s q ⟨s.users, t⟩

theorem change_of_outcome {config : Config} {o : Occasion} {s t : Stores} {q : DirectoryRequest}
    {a : Answer AnyResource} (h : outcome config o s q = .ok (a, t)) : Change config o s q t := by
  obtain ⟨p, hp, h⟩ := bind_ok_iff.mp h
  obtain ⟨r, hr, h⟩ := bind_ok_iff.mp h
  cases h
  have hagrees := agrees_of_direct hp
  cases p with
  | user p =>
    obtain ⟨x, hx, rfl⟩ := map_ok_iff.mp hr
    have hchange := (Service.effect_of_outcome hx).change
    refine .users hagrees.kind ?_
    rw [hagrees.verb, hagrees.subject]
    exact hchange
  | group p =>
    obtain ⟨x, hx, rfl⟩ := map_ok_iff.mp hr
    have hchange := (Service.effect_of_outcome hx).change
    refine .groups hagrees.kind ?_
    rw [hagrees.verb, hagrees.subject]
    exact hchange

end Directory

end Scim
