import Scim.Proofs.Effect
import Scim.Service.Directory

/-!
# What services exchange with repositories

An operation of a service is a conversation with a repository: it makes a call, looks at the reply
and goes on. A repository can be made to note the conversation down. Whatever the repository replies,
so also when others change what it keeps between two calls, an operation stores a resource only under
the id that the resource carries, unless the repository has told it an untruth before, by finding a
record under an id that is not its own.
-/

namespace Scim

/-- A call to a repository and the reply to it. -/
inductive Exchange (α : Type) where
  | create (r : α) (reply : Reply Unit)
  | getById (id : String) (reply : Reply (Option α))
  | listAll (reply : Reply (List α))
  | checkExists (id : Option String) (key : String) (reply : Reply Bool)
  | updateById (id : String) (r : α) (reply : Reply Unit)
  | deleteById (id : String) (reply : Reply Unit)

namespace Exchange

variable {α : Type} [Resource α]

/-- The record that is found under an id has this id. -/
def IsTruthful : Exchange α → Prop
  | .getById id (.done (some r)) => Resource.id r = some id
  | _ => True

/-- What is to be stored under an id carries this id. -/
def IsFair : Exchange α → Prop
  | .updateById id r _ => Resource.id r = some id
  | _ => True

/-- Each exchange is fair if those before it are truthful. -/
def FairlyMade (es : List (Exchange α)) : Prop :=
  ∀ front e back, es = front ++ e :: back → (∀ x ∈ front, x.IsTruthful) → e.IsFair

theorem fairlyMade_nil : FairlyMade ([] : List (Exchange α)) := by
  intro front e back heq
  exact absurd heq.symm (List.append_ne_nil_of_right_ne_nil front (List.cons_ne_nil e back))

theorem FairlyMade.snoc {es : List (Exchange α)} (h : FairlyMade es) {e : Exchange α}
    (he : (∀ x ∈ es, x.IsTruthful) → e.IsFair) : FairlyMade (es ++ [e]) := by
  intro front x back heq truthful
  rcases List.eq_nil_or_concat back with rfl | ⟨rest, last, rfl⟩
  · obtain ⟨rfl, hx⟩ := List.append_inj' heq rfl
    cases hx
    exact he truthful
  · rw [List.concat_eq_append, ← List.cons_append, ← List.append_assoc] at heq
    obtain ⟨heq, -⟩ := List.append_inj' heq rfl
    exact h front x rest heq truthful

end Exchange

namespace Repository

variable {σ α β : Type}

/-- Makes a call and notes the exchange down, after those before it. -/
def noted (action : σ → Response σ β) (exchange : Reply β → Exchange α)
    (s : σ × List (Exchange α)) : Response (σ × List (Exchange α)) β :=
  let a := action s.1
  ⟨a.reply, (a.state, s.2 ++ [exchange a.reply]), a.log⟩

/-- The same repository with a note of every exchange. -/
def recorded (repo : Repository σ α) : Repository (σ × List (Exchange α)) α where
  create r := noted (repo.create r) (.create r)
  getById id := noted (repo.getById id) (.getById id)
  listAll := noted repo.listAll .listAll
  checkExists id key := noted (repo.checkExists id key) (.checkExists id key)
  updateById id r := noted (repo.updateById id r) (.updateById id r)
  deleteById id := noted (repo.deleteById id) (.deleteById id)

end Repository

/-! ## What holds before and after a run -/

namespace Run

variable {σ τ β γ : Type}

/-- A run has ended in a state of the sort `post`, or of the sort `failed` if it has failed. -/
inductive Ended (post : β → σ → Prop) (failed : σ → Prop) : Except Fault β × Session σ → Prop
  | ok {b : β} {t : Session σ} (h : post b t.state) : Ended post failed (.ok b, t)
  | error {f : Fault} {t : Session σ} (h : failed t.state) : Ended post failed (.error f, t)

/-- From a state of the sort `pre`, the run ends in one of the sort `post`, or of the sort `failed`
if it fails. -/
def Ensures (pre : σ → Prop) (run : Run σ β) (post : β → σ → Prop) (failed : σ → Prop) : Prop :=
  ∀ s : Session σ, pre s.state → Ended post failed (run s)

variable {pre failed : σ → Prop} {post : β → σ → Prop}

theorem ensures_pure {b : β} (h : ∀ s, pre s → post b s) : Ensures pre (pure b) post failed :=
  fun s hs => .ok (h s.state hs)

theorem ensures_throw {f : Fault} (h : ∀ s, pre s → failed s) :
    Ensures pre (throw f : Run σ β) post failed :=
  fun s hs => .error (h s.state hs)

/-- The steps after a fault are not taken. -/
theorem ensures_throw_bind {f : Fault} {next : γ → Run σ β} (h : ∀ s, pre s → failed s) :
    Ensures pre ((throw f : Run σ γ) >>= next) post failed :=
  fun s hs => .error (h s.state hs)

theorem ensures_perform {call : σ → Response σ β} {post : Reply β → σ → Prop}
    (h : ∀ s, pre s → post (call s).reply (call s).state) :
    Ensures pre (perform call) post failed :=
  fun s hs => .ok (h s.state hs)

theorem Ensures.bind {x : Run σ β} {f : β → Run σ γ} {post : γ → σ → Prop} {m : β → σ → Prop}
    (hx : Ensures pre x m failed) (hf : ∀ b, Ensures (m b) (f b) post failed) :
    Ensures pre (x >>= f) post failed := by
  intro s hs
  have hfirst := hx s hs
  simp only [Bind.bind, ExceptT.bind, ExceptT.mk, StateT.bind]
  cases hrun : x s with
  | mk outcome t =>
    rw [hrun] at hfirst
    cases hfirst with
    | ok hm => exact hf _ t hm
    | error hfailed => exact .error hfailed

/-- What is reported does not count. -/
theorem Ensures.reported {run : Run σ β} (h : Ensures pre run post failed) (level : LogLevel)
    (text : String) : Ensures pre (report level text >>= fun _ => run) post failed :=
  fun s hs => h ⟨s.state, s.log ++ [LogLine.mk level text]⟩ hs

theorem Ensures.reportedAll {run : Run σ β} (h : Ensures pre run post failed)
    (lines : List LogLine) : Ensures pre (reportAll lines >>= fun _ => run) post failed :=
  fun s hs => h ⟨s.state, s.log ++ lines⟩ hs

/-- A step that does not touch the state, and what follows with the value that it finds. -/
theorem ensures_found {e : Except Fault γ} {f : γ → Run σ β} (fault : ∀ s, pre s → failed s)
    (h : ∀ c, e = .ok c → Ensures pre (f c) post failed) :
    Ensures pre (ofExcept e >>= f) post failed := by
  cases e with
  | ok c => exact h c rfl
  | error f => exact fun s hs => .error (fault s.state hs)

/-- Where a fault leaves what was there before, nothing else has to be shown for it. -/
theorem keeps_found {e : Except Fault γ} {f : γ → Run σ β}
    (h : ∀ c, e = .ok c → Ensures pre (f c) post pre) : Ensures pre (ofExcept e >>= f) post pre :=
  ensures_found (fun _ hs => hs) h

theorem keeps_validated {e : Except Invalid γ} {f : γ → Run σ β}
    (h : ∀ c, e = .ok c → Ensures pre (f c) post pre) : Ensures pre (ofValidated e >>= f) post pre :=
  keeps_found fun c hc => h c (Fallible.ofValidated_ok_iff.mp hc)

theorem Ensures.mono {run : Run σ β} {post' : β → σ → Prop} (h : Ensures pre run post failed)
    (weaker : ∀ b s, post b s → post' b s) : Ensures pre run post' failed := by
  intro s hs
  have hrun := h s hs
  cases hr : run s with
  | mk outcome t =>
    rw [hr] at hrun
    cases hrun with
    | ok hpost => exact .ok (weaker _ t.state hpost)
    | error hfailed => exact .error hfailed

/-- A run on one part of a larger state leaves the rest as it was. -/
theorem Ensures.onPart {run : Run σ β} {part : τ → σ} {put : τ → σ → τ} {pre' : τ → Prop}
    {post' : β → τ → Prop} {failed' : τ → Prop} (h : Ensures pre run post failed)
    (before : ∀ t, pre' t → pre (part t)) (after : ∀ t s b, pre' t → post b s → post' b (put t s))
    (afterFault : ∀ t s, pre' t → failed s → failed' (put t s)) :
    Ensures pre' (run.onPart part put) post' failed' := by
  intro s hs
  have hpart := h ⟨part s.state, s.log⟩ (before s.state hs)
  simp only [Run.onPart, ExceptT.run]
  cases hr : run ⟨part s.state, s.log⟩ with
  | mk outcome t =>
    rw [hr] at hpart
    cases hpart with
    | ok hpost => exact .ok (after s.state t.state _ hs hpost)
    | error hfailed => exact .error (afterFault s.state t.state hs hfailed)

/-- The run keeps a property of the state, whether it succeeds or fails. -/
def Keeps (sort : σ → Prop) (run : Run σ β) : Prop :=
  Ensures sort run (fun _ => sort) sort

theorem Keeps.ends {sort : σ → Prop} {run : Run σ β} (h : Keeps sort run) {s : Session σ}
    (hs : sort s.state) : sort (run.run s).2.state := by
  have hrun := h s hs
  rw [ExceptT.run]
  cases hr : run s with
  | mk outcome t =>
    rw [hr] at hrun
    cases hrun with
    | ok h => exact h
    | error h => exact h

/-- The last step makes an answer of the value. -/
theorem Keeps.map {sort : σ → Prop} {run : Run σ β} (h : Keeps sort run) (f : β → γ) :
    Keeps sort (run >>= fun b => pure (f b)) := by
  refine Ensures.bind h ?_
  intro b
  exact ensures_pure fun _ hs => hs

end Run

/-! ## Operations of a service -/

namespace Service

open Run Exchange

variable {σ α : Type} [Managed α]

/-- The exchanges that are noted in the state are fairly made. -/
def Noted (s : σ × List (Exchange α)) : Prop :=
  FairlyMade s.2

/-- The exchanges so far are fairly made, and the resource carries the id unless one of them is
untruthful. -/
def Carries (r : α) (id : String) (s : σ × List (Exchange α)) : Prop :=
  FairlyMade s.2 ∧ ((∀ x ∈ s.2, x.IsTruthful) → Resource.id r = some id)

section Calls

variable {β : Type} {config : Config} {name : String} {subject : Subject} {action : σ → Response σ β}
  {exchange : Reply β → Exchange α}

/-- A call whose exchange is fair. -/
theorem call_ensures {pre : σ × List (Exchange α) → Prop} {post : β → σ × List (Exchange α) → Prop}
    (fair : ∀ s reply, pre s → FairlyMade (s.2 ++ [exchange reply]))
    (done : ∀ b s t, pre s → post b (t, s.2 ++ [exchange (.done b)])) :
    Ensures pre (call α config name subject (Repository.noted action exchange)) post Noted := by
  refine Ensures.bind (m := fun reply s => FairlyMade s.2 ∧
    ∀ b, reply = .done b → post b s) (ensures_perform fun s hs => ?_) fun reply => ?_
  · refine ⟨fair s _ hs, fun b hb => ?_⟩
    have hdone := done b s (action s.1).state hs
    rw [← hb] at hdone
    exact hdone
  · cases reply with
    | done b => exact ensures_pure fun s hs => hs.2 b rfl
    | refused refusal =>
      simp only
      cases classify? α subject refusal with
      | some fault => exact ensures_throw fun s hs => hs.1
      | none => exact (ensures_throw fun s hs => hs.1).reported _ _
    | stalled =>
      cases config.timeoutMs with
      | some ms => exact (ensures_throw fun s hs => hs.1).reported _ _
      | none => exact ensures_throw fun s hs => hs.1

/-- A call that is fair whatever the reply. -/
theorem call_keeps (fair : ∀ reply, (exchange reply).IsFair) :
    Keeps Noted (call α config name subject (Repository.noted action exchange)) :=
  call_ensures (fun _ reply hs => hs.snoc fun _ => fair reply)
    fun b _ _ hs => hs.snoc fun _ => fair (.done b)

end Calls

variable (repo : Repository σ α) (config : Config) (o : Occasion)

theorem load_ensures (id : String) :
    Ensures Noted (load repo.recorded config id) (fun r => Carries r id) Noted := by
  refine Ensures.bind (m := fun found s => FairlyMade s.2 ∧ ∀ r, found = some r → Carries r id s)
    (call_ensures (fun _ _ hs => hs.snoc fun _ => trivial) ?_) fun found => ?_
  · intro found s _ hs
    have hnoted : FairlyMade (s.2 ++ [.getById id (.done found)]) := FairlyMade.snoc hs fun _ => trivial
    refine ⟨hnoted, ?_⟩
    rintro r rfl
    refine ⟨hnoted, fun truthful => ?_⟩
    exact truthful (.getById id (.done (some r))) (List.mem_append_right s.2 List.mem_cons_self)
  · cases found with
    | some r => exact ensures_pure fun s hs => hs.2 r rfl
    | none => exact (ensures_throw fun s hs => hs.1).reported _ _

theorem create_keeps (r : α) : Keeps Noted (create repo.recorded config o r) := by
  rw [Keeps, create]
  refine Ensures.reported (Ensures.reported ?_ _ _) _ _
  by_cases hid : (Resource.id r).isSome = true
  · rw [if_pos hid]
    exact (ensures_throw_bind fun s hs => hs).reported _ _
  · rw [if_neg hid]
    refine keeps_found ?_
    intro key _
    refine Ensures.bind (call_keeps fun _ => trivial) ?_
    intro taken
    cases taken with
    | true => exact (ensures_throw_bind fun s hs => hs).reported _ _
    | false =>
      refine Ensures.bind (call_keeps fun _ => trivial) ?_
      intro _
      refine Ensures.reported ?_ _ _
      exact ensures_pure fun s hs => hs

theorem retrieve_keeps (address : Address) : Keeps Noted (retrieve repo.recorded config o address) := by
  rw [Keeps, retrieve]
  refine keeps_validated ?_
  intro _ _
  refine keeps_found ?_
  intro id _
  refine Ensures.reported ?_ _ _
  exact (load_ensures repo config id).mono fun r s hs => hs.1

theorem delete_keeps (address : Address) : Keeps Noted (delete repo.recorded config o address) := by
  rw [Keeps, delete]
  refine keeps_found ?_
  intro id _
  refine Ensures.reported ?_ _ _
  exact call_keeps fun _ => trivial

theorem query_keeps (q : Query) : Keeps Noted (query repo.recorded config o q) := by
  rw [Keeps, query]
  refine keeps_validated ?_
  intro _ _
  refine keeps_found ?_
  intro _ _
  refine keeps_found ?_
  intro _ _
  refine Ensures.reported ?_ _ _
  refine Ensures.bind (call_keeps fun _ => trivial) ?_
  intro all
  refine keeps_found ?_
  intro results _
  refine Ensures.reportedAll ?_ _
  exact ensures_pure fun _ hs => hs

section Changes

variable [LawfulManaged α]

/-- A changed resource is stored under the id that it carries. -/
theorem store_ensures {id key : String} {existing r : α}
    (same : Resource.id r = some id ∨ Resource.id r = Resource.id existing) :
    Ensures (Carries existing id)
      (do
        let stored ← Run.ofExcept (stampChanged config o id existing r)
        call α config "update_by_id" ⟨some id, some key⟩ (repo.recorded.updateById id stored)
        return stored) (fun _ => Noted) Noted := by
  refine ensures_found ?_ ?_
  · exact fun _ hs => hs.1
  intro stored hstored
  obtain ⟨m, -, rfl⟩ := stampChanged_ok hstored
  have fair (s : σ × List (Exchange α)) (reply : Reply Unit) (hs : Carries existing id s) :
      FairlyMade (s.2 ++ [.updateById id (finishMetadata config id (Resource.withMetadata r m)) reply]) := by
    refine hs.1.snoc fun truthful => ?_
    simp only [IsFair, id_finishMetadata, LawfulResource.id_withMetadata]
    rcases same with hid | hid
    · exact hid
    · rw [hid]
      exact hs.2 truthful
  refine Ensures.bind (m := fun _ => Noted) (call_ensures fair ?_) ?_
  · intro b s t hs
    exact fair s (.done b) hs
  · intro _
    exact ensures_pure fun _ hs => hs

theorem replace_keeps (r : α) : Keeps Noted (replace repo.recorded config o r) := by
  rw [Keeps, replace]
  refine keeps_found ?_
  intro id _
  refine Ensures.reported (Ensures.reported ?_ _ _) _ _
  refine keeps_found ?_
  intro key _
  refine Ensures.bind (load_ensures repo config id) ?_
  intro existing
  exact store_ensures repo config o (.inl (LawfulResource.id_withId r id))

theorem update_keeps (m : PatchMessage) : Keeps Noted (update repo.recorded config o m) := by
  rw [Keeps, update]
  refine keeps_validated ?_
  intro address _
  refine keeps_found ?_
  intro id _
  refine keeps_found ?_
  intro request _
  refine Ensures.reported ?_ _ _
  refine Ensures.bind (load_ensures repo config id) ?_
  intro existing
  refine Ensures.reportedAll ?_ _
  refine ensures_found ?_ ?_
  · exact fun _ hs => hs.1
  intro patched hpatched
  refine ensures_found ?_ ?_
  · exact fun _ hs => hs.1
  intro key _
  exact store_ensures repo config o (.inr (Patch.id_applyOperations hpatched))

/-- Whatever a repository replies, an operation stores a resource only under the id that it carries,
unless it was told an untruth. -/
theorem handle_keeps (q : Request α) : Keeps Noted (handle repo.recorded config o q) := by
  cases q with
  | create r =>
    rw [handle]
    exact (create_keeps repo config o r).map Answer.resource
  | retrieve address =>
    rw [handle]
    exact (retrieve_keeps repo config o address).map Answer.resource
  | replace r =>
    rw [handle]
    exact (replace_keeps repo config o r).map Answer.resource
  | update m =>
    rw [handle]
    exact (update_keeps repo config o m).map Answer.resource
  | delete address =>
    rw [handle]
    exact (delete_keeps repo config o address).map fun _ => Answer.nothing
  | query q =>
    rw [handle]
    exact (query_keeps repo config o q).map Answer.resources

end Changes

end Service

/-! ## Requests to a directory -/

namespace Directory

open Run

variable {σ τ : Type} (repos : Repositories σ τ) (config : Config) (o : Occasion)

/-- The same repositories with a note of every exchange. -/
def recorded : Repositories (σ × List (Exchange User)) (τ × List (Exchange Group)) :=
  ⟨repos.users.recorded, repos.groups.recorded⟩

/-- The exchanges that are noted on either side are fairly made. -/
def Noted (s : Both (σ × List (Exchange User)) (τ × List (Exchange Group))) : Prop :=
  Service.Noted s.users ∧ Service.Noted s.groups

theorem user_keeps (q : Request User) :
    Keeps Noted (do return (← handleUser (recorded repos) config o q).map AnyResource.user) := by
  refine Keeps.map ?_ _
  rw [Keeps, handleUser, onUsers]
  refine (Service.handle_keeps repos.users config o q).onPart ?_ ?_ ?_
  · intro t ht
    exact ht.1
  · intro t s _ ht hs
    exact ⟨hs, ht.2⟩
  · intro t s ht hs
    exact ⟨hs, ht.2⟩

theorem group_keeps (q : Request Group) :
    Keeps Noted (do return (← handleGroup (recorded repos) config o q).map AnyResource.group) := by
  refine Keeps.map ?_ _
  rw [Keeps, handleGroup, onGroups]
  refine (Service.handle_keeps repos.groups config o q).onPart ?_ ?_ ?_
  · intro t ht
    exact ht.2
  · intro t s _ ht hs
    exact ⟨ht.1, hs⟩
  · intro t s ht hs
    exact ⟨ht.1, hs⟩

theorem dispatch_keeps (kind : Kind) (user : Request User) (group : Request Group) :
    Keeps Noted (dispatch (recorded repos) config o kind user group) := by
  cases kind with
  | user => exact user_keeps repos config o user
  | group => exact group_keeps repos config o group

theorem handle_keeps (q : Request AnyResource) : Keeps Noted (handle (recorded repos) config o q) := by
  cases q with
  | create r =>
    cases r with
    | user u => exact user_keeps repos config o (.create u)
    | group g => exact group_keeps repos config o (.create g)
  | replace r =>
    cases r with
    | user u => exact user_keeps repos config o (.replace u)
    | group g => exact group_keeps repos config o (.replace g)
  | retrieve address =>
    refine keeps_found ?_
    intro kind _
    exact dispatch_keeps repos config o kind (.retrieve address) (.retrieve address)
  | update m =>
    refine keeps_validated ?_
    intro address _
    refine keeps_found ?_
    intro kind _
    exact (dispatch_keeps repos config o kind (.update m) (.update m)).map fun _ => Answer.nothing
  | delete address =>
    refine keeps_found ?_
    intro kind _
    exact dispatch_keeps repos config o kind (.delete address) (.delete address)
  | query q =>
    refine keeps_validated ?_
    intro _ _
    refine keeps_found ?_
    intro _ _
    refine keeps_found ?_
    intro kind _
    exact dispatch_keeps repos config o kind (.query q) (.query q)

/-- The same of a request on any way into the directory. -/
theorem meet_keeps (q : DirectoryRequest) : Keeps Noted (meet (recorded repos) config o q) := by
  cases q with
  | routed q => exact handle_keeps repos config o q
  | users q => exact user_keeps repos config o q
  | groups q => exact group_keeps repos config o q

end Directory

end Scim
