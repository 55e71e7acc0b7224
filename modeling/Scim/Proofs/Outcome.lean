import Scim.Proofs.Resource
import Scim.Proofs.Run
import Scim.Proofs.Store

/-!
# Outcomes of requests to a store

What each operation of a service comes to when its repository is a store, as a chain of steps that
can fail: the answer and the store that follows, or the fault. The operations themselves are shown
to come to exactly this.
-/

namespace Scim.Service

variable {α : Type}

section Calls

variable [Resource α]

/-- The fault by which a refused call is known to the caller. -/
def refusalFault (α : Type) [Resource α] (name : String) (subject : Subject) (r : Refusal) :
    Fault :=
  (classify? α subject r).getD (.persistence name r.reason)

/-- A write to a store as the caller of the service sees it. -/
def written (α : Type) [Resource α] (name : String) (subject : Subject) :
    Except StoreError (Store α) → Except Fault (Store α)
  | .ok t => .ok t
  | .error e => .error (refusalFault α name subject e.refusal)

/-- The stored record of an id. -/
def find (s : Store α) (id : String) : Except Fault α :=
  match s.get? id with
  | some r => .ok r
  | none => .error (notFound α id)

theorem written_ok_iff {name : String} {subject : Subject} {e : Except StoreError (Store α)}
    {t : Store α} : written α name subject e = .ok t ↔ e = .ok t := by
  cases e with
  | ok u =>
    exact ⟨fun h => congrArg Except.ok (Except.ok.inj h),
      fun h => congrArg Except.ok (Except.ok.inj h)⟩
  | error e => exact ⟨fun h => (by cases h), fun h => (by cases h)⟩

theorem find_ok_iff {s : Store α} {id : String} {r : α} :
    find s id = .ok r ↔ s.get? id = some r := by
  rw [find]
  cases s.get? id with
  | none => exact ⟨fun h => (by cases h), fun h => (by cases h)⟩
  | some x => exact ⟨fun h => Except.ok.inj h ▸ rfl, fun h => Option.some.inj h ▸ rfl⟩

theorem comesTo_perform {σ β : Type} {action : σ → Response σ β} {s t : σ} {reply : Reply β}
    {lines : List LogLine} (h : action s = ⟨reply, t, lines⟩) :
    (Run.perform action).ComesTo s (.ok (reply, t)) := by
  intro log
  refine ⟨log ++ lines, ?_⟩
  have hperform : (Run.perform action).run ⟨s, log⟩ =
      (.ok (action s).reply, ⟨(action s).state, log ++ (action s).log⟩) := rfl
  rw [hperform, h, Run.ending]

theorem comesTo_call_done {β : Type} (config : Config) (name : String) (subject : Subject)
    {action : Store α → Response (Store α) β} {s t : Store α} {b : β} {lines : List LogLine}
    (h : action s = ⟨.done b, t, lines⟩) :
    (call α config name subject action).ComesTo s (.ok (b, t)) :=
  (comesTo_perform h).bind_ok (Run.reads_pure b t)

theorem comesTo_call_refused {β : Type} (config : Config) (name : String) (subject : Subject)
    {action : Store α → Response (Store α) β} {s : Store α} {r : Refusal} {lines : List LogLine}
    (h : action s = ⟨.refused r, s, lines⟩) :
    (call α config name subject action).ComesTo s (.error (refusalFault α name subject r)) := by
  have hperform : (Run.perform action).Reads s (.ok (.refused r)) := comesTo_perform h
  refine hperform.found ?_
  rw [refusalFault]
  cases hc : classify? α subject r with
  | some fault =>
    simp only [hc]
    exact Run.reads_throw fault s
  | none =>
    simp only [hc]
    exact (Run.reads_report _ _ s).found (Run.reads_throw _ s)

/-- A write to a store is carried out or refused, and a refused one changes nothing. -/
theorem comesTo_call_respond (config : Config) (name : String) (subject : Subject)
    {action : Store α → Response (Store α) Unit} {s : Store α} {e : Except StoreError (Store α)}
    {line : LogLine} (h : action s = s.respond e line) :
    (call α config name subject action).ComesTo s
      ((written α name subject e).map fun t => ((), t)) := by
  cases e with
  | ok t => exact comesTo_call_done config name subject h
  | error e => exact comesTo_call_refused config name subject h

end Calls

section Operations

variable [Managed α]

theorem reads_load (config : Config) (s : Store α) (id : String) :
    (load (Store.repository α) config id).Reads s (find s id) := by
  have hcall : (call α config "get_by_id" (Subject.ofId id)
      ((Store.repository α).getById id)).Reads s (.ok (s.get? id)) :=
    comesTo_call_done config "get_by_id" (Subject.ofId id) rfl
  refine hcall.found ?_
  rw [find]
  cases s.get? id with
  | some r => exact Run.reads_pure r s
  | none => exact (Run.reads_report _ _ s).found (Run.reads_throw _ s)

/-- What a creation comes to. -/
def created (config : Config) (o : Occasion) (r : α) (s : Store α) : Except Fault (α × Store α) :=
  if (Resource.id r).isSome then .error (.validation .clientProvidedId)
  else do
    let key ← requireNaturalKey r
    if s.containsKey key then .error (conflict α key)
    else do
      let t ← written α "create" ⟨some o.freshId, some key⟩ (s.create (stampNew config o r))
      return (stampNew config o r, t)

/-- What a retrieval comes to. -/
def retrieved (o : Occasion) (address : Address) (s : Store α) : Except Fault α := do
  Fault.ofValidated (validateRequestId o.requestId)
  let id ← resolve α address
  find s id

/-- What overwriting a stored record comes to. -/
def overwritten (config : Config) (o : Occasion) (id key : String) (existing r : α)
    (s : Store α) : Except Fault (α × Store α) := do
  let stored ← stampChanged config o id existing r
  let t ← written α "update_by_id" ⟨some id, some key⟩ (s.update id stored)
  return (stored, t)

/-- What a replacement comes to. -/
def replaced (config : Config) (o : Occasion) (r : α) (s : Store α) :
    Except Fault (α × Store α) := do
  let id ← ownId r
  let key ← requireNaturalKey r
  let existing ← find s id
  overwritten config o id key existing (Resource.withId r id) s

/-- What a patch comes to. -/
def updated (config : Config) (o : Occasion) (m : PatchMessage) (s : Store α) :
    Except Fault (α × Store α) := do
  let address ← Fault.ofValidated m.target
  let id ← resolve α address
  let request ← m.request
  let existing ← find s id
  let patched ← Patch.apply existing request
  let key ← requireNaturalKey patched
  overwritten config o id key existing patched s

/-- What a removal comes to. -/
def deleted (address : Address) (s : Store α) : Except Fault (Unit × Store α) := do
  let id ← resolve α address
  return ((), s.delete id)

/-- What a query comes to. -/
def queried (o : Occasion) (q : Query) (s : Store α) : Except Fault (List α) := do
  Fault.ofValidated (validateRequestId o.requestId)
  q.validate
  checkSchema α q.schemaIdentifier
  q.select s.records

/-- What a request comes to: the answer and the store that follows, or the fault. -/
def outcome (config : Config) (o : Occasion) (s : Store α) :
    Request α → Except Fault (Answer α × Store α)
  | .create r => (created config o r s).map fun p => (.resource p.1, p.2)
  | .retrieve address => (retrieved o address s).map fun r => (.resource r, s)
  | .replace r => (replaced config o r s).map fun p => (.resource p.1, p.2)
  | .update m => (updated config o m s).map fun p => (.resource p.1, p.2)
  | .delete address => (deleted address s).map fun p => (.nothing, p.2)
  | .query q => (queried o q s).map fun rs => (.resources rs, s)

theorem comesTo_create (config : Config) (o : Occasion) (r : α) (s : Store α) :
    (create (Store.repository α) config o r).ComesTo s (created config o r s) := by
  refine (Run.reads_report _ _ s).found ((Run.reads_report _ _ s).found ?_)
  rw [created]
  refine Run.ComesTo.ite (fun _ => ?_) (fun _ => ?_)
  · exact (Run.reads_report _ _ s).found (Run.reads_throw _ s).bind_error
  refine (Run.reads_ofExcept _ s).bind fun key _ => ?_
  -- without an id to look for, the check of existence looks for the key alone
  have htaken : (call α config "check_exists" Subject.none
      ((Store.repository α).checkExists none key)).Reads s (.ok (s.containsKey key)) :=
    comesTo_call_done config "check_exists" Subject.none rfl
  refine htaken.found (Run.ComesTo.ite (fun _ => ?_) (fun _ => ?_))
  · exact (Run.reads_report _ _ s).found (Run.reads_throw _ s).bind_error
  · exact (comesTo_call_respond config "create" ⟨some o.freshId, some key⟩ rfl).write
      fun t => (Run.reads_report _ _ t).found (Run.reads_pure _ t)

theorem reads_retrieve (config : Config) (o : Occasion) (address : Address) (s : Store α) :
    (retrieve (Store.repository α) config o address).Reads s (retrieved o address s) := by
  refine (Run.reads_ofValidated _ s).andThen fun _ _ => ?_
  refine (Run.reads_ofExcept _ s).andThen fun id _ => ?_
  exact (Run.reads_report _ _ s).found (reads_load config s id)

theorem comesTo_overwrite (config : Config) (o : Occasion) (id key : String) (existing r : α)
    (s : Store α) :
    Run.ComesTo (do
      let stored ← Run.ofExcept (stampChanged config o id existing r)
      call α config "update_by_id" ⟨some id, some key⟩ ((Store.repository α).updateById id stored)
      return stored) s (overwritten config o id key existing r s) := by
  refine (Run.reads_ofExcept _ s).bind fun stored _ => ?_
  exact (comesTo_call_respond config "update_by_id" ⟨some id, some key⟩ rfl).write
    fun t => Run.reads_pure stored t

theorem comesTo_replace (config : Config) (o : Occasion) (r : α) (s : Store α) :
    (replace (Store.repository α) config o r).ComesTo s (replaced config o r s) := by
  refine (Run.reads_ofExcept _ s).bind fun id _ => ?_
  refine (Run.reads_report _ _ s).found ((Run.reads_report _ _ s).found ?_)
  refine (Run.reads_ofExcept _ s).bind fun key _ => ?_
  refine (reads_load config s id).bind fun existing _ => ?_
  exact comesTo_overwrite config o id key existing (Resource.withId r id) s

theorem comesTo_update (config : Config) (o : Occasion) (m : PatchMessage) (s : Store α) :
    (update (Store.repository α) config o m).ComesTo s (updated config o m s) := by
  refine (Run.reads_ofValidated _ s).bind fun address _ => ?_
  refine (Run.reads_ofExcept _ s).bind fun id _ => ?_
  refine (Run.reads_ofExcept _ s).bind fun request _ => ?_
  refine (Run.reads_report _ _ s).found ?_
  refine (reads_load config s id).bind fun existing _ => ?_
  refine (Run.reads_reportAll _ s).found ?_
  refine (Run.reads_ofExcept _ s).bind fun patched _ => ?_
  refine (Run.reads_ofExcept _ s).bind fun key _ => ?_
  exact comesTo_overwrite config o id key existing patched s

theorem comesTo_delete (config : Config) (o : Occasion) (address : Address) (s : Store α) :
    (delete (Store.repository α) config o address).ComesTo s (deleted address s) := by
  refine (Run.reads_ofExcept _ s).bind fun id _ => (Run.reads_report _ _ s).found ?_
  exact comesTo_call_done config "delete_by_id" (Subject.ofId id) rfl

theorem reads_query (config : Config) (o : Occasion) (q : Query) (s : Store α) :
    (query (Store.repository α) config o q).Reads s (queried o q s) := by
  refine (Run.reads_ofValidated _ s).andThen fun _ _ => ?_
  refine (Run.reads_ofExcept _ s).andThen fun _ _ => ?_
  refine (Run.reads_ofExcept _ s).andThen fun _ _ => ?_
  refine (Run.reads_report _ _ s).found ?_
  have hlist : (call α config "list_all" Subject.none (Store.repository α).listAll).Reads s
      (.ok s.records) := comesTo_call_done config "list_all" Subject.none rfl
  refine hlist.found ?_
  cases h : q.select s.records with
  | error fault => exact (Run.reads_throw fault s).bind_error
  | ok results =>
    exact (Run.reads_pure results s).found
      ((Run.reads_reportAll _ s).found (Run.reads_pure results s))

/-- Meeting a request over a store comes to its outcome. -/
theorem comesTo_handle (config : Config) (o : Occasion) (q : Request α) (s : Store α) :
    (handle (Store.repository α) config o q).ComesTo s (outcome config o s q) := by
  cases q with
  | create r => exact (comesTo_create config o r s).map Answer.resource
  | retrieve address => exact (reads_retrieve config o address s).map Answer.resource
  | replace r => exact (comesTo_replace config o r s).map Answer.resource
  | update m => exact (comesTo_update config o m s).map Answer.resource
  | delete address => exact (comesTo_delete config o address s).map fun _ => Answer.nothing
  | query q => exact (reads_query config o q s).map Answer.resources

end Operations

end Scim.Service
