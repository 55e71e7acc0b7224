import Scim.Proofs.CallSequence
import Scim.Proofs.Exchange
import Scim.Proofs.KeyQuery

/-!
# Operations at the same time

Several operations may be under way at once on one store. Each of them makes its calls one after the
other and may stop after any of them, but between two of its calls the others make theirs. The store
that guards itself holds then as well: what an operation has seen may be out of date, but it was true
when it was told, and so every update that reaches the store is fair.
-/

namespace Scim

namespace Exchange

variable {α : Type}

/-- The call that is to change the store, unless it was given up before it got there. -/
def call? : Exchange α → Option (Store.Call α)
  | .create _ .stalled | .updateById _ _ .stalled | .deleteById _ .stalled => none
  | .create r _ => some (.create r)
  | .updateById id r _ => some (.update id r)
  | .deleteById id _ => some (.delete id)
  | _ => none

/-- The reply is the one that the store gives, or the call was given up. -/
def AnsweredBy [Resource α] (s : Store α) : Exchange α → Prop
  | .create r reply => reply = ((Store.repository α).create r s).reply ∨ reply = .stalled
  | .getById id reply => reply = ((Store.repository α).getById id s).reply ∨ reply = .stalled
  | .listAll reply => reply = ((Store.repository α).listAll s).reply ∨ reply = .stalled
  | .checkExists id key reply =>
    reply = ((Store.repository α).checkExists id key s).reply ∨ reply = .stalled
  | .updateById id r reply => reply = ((Store.repository α).updateById id r s).reply ∨ reply = .stalled
  | .deleteById id reply => reply = ((Store.repository α).deleteById id s).reply ∨ reply = .stalled

variable [Resource α]

/-- A store tells the truth. -/
theorem AnsweredBy.isTruthful {s : Store α} {e : Exchange α} (h : e.AnsweredBy s) :
    e.IsTruthful := by
  cases e with
  | getById id reply =>
    rcases h with rfl | rfl
    · cases hget : s.get? id with
      | none => simp only [IsTruthful, Store.repository, hget]
      | some r =>
        simp only [IsTruthful, Store.repository, hget]
        exact (Store.get?_eq_some hget).2
    · trivial
  | _ => trivial

theorem IsFair.call {e : Exchange α} (h : e.IsFair) {c : Store.Call α} (hc : e.call? = some c) :
    c.IsFair := by
  cases e with
  | updateById id r reply =>
    cases reply with
    | stalled => cases hc
    | done b =>
      cases hc
      exact h
    | refused refusal =>
      cases hc
      exact h
  | create r reply =>
    cases reply <;> cases hc <;> trivial
  | deleteById id reply =>
    cases reply <;> cases hc <;> trivial
  | _ => cases hc

theorem FairlyMade.front {es all : List (Exchange α)} (h : FairlyMade all) (hes : es <+: all) :
    FairlyMade es := by
  obtain ⟨rest, rfl⟩ := hes
  rintro front e back rfl
  exact h front e (back ++ rest) (by simp)

end Exchange

namespace Directory

open Exchange

/-- A request that a service with this configuration meets on an occasion. -/
structure Operation extends Event where
  config : Config

/-- One side of a directory: the users or the groups. -/
abbrev View (α : Type) := Both (List (Exchange User)) (List (Exchange Group)) → List (Exchange α)

namespace Operation

variable {σ τ : Type}

/-- Everything that the operation exchanges with repositories, from the first call to the last. -/
def exchanges (op : Operation) (repos : Repositories σ τ) (s : Both σ τ) :
    Both (List (Exchange User)) (List (Exchange Group)) :=
  let ended := (meet (recorded repos) op.config op.occasion op.request).run
    ⟨⟨(s.users, []), (s.groups, [])⟩, []⟩
  ⟨ended.2.state.users.2, ended.2.state.groups.2⟩

/-- The exchanges are the first ones of the operation, with whatever replies it was given. -/
def Engages {α : Type} (view : View α) (op : Operation) (es : List (Exchange α)) : Prop :=
  ∃ (σ τ : Type) (repos : Repositories σ τ) (s : Both σ τ), es <+: view (op.exchanges repos s)

theorem fairlyMade_exchanges (op : Operation) (repos : Repositories σ τ) (s : Both σ τ) :
    FairlyMade (op.exchanges repos s).users ∧ FairlyMade (op.exchanges repos s).groups :=
  (meet_keeps repos op.config op.occasion op.request).ends
    (s := ⟨⟨(s.users, []), (s.groups, [])⟩, []⟩) ⟨fairlyMade_nil, fairlyMade_nil⟩

end Operation

/-- One exchange of one of the callers. -/
structure Turn (α : Type) where
  caller : ℕ
  exchange : Exchange α

namespace Turn

variable {α : Type}

/-- What one caller exchanged. -/
def conversation (caller : ℕ) (turns : List (Turn α)) : List (Exchange α) :=
  (turns.filter fun t => t.caller = caller).map exchange

/-- The calls that reached the store, whoever made them. -/
def calls (turns : List (Turn α)) : List (Store.Call α) :=
  turns.filterMap fun t => t.exchange.call?

end Turn

/-- Operations take turns at one store. Each caller is in the course of its operation, and every
exchange is with the store as the turns before it have left it. -/
structure Interleaving {α : Type} [Resource α] (view : View α) (ops : ℕ → Operation)
    (turns : List (Turn α)) : Prop where
  engaged (caller : ℕ) : (ops caller).Engages view (Turn.conversation caller turns)
  answered {before later : List (Turn α)} {t : Turn α} : turns = before ++ t :: later →
    t.exchange.AnsweredBy (Store.afterCalls (Turn.calls before))

namespace Interleaving

variable {α : Type} [Resource α] {view : View α} {ops : ℕ → Operation} {turns : List (Turn α)}

theorem isTruthful (h : Interleaving view ops turns) {t : Turn α} (ht : t ∈ turns) :
    t.exchange.IsTruthful := by
  obtain ⟨before, later, heq⟩ := List.append_of_mem ht
  exact (h.answered heq).isTruthful

/-- No caller was told an untruth before its turn. -/
theorem isFair (h : Interleaving view ops turns)
    (fairly : ∀ (op : Operation) (es : List (Exchange α)), op.Engages view es → FairlyMade es)
    {t : Turn α} (ht : t ∈ turns) : t.exchange.IsFair := by
  obtain ⟨before, later, heq⟩ := List.append_of_mem ht
  refine fairly _ _ (h.engaged t.caller) (Turn.conversation t.caller before) t.exchange
    (Turn.conversation t.caller later) ?_ ?_
  · rw [heq]
    simp [Turn.conversation]
  · intro e he
    obtain ⟨u, hu, rfl⟩ := List.mem_map.mp he
    refine h.isTruthful ?_
    rw [heq]
    exact List.mem_append_left _ (List.mem_of_mem_filter hu)

theorem calls_isFair (h : Interleaving view ops turns)
    (fairly : ∀ (op : Operation) (es : List (Exchange α)), op.Engages view es → FairlyMade es) :
    ∀ c ∈ Turn.calls turns, c.IsFair := by
  intro c hc
  obtain ⟨t, ht, hcall⟩ := List.mem_filterMap.mp hc
  exact (h.isFair fairly ht).call hcall

end Interleaving

/-- The guard of a store holds in any order of calls: of calls as they come, and of the calls that
operations make between one another. -/
structure GuardHolds {α : Type} [Resource α] (view : View α) : Prop where
  calls (calls : List (Store.Call α)) : (∀ c ∈ calls, c.IsFair) → Store.Guarded calls
  interleaved (ops : ℕ → Operation) (turns : List (Turn α)) :
    Interleaving view ops turns → Store.Guarded (Turn.calls turns)

theorem guardHolds_of_fairly {α : Type} [Resource α] {view : View α}
    (fairly : ∀ (op : Operation) (es : List (Exchange α)), op.Engages view es → FairlyMade es) :
    GuardHolds view where
  calls _ fair := Store.guarded_afterCalls fair
  interleaved _ _ h := Store.guarded_afterCalls (h.calls_isFair fairly)

theorem guard_holds_in_any_order :
    GuardHolds (α := User) Both.users ∧ GuardHolds (α := Group) Both.groups := by
  constructor
  · refine guardHolds_of_fairly ?_
    rintro op es ⟨σ, τ, repos, s, hes⟩
    exact (op.fairlyMade_exchanges repos s).1.front hes
  · refine guardHolds_of_fairly ?_
    rintro op es ⟨σ, τ, repos, s, hes⟩
    exact (op.fairlyMade_exchanges repos s).2.front hes

/-! ## Two creations of the same natural key -/

/-- A repository that finds no natural key taken and has this reply to every creation. -/
def scripted (α : Type) (reply : Reply Unit) : Repository Unit α where
  create _ _ := ⟨reply, (), []⟩
  getById _ _ := ⟨.stalled, (), []⟩
  listAll _ := ⟨.stalled, (), []⟩
  checkExists _ _ _ := ⟨.done false, (), []⟩
  updateById _ _ _ := ⟨.stalled, (), []⟩
  deleteById _ _ := ⟨.stalled, (), []⟩

theorem exchanges_creation {config : Config} {o : Occasion} {u : User} {key : String}
    (unnamed : Resource.id u = none) (hkey : Service.requireNaturalKey u = .ok key)
    (reply : Reply Unit) :
    (Operation.exchanges ⟨⟨o, .users (.create u)⟩, config⟩ ⟨scripted User reply, scripted Group reply⟩
      ⟨(), ()⟩).users =
      [.checkExists none key (.done false), .create (Service.stampNew config o u) reply] := by
  simp only [Operation.exchanges, meet, handleUser, onUsers, Service.handle, Service.create, unnamed,
    hkey, Option.isSome_none]
  cases reply with
  | done b => rfl
  | stalled =>
    obtain ⟨baseUrl, version, timeoutMs⟩ := config
    cases timeoutMs <;> rfl
  | refused refusal =>
    obtain ⟨reason, isUniqueness, isNotFound⟩ := refusal
    cases isUniqueness <;> cases isNotFound <;> rfl

/-- Two callers create a user of the same name. -/
def rival (caller : ℕ) : Operation :=
  ⟨⟨{ newYear with freshId := if caller = 0 then "first" else "second" },
    .users (.create (User.named "bjensen"))⟩, Config.default⟩

/-- What a rival stores. -/
def rivalUser (caller : ℕ) : User :=
  Service.stampNew (rival caller).config (rival caller).occasion (User.named "bjensen")

/-- Both find the name free before one of them has taken it. -/
def race : List (Turn User) :=
  [⟨0, .checkExists none "bjensen" (.done false)⟩,
    ⟨1, .checkExists none "bjensen" (.done false)⟩,
    ⟨0, .create (rivalUser 0) (.done ())⟩,
    ⟨1, .create (rivalUser 1)
      ((Store.afterCalls [.create (rivalUser 0)]).answer (.create (rivalUser 1))).reply⟩]

theorem first_is_stored :
    ((Store.empty : Store User).answer (.create (rivalUser 0))).reply = .done () := by
  refine (Store.answer_create_iff (Service.id_stampNew _ _ _)).mpr ⟨?_, ?_⟩
  · exact fun x hx => absurd hx List.not_mem_nil
  · exact fun key _ => rfl

theorem second_is_refused :
    ((Store.afterCalls [.create (rivalUser 0)]).answer (.create (rivalUser 1))).reply ≠ .done () := by
  have hkey (caller : ℕ) : Resource.naturalKey (rivalUser caller) = some "bjensen" :=
    Service.naturalKey_stampNew _ _ _
  obtain ⟨t, ht⟩ := Store.respond_done_iff.mp first_is_stored
  obtain ⟨_, -, -, -, rfl⟩ := Store.create_ok_iff.mp ht
  have hstored : Store.afterCalls [.create (rivalUser 0)] = ⟨[rivalUser 0]⟩ := by
    simp only [Store.afterCalls, List.foldl_cons, List.foldl_nil, Store.answer, Store.repository, ht,
      Store.respond]
    rfl
  intro hdone
  rw [hstored] at hdone
  have hfree := ((Store.answer_create_iff (Service.id_stampNew _ _ _)).mp hdone).2 "bjensen" (hkey 1)
  simp only [Store.repository, Store.exists?, Store.containsKey, List.any_cons,
    Store.hasKey_of_naturalKey (hkey 0)] at hfree
  cases hfree

theorem race_interleaves : Interleaving Both.users rival race := by
  have hkey : Service.requireNaturalKey (User.named "bjensen") = .ok "bjensen" :=
    requireNaturalKey_named (by decide)
  have took (caller : ℕ) (reply : Reply Unit) (es : List (Exchange User))
      (hes : es <+: [.checkExists none "bjensen" (.done false), .create (rivalUser caller) reply]) :
      (rival caller).Engages Both.users es := by
    refine ⟨Unit, Unit, ⟨scripted User reply, scripted Group reply⟩, ⟨(), ()⟩, ?_⟩
    have hall : ((rival caller).exchanges ⟨scripted User reply, scripted Group reply⟩ ⟨(), ()⟩).users =
        [.checkExists none "bjensen" (.done false), .create (rivalUser caller) reply] :=
      exchanges_creation rfl hkey reply
    rw [hall]
    exact hes
  constructor
  · intro caller
    match caller with
    | 0 => exact took 0 _ _ (List.prefix_refl _)
    | 1 => exact took 1 _ _ (List.prefix_refl _)
    | caller + 2 => exact took (caller + 2) .stalled [] List.nil_prefix
  · intro before later t heq
    rcases before with _ | ⟨a, _ | ⟨b, _ | ⟨c, _ | ⟨d, rest⟩⟩⟩⟩
    · cases heq
      exact .inl rfl
    · cases heq
      exact .inl rfl
    · cases heq
      exact .inl first_is_stored.symm
    · cases heq
      exact .inl rfl
    · injection heq with _ heq
      injection heq with _ heq
      injection heq with _ heq
      injection heq with _ heq
      exact absurd heq.symm (List.append_ne_nil_of_right_ne_nil rest (List.cons_ne_nil t later))

/-- One of the rivals is stored and the other one is refused. -/
theorem guard_holds_in_race :
    Interleaving Both.users rival race ∧ Store.Guarded (Turn.calls race) ∧
    ((Store.empty : Store User).answer (.create (rivalUser 0))).reply = .done () ∧
    ((Store.afterCalls [.create (rivalUser 0)]).answer (.create (rivalUser 1))).reply ≠ .done () :=
  ⟨race_interleaves, guard_holds_in_any_order.1.interleaved rival race race_interleaves,
    first_is_stored, second_is_refused⟩

end Directory

end Scim
