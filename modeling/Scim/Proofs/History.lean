import Mathlib.Data.List.Induction
import Scim.Proofs.Directory

/-!
# Histories of a directory

A directory serves one request after the other, each with its own occasion: the ids that are
generated and the readings of the clock are whatever they are. A history is such a list of events.
The two sides of a directory, its users and its groups, are described at once, by how the store of a
side moves with each event.
-/

namespace Scim.Directory

/-- A request and the occasion on which it is met. -/
structure Event where
  occasion : Occasion
  request : DirectoryRequest

namespace Event

/-- The event is about the resource of this kind and id, with a verb of the sort. -/
structure Does (sort : Verb → Bool) (kind : Kind) (id : String) (e : Event) : Prop where
  kind : e.request.kind? = some kind
  subject : e.request.subject? e.occasion = some id
  verb : sort e.request.verb = true

end Event

/-- The answer to an event, and the stores that it leaves. -/
def serve (config : Config) (s : Stores) (e : Event) :
    Except Fault (Answer AnyResource) × Stores :=
  let r := (meet repositories config e.occasion e.request).run ⟨s, []⟩
  (r.1, r.2.state)

def Succeeds (config : Config) (s : Stores) (e : Event) : Prop :=
  ∃ a, (serve config s e).1 = .ok a

/-- The stores after a history. -/
def after (config : Config) (s : Stores) (events : List Event) : Stores :=
  events.foldl (fun s e => (serve config s e).2) s

/-- At some point of the history an event of the sort, about this kind and id, succeeded. -/
def Happened (config : Config) (s : Stores) (events : List Event) (sort : Verb → Bool) (kind : Kind)
    (id : String) : Prop :=
  ∃ before e later, events = before ++ e :: later ∧ Succeeds config (after config s before) e ∧
    e.Does sort kind id

def empty : Stores :=
  ⟨Store.empty, Store.empty⟩

variable {config : Config} {s t : Stores} {e : Event} {events : List Event}

theorem serve_of_ok {a : Answer AnyResource} (h : outcome config e.occasion s e.request = .ok (a, t)) :
    serve config s e = (.ok a, t) := by
  obtain ⟨log, hrun⟩ := comesTo_meet config e.occasion e.request s []
  rw [serve, hrun, h]
  rfl

theorem serve_of_error {f : Fault} (h : outcome config e.occasion s e.request = .error f) :
    serve config s e = (.error f, s) := by
  obtain ⟨log, hrun⟩ := comesTo_meet config e.occasion e.request s []
  rw [serve, hrun, h]
  rfl

/-- Events that come to the same are served the same. -/
theorem serve_congr {e' : Event} (h : outcome config e.occasion s e.request =
    outcome config e'.occasion s e'.request) : serve config s e = serve config s e' := by
  cases he' : outcome config e'.occasion s e'.request with
  | error f => rw [serve_of_error (h.trans he'), serve_of_error he']
  | ok r => rw [serve_of_ok (h.trans he'), serve_of_ok he']

/-- What the stores of an event that was answered come from. -/
theorem serve_cases (config : Config) (s : Stores) (e : Event) :
    (Succeeds config s e ∧ Change config e.occasion s e.request (serve config s e).2) ∨
      (¬ Succeeds config s e ∧ (serve config s e).2 = s) := by
  cases h : outcome config e.occasion s e.request with
  | error f =>
    right
    rw [Succeeds, serve_of_error h]
    exact ⟨fun ⟨_, hf⟩ => (by cases hf), rfl⟩
  | ok r =>
    left
    rw [Succeeds, serve_of_ok h]
    exact ⟨⟨r.1, rfl⟩, change_of_outcome h⟩

theorem after_snoc : after config s (events ++ [e]) = (serve config (after config s events) e).2 := by
  rw [after, List.foldl_append]
  rfl

theorem after_append (later : List Event) :
    after config s (events ++ later) = after config (after config s events) later :=
  List.foldl_append

theorem not_happened_nil {sort : Verb → Bool} {kind : Kind} {id : String} :
    ¬ Happened config s [] sort kind id := by
  rintro ⟨before, e, later, heq, -, -⟩
  cases before with
  | nil => cases heq
  | cons x rest => cases heq

/-- What happened in a history happened before its last event or by it. -/
theorem happened_snoc {sort : Verb → Bool} {kind : Kind} {id : String} :
    Happened config s (events ++ [e]) sort kind id ↔
      Happened config s events sort kind id ∨
        (Succeeds config (after config s events) e ∧ e.Does sort kind id) := by
  constructor
  · rintro ⟨before, x, later, heq, hsucceeds, hdoes⟩
    rcases List.eq_nil_or_concat later with rfl | ⟨rest, last, rfl⟩
    · obtain ⟨rfl, hx⟩ := List.append_inj' heq rfl
      cases hx
      exact .inr ⟨hsucceeds, hdoes⟩
    · rw [List.concat_eq_append, ← List.cons_append, ← List.append_assoc] at heq
      obtain ⟨rfl, -⟩ := List.append_inj' heq rfl
      exact .inl ⟨before, x, rest, rfl, hsucceeds, hdoes⟩
  · rintro (⟨before, x, later, rfl, hsucceeds, hdoes⟩ | ⟨hsucceeds, hdoes⟩)
    · exact ⟨before, x, later ++ [e], by simp, hsucceeds, hdoes⟩
    · exact ⟨events, e, [], rfl, hsucceeds, hdoes⟩

theorem happened_snoc_of_not {sort : Verb → Bool} {kind : Kind} {id : String}
    (h : ¬ (Succeeds config (after config s events) e ∧ e.Does sort kind id)) :
    Happened config s (events ++ [e]) sort kind id ↔ Happened config s events sort kind id := by
  rw [happened_snoc]
  exact or_iff_left h

/-! ## The two sides -/

/-- One side of a directory: a kind of resources, the store for it and the way to its service. The
store changes only by requests that are meant for the kind. -/
structure Side (α : Type) [Managed α] where
  kind : Kind
  store : Stores → Store α
  /-- The stores with another store on this side. -/
  put : Stores → Store α → Stores
  wrap : α → AnyResource
  ask : Request α → DirectoryRequest
  store_empty : store empty = Store.empty
  store_put (s : Stores) (t : Store α) : store (put s t) = t
  kind_eq : kind = Resource.kind α
  outcome_ask (config : Config) (o : Occasion) (s : Stores) (q : Request α) :
    outcome config o s (ask q) =
      (Service.outcome config o (store s) q).map fun r => (r.1.map wrap, put s r.2)
  outcome_choose (config : Config) (o : Occasion) (s : Stores) (q : Query) :
    directedOutcome config o s (choose (.query q) (.query q) kind) =
      (Service.outcome config o (store s) (.query q)).map fun r => (r.1.map wrap, put s r.2)
  change_or_eq {config : Config} {o : Occasion} {s t : Stores} {q : DirectoryRequest} :
    Change config o s q t →
      (q.kind? = some kind ∧
        Service.Change config o (store s) q.verb (q.subject? o) (store t)) ∨
      (q.kind? ≠ some kind ∧ store t = store s)

def users : Side User where
  kind := .user
  store := Both.users
  put s t := ⟨t, s.groups⟩
  wrap := .user
  ask := .users
  store_empty := rfl
  store_put _ _ := rfl
  kind_eq := rfl
  outcome_ask _ _ _ _ := outcome_of_shown fun _ => rfl
  outcome_choose _ _ _ _ := rfl
  change_or_eq h := by
    cases h with
    | users kind change => exact .inl ⟨kind, change⟩
    | groups kind _ => exact .inr ⟨by rw [kind]; decide, rfl⟩

def groups : Side Group where
  kind := .group
  store := Both.groups
  put s t := ⟨s.users, t⟩
  wrap := .group
  ask := .groups
  store_empty := rfl
  store_put _ _ := rfl
  kind_eq := rfl
  outcome_ask _ _ _ _ := outcome_of_shown fun _ => rfl
  outcome_choose _ _ _ _ := rfl
  change_or_eq h := by
    cases h with
    | users kind _ => exact .inr ⟨by rw [kind]; decide, rfl⟩
    | groups kind change => exact .inl ⟨kind, change⟩

variable {α : Type} [Managed α] (side : Side α)

/-- An event changes the store of a side if it succeeds and is meant for it, and otherwise not. -/
theorem Side.step (config : Config) (s : Stores) (e : Event) :
    (Succeeds config s e ∧ e.request.kind? = some side.kind ∧
      Service.Change config e.occasion (side.store s) e.request.verb
        (e.request.subject? e.occasion) (side.store (serve config s e).2)) ∨
      (¬ (Succeeds config s e ∧ e.request.kind? = some side.kind) ∧
        side.store (serve config s e).2 = side.store s) := by
  rcases serve_cases config s e with ⟨hsucceeds, hchange⟩ | ⟨hfails, heq⟩
  · rcases side.change_or_eq hchange with ⟨hkind, hchange⟩ | ⟨hkind, heq⟩
    · exact .inl ⟨hsucceeds, hkind, hchange⟩
    · exact .inr ⟨fun h => hkind h.2, heq⟩
  · exact .inr ⟨fun h => hfails h.1, congrArg side.store heq⟩

theorem Side.kept_empty : (side.store empty).Kept := by
  rw [side.store_empty]
  exact Store.kept_empty

/-- A store that is in order is in order after every history. -/
theorem Side.kept_after [LawfulManaged α] (config : Config) {s : Stores} (h : (side.store s).Kept)
    (events : List Event) : (side.store (after config s events)).Kept := by
  induction events using List.reverseRecOn with
  | nil => exact h
  | append_singleton events e ih =>
    rw [after_snoc]
    rcases side.step config (after config s events) e with ⟨-, -, hchange⟩ | ⟨-, heq⟩
    · exact hchange.kept ih
    · rw [heq]
      exact ih

end Scim.Directory
