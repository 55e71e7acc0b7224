import Mathlib.Data.List.Induction
import Scim.Proofs.Store

/-!
# Calls in any order

A store guards itself, whoever calls it and in whatever order. After every sequence of calls it is in
order, provided that an update stores under an id only what carries this id; a refused call has
changed nothing; and a record that was removed comes back by a creation only. Which ids are stored is
told by the calls alone: those whose last accepted creation was not followed by a removal.
-/

namespace Scim.Store

variable {α : Type} [Resource α]

/-- A call that is to change a store. -/
inductive Call (α : Type) where
  | create (r : α)
  | update (id : String) (r : α)
  | delete (id : String)
  | clear

namespace Call

/-- What an update stores under an id carries this id. -/
def IsFair : Call α → Prop
  | .update id r => Resource.id r = some id
  | _ => True

/-- The call leaves nothing of the id behind. -/
def Removes (id : String) : Call α → Prop
  | .delete removed => removed = id
  | .clear => True
  | _ => False

end Call

/-- How a store responds to a call. -/
def answer (s : Store α) : Call α → Response (Store α) Unit
  | .create r => (repository α).create r s
  | .update id r => (repository α).updateById id r s
  | .delete id => (repository α).deleteById id s
  | .clear => ⟨.done (), s.clear, []⟩

/-- The store after a sequence of calls on an empty one. -/
def afterCalls (calls : List (Call α)) : Store α :=
  calls.foldl (fun s c => (s.answer c).state) empty

/-- The call is a creation of the id, and the store accepts it. -/
def Creates (s : Store α) (id : String) (c : Call α) : Prop :=
  ∃ r, c = .create r ∧ Resource.id r = some id ∧ (s.answer c).reply = .done ()

/-- A creation of the id was accepted, and no call has removed it since. -/
def CreatedLast (calls : List (Call α)) (id : String) : Prop :=
  ∃ before c later, calls = before ++ c :: later ∧ (afterCalls before).Creates id c ∧
    ∀ d ∈ later, ¬ d.Removes id

/-- What holds of a store after a sequence of calls, and of the next call. -/
structure Guarded (calls : List (Call α)) : Prop where
  kept : (afterCalls calls).Kept
  refused {c : Call α} {refusal : Refusal} :
    ((afterCalls calls).answer c).reply = .refused refusal →
      ((afterCalls calls).answer c).state = afterCalls calls
  stored_iff (id : String) :
    (∃ r ∈ (afterCalls calls).records, Resource.id r = some id) ↔ CreatedLast calls id
  gone {id : String} (r : α) : ¬ CreatedLast calls id →
    (∃ e : StoreError, ((afterCalls calls).answer (.update id r)).reply = .refused e.refusal ∧
      (e = .notFound (Resource.typeName α) id ∨
        ∃ key, Resource.naturalKey r = some key ∧
          e = .duplicateNaturalKey (Resource.typeName α) key)) ∧
    ∀ x ∈ ((afterCalls calls).answer (.update id r)).state.records, Resource.id x ≠ some id
  created_iff {r : α} {id : String} : Resource.id r = some id →
    (((afterCalls calls).answer (.create r)).reply = .done () ↔
      (∀ x ∈ (afterCalls calls).records, Resource.id x ≠ some id) ∧
      ∀ key, Resource.naturalKey r = some key →
        ((repository α).checkExists none key (afterCalls calls)).reply = .done false)

theorem afterCalls_snoc (calls : List (Call α)) (c : Call α) :
    afterCalls (calls ++ [c]) = ((afterCalls calls).answer c).state :=
  List.foldl_append

/-! ## One call -/

section Responses

omit [Resource α]

variable {s : Store α} {e : Except StoreError (Store α)} {line : LogLine}

theorem respond_done_iff : (s.respond e line).reply = .done () ↔ ∃ t, e = .ok t := by
  cases e with
  | ok t => exact ⟨fun _ => ⟨t, rfl⟩, fun _ => rfl⟩
  | error e => exact ⟨fun h => (by cases h), fun ⟨_, h⟩ => (by cases h)⟩

/-- A write that is refused leaves the store as it was. -/
theorem respond_refused {refusal : Refusal} (h : (s.respond e line).reply = .refused refusal) :
    (s.respond e line).state = s := by
  cases e with
  | ok t => cases h
  | error e => rfl

/-- A write ends with the store that it makes, or with the one that was there. -/
theorem respond_state (P : Store α → Prop) (ok : ∀ t, e = .ok t → P t) (same : P s) :
    P (s.respond e line).state := by
  cases e with
  | ok t => exact ok t rfl
  | error e => exact same

end Responses

theorem answer_refused {s : Store α} {c : Call α} {refusal : Refusal}
    (h : (s.answer c).reply = .refused refusal) : (s.answer c).state = s := by
  cases c with
  | create r => exact respond_refused h
  | update id r => exact respond_refused h
  | delete id => cases h
  | clear => cases h

/-- A fair call keeps a store in order. -/
theorem Kept.answer {s : Store α} (h : s.Kept) {c : Call α} (fair : c.IsFair) :
    (s.answer c).state.Kept := by
  cases c with
  | create r => exact respond_state Kept (fun _ hcreate => h.create hcreate) h
  | update id r =>
    refine respond_state Kept (fun t hupdate => ?_) h
    obtain ⟨hcontains, hkey, rfl⟩ := update_ok_iff.mp hupdate
    cases hget : s.get? id with
    | none =>
      rw [get?_eq_none_iff.mp hget] at hcontains
      cases hcontains
    | some x => exact h.replaceFirst hget fair hkey
  | delete id => exact h.delete id
  | clear => exact kept_empty

theorem containsId_append {s : Store α} {id : String} {r : α} :
    (⟨s.records ++ [r]⟩ : Store α).containsId id = true ↔
      s.containsId id = true ∨ Resource.id r = some id := by
  simp only [containsId, List.any_append, List.any_cons, List.any_nil, Bool.or_false, Bool.or_eq_true,
    hasId_iff]

/-- An overwritten record is found under the id that it was found under before. -/
theorem containsId_replaceFirst {s : Store α} {id other : String} {r : α}
    (hcontains : s.containsId id = true) (fair : Resource.id r = some id) :
    containsId ⟨replaceFirst id r s.records⟩ other = s.containsId other := by
  cases hget : s.get? id with
  | none =>
    rw [get?_eq_none_iff.mp hget] at hcontains
    cases hcontains
  | some x =>
    obtain ⟨front, back, heq, hnew, -⟩ := replaceFirst_of_get? hget r
    have hsame : hasId other r = hasId other x := by
      rw [hasId, hasId, fair, (get?_eq_some hget).2]
    rw [containsId, containsId, hnew, heq, List.any_append, List.any_append, List.any_cons,
      List.any_cons, hsame]

theorem containsId_delete {s : Store α} {id other : String} :
    (s.delete id).containsId other = true ↔ s.containsId other = true ∧ id ≠ other := by
  simp only [containsId, delete, List.any_eq_true, List.mem_filter, Bool.not_eq_true',
    ← Bool.not_eq_true, hasId_iff]
  constructor
  · rintro ⟨r, ⟨hr, hne⟩, hid⟩
    exact ⟨⟨r, hr, hid⟩, fun heq => hne (heq ▸ hid)⟩
  · rintro ⟨⟨r, hr, hid⟩, hne⟩
    refine ⟨r, ⟨hr, fun hid' => hne ?_⟩, hid⟩
    rw [hid] at hid'
    exact (Option.some.inj hid').symm

/-- What a fair call does to the ids that are stored. -/
theorem containsId_answer {s : Store α} {c : Call α} (fair : c.IsFair) {id : String} :
    (s.answer c).state.containsId id = true ↔
      (s.containsId id = true ∧ ¬ c.Removes id) ∨ s.Creates id c := by
  cases c with
  | create r =>
    cases hcreate : s.create r with
    | error e =>
      have hrefused : (s.answer (.create r)).state = s ∧ ¬ s.Creates id (.create r) := by
        refine ⟨?_, ?_⟩
        · simp only [answer, repository, hcreate, respond]
        · rintro ⟨_, -, -, hdone⟩
          obtain ⟨t, ht⟩ := respond_done_iff.mp hdone
          rw [hcreate] at ht
          cases ht
      simp [hrefused, Call.Removes]
    | ok t =>
      have hstate : (s.answer (.create r)).state = t := by
        simp only [answer, repository, hcreate, respond]
      have hcreates : s.Creates id (.create r) ↔ Resource.id r = some id := by
        constructor
        · rintro ⟨_, ⟨⟩, hid, -⟩
          exact hid
        · exact fun hid => ⟨r, rfl, hid, respond_done_iff.mpr ⟨t, hcreate⟩⟩
      obtain ⟨_, -, -, -, rfl⟩ := create_ok_iff.mp hcreate
      rw [hstate, containsId_append, hcreates]
      simp [Call.Removes]
  | update other r =>
    have hcreates : ¬ s.Creates id (.update other r) := by
      rintro ⟨_, ⟨⟩, -, -⟩
    have hsame : (s.answer (.update other r)).state.containsId id = s.containsId id := by
      refine respond_state (fun t => t.containsId id = s.containsId id) (fun t hupdate => ?_) rfl
      obtain ⟨hcontains, -, rfl⟩ := update_ok_iff.mp hupdate
      exact containsId_replaceFirst hcontains fair
    simp [hsame, hcreates, Call.Removes]
  | delete other =>
    have hcreates : ¬ s.Creates id (.delete other) := by
      rintro ⟨_, ⟨⟩, -, -⟩
    have hstate : (s.answer (.delete other)).state = s.delete other := rfl
    rw [hstate, containsId_delete]
    simp [hcreates, Call.Removes]
  | clear =>
    have hcreates : ¬ s.Creates id .clear := by
      rintro ⟨_, ⟨⟩, -, -⟩
    have hstate : (s.answer .clear).state = empty := rfl
    simp [hstate, hcreates, Call.Removes, containsId, empty]

/-! ## Sequences of calls -/

theorem kept_afterCalls {calls : List (Call α)} (fair : ∀ c ∈ calls, c.IsFair) :
    (afterCalls calls).Kept := by
  induction calls using List.reverseRecOn with
  | nil => exact kept_empty
  | append_singleton calls c ih =>
    rw [List.forall_mem_append] at fair
    rw [afterCalls_snoc]
    exact (ih fair.1).answer (fair.2 c (List.mem_singleton_self c))

theorem not_createdLast_nil {id : String} : ¬ CreatedLast ([] : List (Call α)) id := by
  rintro ⟨before, c, later, heq, -, -⟩
  exact List.append_ne_nil_of_right_ne_nil before (List.cons_ne_nil c later) heq.symm

theorem createdLast_snoc {calls : List (Call α)} {c : Call α} {id : String} :
    CreatedLast (calls ++ [c]) id ↔
      (CreatedLast calls id ∧ ¬ c.Removes id) ∨ (afterCalls calls).Creates id c := by
  constructor
  · rintro ⟨before, d, later, heq, hcreates, hlater⟩
    rcases List.eq_nil_or_concat later with rfl | ⟨rest, last, rfl⟩
    · obtain ⟨rfl, hd⟩ := List.append_inj' heq rfl
      cases hd
      exact .inr hcreates
    · rw [List.concat_eq_append] at heq hlater
      rw [← List.cons_append, ← List.append_assoc] at heq
      obtain ⟨rfl, hlast⟩ := List.append_inj' heq rfl
      cases hlast
      rw [List.forall_mem_append] at hlater
      exact .inl ⟨⟨before, d, rest, rfl, hcreates, hlater.1⟩, hlater.2 c (List.mem_singleton_self c)⟩
  · rintro (⟨⟨before, d, later, rfl, hcreates, hlater⟩, hc⟩ | hcreates)
    · refine ⟨before, d, later ++ [c], by simp, hcreates, ?_⟩
      rw [List.forall_mem_append]
      refine ⟨hlater, fun x hx => ?_⟩
      rw [List.mem_singleton.mp hx]
      exact hc
    · exact ⟨calls, c, [], rfl, hcreates, nofun⟩

/-- Which ids are stored is told by the calls. By induction from the last call on. -/
theorem containsId_afterCalls_iff {calls : List (Call α)} (fair : ∀ c ∈ calls, c.IsFair) {id : String} :
    (afterCalls calls).containsId id = true ↔ CreatedLast calls id := by
  induction calls using List.reverseRecOn with
  | nil =>
    have hnone : (afterCalls ([] : List (Call α))).containsId id = false := rfl
    rw [hnone]
    exact iff_of_false Bool.false_ne_true not_createdLast_nil
  | append_singleton calls c ih =>
    rw [List.forall_mem_append] at fair
    rw [afterCalls_snoc, containsId_answer (fair.2 c (List.mem_singleton_self c)), ih fair.1,
      createdLast_snoc]

theorem exists_record_iff {s : Store α} {id : String} :
    (∃ r ∈ s.records, Resource.id r = some id) ↔ s.containsId id = true := by
  simp only [containsId, List.any_eq_true, hasId_iff]

/-- Where nothing is stored under the id, an update is refused for it or for its natural key. -/
theorem update_of_absent {s : Store α} {id : String} (absent : s.containsId id = false) (r : α) :
    ∃ e : StoreError, s.update id r = .error e ∧
      (e = .notFound (Resource.typeName α) id ∨
        ∃ key, Resource.naturalKey r = some key ∧
          e = .duplicateNaturalKey (Resource.typeName α) key) := by
  cases hkey : Resource.naturalKey r with
  | none => exact ⟨_, by simp [update, hkey, absent], .inl rfl⟩
  | some key =>
    cases htaken : s.containsKeyBeside id key with
    | true => exact ⟨_, by simp [update, hkey, htaken, keyTaken], .inr ⟨key, rfl, rfl⟩⟩
    | false => exact ⟨_, by simp [update, hkey, htaken, absent], .inl rfl⟩

theorem answer_create_iff {s : Store α} {r : α} {id : String} (hid : Resource.id r = some id) :
    (s.answer (.create r)).reply = .done () ↔
      (∀ x ∈ s.records, Resource.id x ≠ some id) ∧
      ∀ key, Resource.naturalKey r = some key →
        ((repository α).checkExists none key s).reply = .done false := by
  have hasked (key : String) : ((repository α).checkExists none key s).reply = .done false ↔
      s.containsKey key = false := by
    simp only [repository, exists?, Bool.false_or, Reply.done.injEq]
  have habsent : (∀ x ∈ s.records, Resource.id x ≠ some id) ↔ s.containsId id = false := by
    rw [← Bool.not_eq_true, ← exists_record_iff]
    push Not
    exact Iff.rfl
  refine respond_done_iff.trans ?_
  simp only [create_ok_iff, hid, hasked, habsent, Option.some.injEq]
  constructor
  · rintro ⟨_, _, rfl, hcontains, hkey, -⟩
    exact ⟨hcontains, hkey⟩
  · rintro ⟨hcontains, hkey⟩
    exact ⟨_, id, rfl, hcontains, hkey, rfl⟩

/-- Fair calls leave a store that guards itself. -/
theorem guarded_afterCalls {calls : List (Call α)} (fair : ∀ c ∈ calls, c.IsFair) :
    Guarded calls where
  kept := kept_afterCalls fair
  refused := answer_refused
  stored_iff id := exists_record_iff.trans (containsId_afterCalls_iff fair)
  gone {id} r absent := by
    rw [← containsId_afterCalls_iff fair, Bool.not_eq_true] at absent
    obtain ⟨e, he, hcause⟩ := update_of_absent absent r
    have hanswer : (afterCalls calls).answer (.update id r) =
        ⟨.refused e.refusal, afterCalls calls, []⟩ := by
      simp only [answer, repository, he, respond]
    refine ⟨⟨e, congrArg Response.reply hanswer, hcause⟩, fun x hx hid => ?_⟩
    rw [hanswer] at hx
    rw [exists_record_iff.mp ⟨x, hx, hid⟩] at absent
    cases absent
  created_iff := answer_create_iff

end Scim.Store
