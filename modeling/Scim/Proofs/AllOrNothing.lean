import Scim.Proofs.History

/-!
# All or nothing

A request that fails leaves both stores as they were, whatever they hold and wherever the failure
lies, and so does a request that only reads. A write that succeeds touches one record of one store.
Nothing is assumed of the stores: records may lack an id or share one.
-/

namespace Scim.Directory

/-- Beside the records of one kind and id everything is as before: the store of the other kind, and
the records of other ids with their order. -/
def SameBeside (kind : Kind) (id : String) (s t : Stores) : Prop :=
  match kind with
  | .user => t.users.beside id = s.users.beside id ∧ t.groups = s.groups
  | .group => t.groups.beside id = s.groups.beside id ∧ t.users = s.users

/-- What a request that was answered from `s` may leave in the stores. -/
structure AllOrNothing (o : Occasion) (q : DirectoryRequest) (s : Stores)
    (answer : Except Fault (Answer AnyResource)) (t : Stores) : Prop where
  failed : (∃ f, answer = .error f) → t = s
  read : q.verb.isWrite = false → t = s
  wrote : (∃ a, answer = .ok a) → q.verb.isWrite = true →
    ∃ kind id, q.kind? = some kind ∧ q.subject? o = some id ∧ SameBeside kind id s t

variable {config : Config} {o : Occasion} {s t : Stores} {q : DirectoryRequest}

/-- A request that only reads changes no store. -/
theorem Change.eq_of_read (h : Change config o s q t) (reads : q.verb.isWrite = false) : t = s := by
  cases h with
  | users _ change => rw [change.eq_of_read reads]
  | groups _ change => rw [change.eq_of_read reads]

/-- A request that writes touches one record. -/
theorem Change.sameBeside (h : Change config o s q t) (writes : q.verb.isWrite = true) :
    ∃ kind id, q.kind? = some kind ∧ q.subject? o = some id ∧ SameBeside kind id s t := by
  cases h with
  | users kind change =>
    obtain ⟨id, hid⟩ := change.subject_of_isWrite writes
    rw [hid] at change
    exact ⟨.user, id, kind, hid, change.beside_eq, rfl⟩
  | groups kind change =>
    obtain ⟨id, hid⟩ := change.subject_of_isWrite writes
    rw [hid] at change
    exact ⟨.group, id, kind, hid, change.beside_eq, rfl⟩

/-- Every request is met all or nothing. -/
theorem meet_allOrNothing (config : Config) (o : Occasion) (q : DirectoryRequest) (s : Stores)
    (log : List LogLine) :
    AllOrNothing o q s ((meet repositories config o q).run ⟨s, log⟩).1
      ((meet repositories config o q).run ⟨s, log⟩).2.state := by
  obtain ⟨log', hrun⟩ := comesTo_meet config o q s log
  rw [hrun]
  cases houtcome : outcome config o s q with
  | error f =>
    refine ⟨fun _ => rfl, fun _ => rfl, ?_⟩
    rintro ⟨a, ha⟩
    cases ha
  | ok r =>
    have hchange : Change config o s q r.2 := change_of_outcome houtcome
    refine ⟨?_, hchange.eq_of_read, fun _ => hchange.sameBeside⟩
    rintro ⟨f, hf⟩
    cases hf

end Scim.Directory
