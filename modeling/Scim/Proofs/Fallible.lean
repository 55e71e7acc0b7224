import Scim.Fault

/-!
# Steps that can fail

A chain of steps ends well exactly when each of them does. These laws take such a chain apart, so
that what an operation has found out before it succeeds can be read off its success.
-/

namespace Scim.Fallible

variable {ε α β : Type}

theorem ok_bind (a : α) (f : α → Except ε β) : (.ok a >>= f) = f a :=
  rfl

theorem error_bind (e : ε) (f : α → Except ε β) : (.error e >>= f) = .error e :=
  rfl

theorem bind_ok_iff {x : Except ε α} {f : α → Except ε β} {b : β} :
    (x >>= f) = .ok b ↔ ∃ a, x = .ok a ∧ f a = .ok b := by
  cases x with
  | error e => exact ⟨fun h => (by cases h), fun ⟨_, h, _⟩ => (by cases h)⟩
  | ok a => exact ⟨fun h => ⟨a, rfl, h⟩, fun ⟨_, h, hf⟩ => Except.ok.inj h ▸ hf⟩

theorem map_ok_iff {x : Except ε α} {f : α → β} {b : β} :
    x.map f = .ok b ↔ ∃ a, x = .ok a ∧ f a = b := by
  cases x with
  | error e => exact ⟨fun h => (by cases h), fun ⟨_, h, _⟩ => (by cases h)⟩
  | ok a =>
    constructor
    · intro h
      exact ⟨a, rfl, Except.ok.inj h⟩
    · rintro ⟨_, h, rfl⟩
      cases h
      rfl

theorem map_map {γ : Type} (x : Except ε α) (f : α → β) (g : β → γ) :
    (x.map f).map g = x.map fun a => g (f a) := by
  cases x with
  | error e => rfl
  | ok a => rfl

theorem map_bind {γ : Type} (x : Except ε α) (f : α → β) (g : β → Except ε γ) :
    (x.map f >>= g) = x >>= fun a => g (f a) := by
  cases x with
  | error e => rfl
  | ok a => rfl

/-- A last step that cannot fail. -/
theorem bind_pure_eq_map (x : Except ε α) (f : α → β) :
    (x >>= fun a => pure (f a)) = x.map f := by
  cases x with
  | error e => rfl
  | ok a => rfl

/-- The failure that a step ends with, if it does not succeed. -/
def failure? : Except ε α → Option ε
  | .ok _ => none
  | .error e => some e

theorem failure?_eq_some_iff {x : Except ε α} {e : ε} : failure? x = some e ↔ x = .error e := by
  cases x with
  | error e' =>
    constructor
    · intro h
      exact congrArg Except.error (Option.some.inj h)
    · rintro ⟨⟩
      rfl
  | ok a => exact ⟨fun h => (by cases h), fun h => (by cases h)⟩

theorem failure?_eq_none_iff {x : Except ε α} : failure? x = none ↔ ∃ a, x = .ok a := by
  cases x with
  | error e => exact ⟨fun h => (by cases h), fun ⟨_, h⟩ => (by cases h)⟩
  | ok a => exact ⟨fun _ => ⟨a, rfl⟩, fun _ => rfl⟩

theorem failure?_map (x : Except ε α) (f : α → β) : failure? (x.map f) = failure? x := by
  cases x with
  | error e => rfl
  | ok a => rfl

/-- Of two steps that do not depend on each other, the first to fail is the failure of both. -/
theorem failure?_both {γ : Type} (x : Except ε α) (y : Except ε β) (f : α → β → γ) :
    failure? (x >>= fun a => y >>= fun b => pure (f a b)) = (failure? x).or (failure? y) := by
  cases x with
  | error e => rfl
  | ok a =>
    cases y with
    | error e => rfl
    | ok b => rfl

/-- Whatever the step fails with is of this sort. -/
def FailsOnly (sort : ε → Prop) (x : Except ε α) : Prop :=
  ∀ e, x = .error e → sort e

theorem failsOnly_ok {sort : ε → Prop} (a : α) : FailsOnly sort (.ok a) :=
  fun _ h => (by cases h)

theorem failsOnly_error {sort : ε → Prop} {e : ε} (he : sort e) :
    FailsOnly sort (.error e : Except ε α) := by
  rintro _ ⟨⟩
  exact he

theorem FailsOnly.map {sort : ε → Prop} {x : Except ε α} (hx : FailsOnly sort x) (f : α → β) :
    FailsOnly sort (x.map f) := by
  cases x with
  | error e => exact failsOnly_error (hx e rfl)
  | ok a => exact failsOnly_ok (f a)

theorem FailsOnly.bind {sort : ε → Prop} {x : Except ε α} (hx : FailsOnly sort x)
    {f : α → Except ε β} (hf : ∀ a, x = .ok a → FailsOnly sort (f a)) : FailsOnly sort (x >>= f) := by
  cases x with
  | error e => exact failsOnly_error (hx e rfl)
  | ok a => exact hf a rfl

/-- To give a failure as a fault changes nothing for a success. -/
theorem faulted_ok_iff {fault : Except ε α → Except Fault α} (ok : ∀ a, fault (.ok a) = .ok a)
    (error : ∀ e, ∃ f, fault (.error e) = .error f) {x : Except ε α} {a : α} :
    fault x = .ok a ↔ x = .ok a := by
  cases x with
  | error e =>
    obtain ⟨f, hf⟩ := error e
    rw [hf]
    exact ⟨fun h => (by cases h), fun h => (by cases h)⟩
  | ok b =>
    rw [ok b]
    exact ⟨fun h => congrArg Except.ok (Except.ok.inj h),
      fun h => congrArg Except.ok (Except.ok.inj h)⟩

theorem ofValidated_ok_iff {x : Except Invalid α} {a : α} :
    Fault.ofValidated x = .ok a ↔ x = .ok a :=
  faulted_ok_iff (fun _ => rfl) fun _ => ⟨_, rfl⟩

theorem ofFiltered_ok_iff {x : Except Filter.Flaw α} {a : α} :
    Fault.ofFiltered x = .ok a ↔ x = .ok a :=
  faulted_ok_iff (fun _ => rfl) fun _ => ⟨_, rfl⟩

end Scim.Fallible
