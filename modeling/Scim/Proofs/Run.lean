import Scim.Service.Run

/-!
# What a run comes to

The log that a run finds does not steer it. A run is therefore described by its result from a
state: a fault, which leaves the state as it was, or a value together with the state that follows.
The laws below put such descriptions together along the steps of an operation. What the lines of
the log say is not described here.
-/

namespace Scim

namespace Run

variable {σ τ β γ : Type}

/-- How a run from the state `s` ends that leaves this log, by its result: a value and the state that
follows, or a fault that leaves the state as it was. -/
def ending (s : σ) (log : List LogLine) : Except Fault (β × σ) → Except Fault β × Session σ
  | .ok (b, t) => (.ok b, ⟨t, log⟩)
  | .error f => (.error f, ⟨s, log⟩)

/-- The run has this result from the state `s`, whatever was reported before. -/
def ComesTo (run : Run σ β) (s : σ) (e : Except Fault (β × σ)) : Prop :=
  ∀ log, ∃ log', run.run ⟨s, log⟩ = ending s log' e

/-- The run finds a value or a fault in the state `s` and does not change it. -/
def Reads (run : Run σ β) (s : σ) (e : Except Fault β) : Prop :=
  ComesTo run s (e.map fun b => (b, s))

theorem ComesTo.apply_eq {run : Run σ β} {s : σ} {e : Except Fault (β × σ)} (h : ComesTo run s e)
    (log : List LogLine) : ∃ log', run ⟨s, log⟩ = ending s log' e :=
  h log

theorem reads_pure (b : β) (s : σ) : Reads (pure b : Run σ β) s (.ok b) :=
  fun log => ⟨log, rfl⟩

theorem reads_throw (f : Fault) (s : σ) : Reads (throw f : Run σ β) s (.error f) :=
  fun log => ⟨log, rfl⟩

theorem reads_report (level : LogLevel) (text : String) (s : σ) :
    Reads (report level text) s (.ok ()) :=
  fun log => ⟨log ++ [⟨level, text⟩], rfl⟩

theorem reads_reportAll (lines : List LogLine) (s : σ) : Reads (reportAll lines) s (.ok ()) :=
  fun log => ⟨log ++ lines, rfl⟩

theorem reads_ofExcept (e : Except Fault β) (s : σ) : Reads (ofExcept e) s e := by
  cases e with
  | ok b => exact reads_pure b s
  | error f => exact reads_throw f s

theorem reads_ofValidated (e : Except Invalid β) (s : σ) :
    Reads (ofValidated e) s (Fault.ofValidated e) :=
  reads_ofExcept _ s

/-- A run that succeeds hands its value and its state on. -/
theorem ComesTo.bind_ok {x : Run σ β} {f : β → Run σ γ} {s t u : σ} {b : β} {c : γ}
    (hx : ComesTo x s (.ok (b, t))) (hf : ComesTo (f b) t (.ok (c, u))) :
    ComesTo (x >>= f) s (.ok (c, u)) := by
  intro log
  obtain ⟨log₁, h₁⟩ := hx.apply_eq log
  obtain ⟨log₂, h₂⟩ := hf.apply_eq log₁
  refine ⟨log₂, ?_⟩
  simp only [ExceptT.run, bind, ExceptT.bind, ExceptT.mk, StateT.bind, ExceptT.bindCont, h₁,
    ending]
  exact h₂

/-- The steps after a fault are not taken. -/
theorem ComesTo.bind_error {x : Run σ β} {f : β → Run σ γ} {s : σ} {e : Fault}
    (hx : ComesTo x s (.error e)) : ComesTo (x >>= f) s (.error e) := by
  intro log
  obtain ⟨log₁, h₁⟩ := hx.apply_eq log
  refine ⟨log₁, ?_⟩
  simp only [ExceptT.run, bind, ExceptT.bind, ExceptT.mk, StateT.bind, ExceptT.bindCont, h₁,
    ending]
  rfl

/-- A step that only reads, and what follows in the same state. -/
theorem Reads.bind {x : Run σ β} {f : β → Run σ γ} {s : σ} {e : Except Fault β}
    {g : β → Except Fault (γ × σ)} (hx : Reads x s e) (hf : ∀ b, e = .ok b → ComesTo (f b) s (g b)) :
    ComesTo (x >>= f) s (e >>= g) := by
  cases e with
  | error fault => exact hx.bind_error
  | ok b =>
    intro log
    obtain ⟨log₁, h₁⟩ := hx.apply_eq log
    obtain ⟨log₂, h₂⟩ := (hf b rfl).apply_eq log₁
    refine ⟨log₂, ?_⟩
    simp only [ExceptT.run, Bind.bind, ExceptT.bind, ExceptT.mk, StateT.bind, ExceptT.bindCont, h₁,
      ending, Except.map]
    exact h₂

/-- A step that finds a value, and what follows with it. -/
theorem Reads.found {x : Run σ β} {f : β → Run σ γ} {s : σ} {b : β} {e : Except Fault (γ × σ)}
    (hx : Reads x s (.ok b)) (hf : ComesTo (f b) s e) : ComesTo (x >>= f) s e := by
  have hbind := hx.bind (f := f) (g := fun _ => e) fun c hc => by
    cases hc
    exact hf
  exact hbind

/-- Two steps that only read are one. -/
theorem Reads.andThen {x : Run σ β} {f : β → Run σ γ} {s : σ} {e : Except Fault β}
    {g : β → Except Fault γ} (hx : Reads x s e) (hf : ∀ b, e = .ok b → Reads (f b) s (g b)) :
    Reads (x >>= f) s (e >>= g) := by
  have h := hx.bind (g := fun b => (g b).map fun c => (c, s)) hf
  cases e with
  | error fault => exact h
  | ok b => exact h

/-- A write, and then a step that only reads and has the value ready. -/
theorem ComesTo.write {x : Run σ Unit} {y : Run σ β} {s : σ} {e : Except Fault σ} {b : β}
    (hx : ComesTo x s (e.map fun t => ((), t))) (hy : ∀ t, Reads y t (.ok b)) :
    ComesTo (x >>= fun _ => y) s (e >>= fun t => .ok (b, t)) := by
  cases e with
  | error fault => exact hx.bind_error
  | ok t => exact hx.bind_ok (hy t)

/-- The last step makes an answer of the value. -/
theorem ComesTo.map {x : Run σ β} {s : σ} {e : Except Fault (β × σ)} (hx : ComesTo x s e) (f : β → γ) :
    ComesTo (x >>= fun b => pure (f b)) s (e.map fun r => (f r.1, r.2)) := by
  cases e with
  | error fault => exact hx.bind_error
  | ok r => exact hx.bind_ok (reads_pure _ _)

theorem Reads.map {x : Run σ β} {s : σ} {e : Except Fault β} (hx : Reads x s e) (f : β → γ) :
    ComesTo (x >>= fun b => pure (f b)) s (e.map fun b => (f b, s)) := by
  cases e with
  | error fault => exact hx.bind_error
  | ok b => exact hx.bind_ok (reads_pure _ s)

theorem ComesTo.ite {c : Prop} [Decidable c] {x y : Run σ β} {s : σ}
    {e d : Except Fault (β × σ)} (hx : c → ComesTo x s e) (hy : ¬ c → ComesTo y s d) :
    ComesTo (if c then x else y) s (if c then e else d) := by
  by_cases hc : c
  · rw [if_pos hc, if_pos hc]
    exact hx hc
  · rw [if_neg hc, if_neg hc]
    exact hy hc

/-- A run on one part of a larger state has the result that it has on the part alone. -/
theorem ComesTo.onPart {run : Run σ β} {s : τ} {e : Except Fault (β × σ)} (part : τ → σ)
    (put : τ → σ → τ) (h : ComesTo run (part s) e) (put_part : put s (part s) = s) :
    ComesTo (run.onPart part put) s (e.map fun r => (r.1, put s r.2)) := by
  intro log
  obtain ⟨log', h'⟩ := h log
  refine ⟨log', ?_⟩
  cases e with
  | error fault =>
    simp only [ending, Except.map, Run.onPart, ExceptT.run] at h' ⊢
    rw [h']
    simp only [put_part]
  | ok r =>
    simp only [ending, Except.map, Run.onPart, ExceptT.run] at h' ⊢
    rw [h']

end Run

end Scim
