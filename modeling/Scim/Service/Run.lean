import Scim.Repository
import Scim.Service.Config

/-!
# Runs

An operation of a service runs over the state of its repositories and a log. It may fail, and what
was stored and reported before it did stays.
-/

namespace Scim

structure Session (σ : Type) where
  state : σ
  log : List LogLine

abbrev Run (σ : Type) := ExceptT Fault (StateM (Session σ))

namespace Run

variable {σ β : Type}

def report (level : LogLevel) (text : String) : Run σ Unit :=
  modify fun s => { s with log := s.log ++ [⟨level, text⟩] }

def reportAll (lines : List LogLine) : Run σ Unit :=
  modify fun s => { s with log := s.log ++ lines }

/-- Carries a call out, and keeps what it reported. -/
def perform (call : σ → Response σ β) : Run σ (Reply β) := do
  let s ← get
  let r := call s.state
  set (⟨r.state, s.log ++ r.log⟩ : Session σ)
  return r.reply

/-- The value of a step that does not touch the state. -/
def ofExcept (e : Except Fault β) : Run σ β :=
  match e with
  | .ok b => pure b
  | .error f => throw f

def ofValidated (e : Except Invalid β) : Run σ β :=
  ofExcept (Fault.ofValidated e)

/-- The same run on one part of a larger state. -/
def onPart {τ : Type} (part : τ → σ) (put : τ → σ → τ) (run : Run σ β) : Run τ β :=
  fun s =>
    let (outcome, t) := run.run ⟨part s.state, s.log⟩
    (outcome, ⟨put s.state t.state, t.log⟩)

end Run

end Scim
