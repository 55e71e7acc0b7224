import Scim.Log

/-!
# Repositories

What a service of one type of resources needs from the place where they are kept. A repository
stores whole resources and knows nothing of requests; its state is a value that each call takes and
gives back.
-/

namespace Scim

/-- A call that was not carried out: how it is explained, and whether the reason was a key or an id
that is taken, or a record that is not there. -/
structure Refusal where
  reason : String
  isUniqueness : Bool
  isNotFound : Bool
  deriving DecidableEq, Repr

/-- How a call ends, if it ends at all. -/
inductive Reply (β : Type) where
  | done (value : β)
  | refused (refusal : Refusal)
  | stalled

/-- The end of a call, the state after it and what it reported. -/
structure Response (σ β : Type) where
  reply : Reply β
  state : σ
  log : List LogLine

structure Repository (σ α : Type) where
  create : α → σ → Response σ Unit
  getById : String → σ → Response σ (Option α)
  /-- Everything that is stored, in a stable order. -/
  listAll : σ → Response σ (List α)
  /-- Whether a record has the id, if one is given, or the natural key. -/
  checkExists : Option String → String → σ → Response σ Bool
  updateById : String → α → σ → Response σ Unit
  /-- To remove what is not there is no failure. -/
  deleteById : String → σ → Response σ Unit

end Scim
