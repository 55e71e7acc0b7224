import Scim.Filter.Token

/-!
# Reading filters

Terms are joined by `and` into conjunctions and these by `or` into a filter, so `and` binds
tighter. Keywords and operators are read in any case. A blank text is the empty filter.
-/

namespace Scim.Filter

/-- The term at the front of the tokens. The operator `pr` takes no value. -/
def readTerm : List Token → Except Flaw (Term × List Token)
  | [] => .error .endsAfterLogicalOperator
  | .quoted v :: _ => .error (.pathExpected v)
  | .word path :: rest =>
    if Text.sameLetters path "not" then .error .negation
    else match rest with
      | .word o :: rest =>
        match Operator.ofWord? o with
        | none => .error (.unknownOperator o)
        | some .present => .ok (⟨path, .present, ""⟩, rest)
        | some op =>
          match rest with
          | .word v :: rest => .ok (⟨path, op, v⟩, rest)
          | .quoted v :: rest => .ok (⟨path, op, v⟩, rest)
          | [] => .error (.valueExpected path op)
      | _ => .error (.operatorExpected path)

theorem length_readTerm {tokens rest : List Token} {t : Term}
    (h : readTerm tokens = .ok (t, rest)) : rest.length < tokens.length := by
  unfold readTerm at h
  split at h
  · simp at h
  · simp at h
  · split at h
    · simp at h
    · split at h
      · split at h
        · simp at h
        · simp only [Except.ok.injEq, Prod.mk.injEq] at h
          obtain ⟨-, rfl⟩ := h
          simp only [List.length_cons]
          omega
        · split at h
          · simp only [Except.ok.injEq, Prod.mk.injEq] at h
            obtain ⟨-, rfl⟩ := h
            simp only [List.length_cons]
            omega
          · simp only [Except.ok.injEq, Prod.mk.injEq] at h
            obtain ⟨-, rfl⟩ := h
            simp only [List.length_cons]
            omega
          · simp at h
      · simp at h

/-- The terms of the first alternative and the alternatives after it. -/
def readAlternatives (tokens : List Token) : Except Flaw (List Term × List Conjunction) :=
  match h : readTerm tokens with
  | .error e => .error e
  | .ok (t, []) => .ok ([t], [])
  | .ok (_, .quoted v :: _) => .error (.logicalOperatorExpected v)
  | .ok (t, .word w :: rest) =>
    have : rest.length < tokens.length := by
      have := length_readTerm h
      simp only [List.length_cons] at this
      omega
    if Text.sameLetters w "and" then
      (readAlternatives rest).map fun (terms, others) => (t :: terms, others)
    else if Text.sameLetters w "or" then
      (readAlternatives rest).map fun (terms, others) => ([t], ⟨terms⟩ :: others)
    else .error (.logicalOperatorExpected w)
termination_by tokens.length

def ofTokens (tokens : List Token) : Except Flaw (List Conjunction) :=
  match tokens with
  | [] => .ok []
  | tokens => (readAlternatives tokens).map fun (terms, others) => ⟨terms⟩ :: others

/-- The alternatives that a text spells. -/
def parse (s : String) : Except Flaw (List Conjunction) :=
  match Token.scan s.toList with
  | .error e => .error e
  | .ok tokens => ofTokens tokens

end Scim.Filter
