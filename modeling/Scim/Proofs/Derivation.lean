import Scim.Filter.Grammar
import Scim.Proofs.Lexing

/-!
# Derivations of filters

The grammar of filters over tokens, as trees whose leaves are the tokens as they were written:

    filter      = conjunction *("or" conjunction)
    conjunction = comparison *("and" comparison)
    comparison  = path operator value / path "pr"

Keywords and operators are words in any case, and a path is any word but `not`. A text is a filter
exactly if it is made of the tokens of a derivation, or of none. It then has one derivation only, and
reading it answers the conjunctions of that derivation.
-/

namespace Scim

namespace Text

/-- A text that is the same as one word is not the same as another. -/
theorem sameLetters_of_ne {s a b : String} (h : sameLetters s a = true)
    (hab : sameLetters a b = false) : sameLetters s b = false := by
  simp only [sameLetters, beq_iff_eq] at h
  rw [sameLetters, h]
  exact hab

end Text

namespace Filter

theorem Operator.ofWord?_eq_some_iff {s : String} {op : Operator} :
    ofWord? s = some op ↔ Text.sameLetters s op.word = true := by
  have hsmall (o : Operator) : Text.smallAscii o.word = o.word := by
    cases o <;> decide
  rw [Text.sameLetters, hsmall, beq_iff_eq, ofWord?]
  constructor
  · intro h
    have hword := List.find?_some h
    exact (beq_iff_eq.mp hword).symm
  · intro h
    rw [h]
    cases op <;> decide

namespace Token

/-- What a token stands for. -/
def text : Token → String
  | .word s => s
  | .quoted s => s

end Token

/-! ## Trees -/

/-- A word written in any case. -/
structure Spelled (word : String) where
  text : String
  same : Text.sameLetters text word = true

/-- A word that can stand as a path. -/
structure Path where
  text : String
  plain : Text.sameLetters text "not" = false

inductive Comparison where
  | compared (path : Path) (op : Operator) (valued : op ≠ .present) (name : Spelled op.word)
      (value : Token)
  | present (path : Path) (name : Spelled Operator.present.word)

namespace Comparison

def tokens : Comparison → List Token
  | .compared path _ _ name value => [.word path.text, .word name.text, value]
  | .present path name => [.word path.text, .word name.text]

/-- The term that a comparison means. -/
def term : Comparison → Term
  | .compared path op _ _ value => ⟨path.text, op, value.text⟩
  | .present path _ => ⟨path.text, .present, ""⟩

end Comparison

/-- One part or more, with a keyword between each two. -/
inductive Joined (keyword : String) (α : Type) where
  | one (part : α)
  | more (part : α) (link : Spelled keyword) (rest : Joined keyword α)

namespace Joined

variable {keyword : String} {α : Type}

def parts : Joined keyword α → List α
  | .one part => [part]
  | .more part _ rest => part :: rest.parts

def tokens (partTokens : α → List Token) : Joined keyword α → List Token
  | .one part => partTokens part
  | .more part link rest => partTokens part ++ .word link.text :: rest.tokens partTokens

theorem parts_ne_nil (d : Joined keyword α) : d.parts ≠ [] := by
  cases d with
  | one part => exact List.cons_ne_nil part []
  | more part link rest => exact List.cons_ne_nil part rest.parts

end Joined

/-- Comparisons joined by `and`. -/
abbrev ConjunctionTree := Joined "and" Comparison

namespace ConjunctionTree

def leaves (d : ConjunctionTree) : List Token :=
  d.tokens Comparison.tokens

def terms (d : ConjunctionTree) : List Term :=
  d.parts.map Comparison.term

end ConjunctionTree

/-- Conjunctions joined by `or`. -/
abbrev AlternativesTree := Joined "or" ConjunctionTree

namespace AlternativesTree

def leaves (d : AlternativesTree) : List Token :=
  d.tokens ConjunctionTree.leaves

def conjunctions (d : AlternativesTree) : List Conjunction :=
  d.parts.map fun c => ⟨c.terms⟩

end AlternativesTree

/-- The derivation of a whole filter. -/
inductive Derivation where
  | blank
  | alternatives (tree : AlternativesTree)

namespace Derivation

def leaves : Derivation → List Token
  | .blank => []
  | .alternatives tree => tree.leaves

def conjunctions : Derivation → List Conjunction
  | .blank => []
  | .alternatives tree => tree.conjunctions

end Derivation

/-! ## Reading a term -/

theorem readTerm_tokens (c : Comparison) (rest : List Token) :
    readTerm (c.tokens ++ rest) = .ok (c.term, rest) := by
  cases c with
  | compared path op valued name value =>
    have hop := Operator.ofWord?_eq_some_iff.mpr name.same
    simp only [Comparison.tokens, List.cons_append, List.nil_append, readTerm, path.plain,
      Bool.false_eq_true, if_false, hop]
    cases value with
    | word v =>
      cases op with
      | present => exact absurd rfl valued
      | _ => rfl
    | quoted v =>
      cases op with
      | present => exact absurd rfl valued
      | _ => rfl
  | present path name =>
    have hop := Operator.ofWord?_eq_some_iff.mpr name.same
    simp only [Comparison.tokens, List.cons_append, List.nil_append, readTerm, path.plain,
      Bool.false_eq_true, if_false, hop]
    rfl

theorem comparison_of_readTerm {tokens rest : List Token} {t : Term}
    (h : readTerm tokens = .ok (t, rest)) :
    ∃ c : Comparison, c.term = t ∧ tokens = c.tokens ++ rest := by
  unfold readTerm at h
  split at h
  · cases h
  · cases h
  · next path more =>
    split at h
    · cases h
    · next hpath =>
      rw [Bool.not_eq_true] at hpath
      split at h
      · next o more =>
        split at h
        · cases h
        · next hop =>
          cases h
          exact ⟨.present ⟨path, hpath⟩ ⟨o, Operator.ofWord?_eq_some_iff.mp hop⟩, rfl, rfl⟩
        · next op hvalued hop =>
          have hname := Operator.ofWord?_eq_some_iff.mp hop
          split at h
          · next v more =>
            cases h
            exact ⟨.compared ⟨path, hpath⟩ op hvalued ⟨o, hname⟩ (.word v), rfl, rfl⟩
          · next v more =>
            cases h
            exact ⟨.compared ⟨path, hpath⟩ op hvalued ⟨o, hname⟩ (.quoted v), rfl, rfl⟩
          · cases h
      · cases h

/-! ## Reading the alternatives -/

theorem readAlternatives_last {tokens : List Token} {t : Term}
    (h : readTerm tokens = .ok (t, [])) : readAlternatives tokens = .ok ([t], []) := by
  rw [readAlternatives]
  split
  · next heq => rw [h] at heq; cases heq
  · next heq => rw [h] at heq; cases heq; rfl
  · next heq => rw [h] at heq; cases heq
  · next heq => rw [h] at heq; cases heq

theorem readAlternatives_word {tokens rest : List Token} {t : Term} {w : String}
    (h : readTerm tokens = .ok (t, .word w :: rest)) :
    readAlternatives tokens =
      if Text.sameLetters w "and" then (readAlternatives rest).map fun r => (t :: r.1, r.2)
      else if Text.sameLetters w "or" then
        (readAlternatives rest).map fun r => ([t], ⟨r.1⟩ :: r.2)
      else .error (.logicalOperatorExpected w) := by
  rw [readAlternatives]
  split
  · next heq => rw [h] at heq; cases heq
  · next heq => rw [h] at heq; cases heq
  · next heq => rw [h] at heq; cases heq
  · next heq => rw [h] at heq; cases heq; rfl

theorem readAlternatives_and {tokens rest : List Token} {t : Term} (link : Spelled "and")
    (h : readTerm tokens = .ok (t, .word link.text :: rest)) :
    readAlternatives tokens = (readAlternatives rest).map fun r => (t :: r.1, r.2) := by
  rw [readAlternatives_word h, if_pos link.same]

theorem readAlternatives_or {tokens rest : List Token} {t : Term} (link : Spelled "or")
    (h : readTerm tokens = .ok (t, .word link.text :: rest)) :
    readAlternatives tokens = (readAlternatives rest).map fun r => ([t], ⟨r.1⟩ :: r.2) := by
  have hand : Text.sameLetters link.text "and" = false :=
    Text.sameLetters_of_ne link.same (by decide)
  rw [readAlternatives_word h, hand, if_neg Bool.false_ne_true, if_pos link.same]

/-- A conjunction at the end of the tokens. -/
theorem readAlternatives_conjunction (d : ConjunctionTree) :
    readAlternatives d.leaves = .ok (d.terms, []) := by
  induction d with
  | one c =>
    have hread := readTerm_tokens c []
    rw [List.append_nil] at hread
    exact readAlternatives_last hread
  | more c link rest ih =>
    rw [ConjunctionTree.leaves, Joined.tokens, readAlternatives_and link (readTerm_tokens c _)]
    rw [ConjunctionTree.leaves] at ih
    rw [ih]
    rfl

/-- A conjunction, an `or` and what follows it. -/
theorem readAlternatives_conjunction_or (d : ConjunctionTree) (link : Spelled "or")
    (following : List Token) :
    readAlternatives (d.leaves ++ .word link.text :: following) =
      (readAlternatives following).map fun r => (d.terms, ⟨r.1⟩ :: r.2) := by
  induction d with
  | one c => exact readAlternatives_or link (readTerm_tokens c _)
  | more c join rest ih =>
    rw [ConjunctionTree.leaves, Joined.tokens, List.append_assoc, List.cons_append,
      readAlternatives_and join (readTerm_tokens c _)]
    rw [ConjunctionTree.leaves] at ih
    rw [ih, Fallible.map_map]
    rfl

theorem readAlternatives_leaves (d : AlternativesTree) :
    ((readAlternatives d.leaves).map fun r => (⟨r.1⟩ :: r.2 : List Conjunction)) =
      .ok d.conjunctions := by
  induction d with
  | one c =>
    have hread : readAlternatives (AlternativesTree.leaves (.one c)) = .ok (c.terms, []) :=
      readAlternatives_conjunction c
    rw [hread]
    rfl
  | more c link rest ih =>
    have hread : readAlternatives (AlternativesTree.leaves (.more c link rest)) =
        (readAlternatives (AlternativesTree.leaves rest)).map fun r => (c.terms, ⟨r.1⟩ :: r.2) :=
      readAlternatives_conjunction_or c link (AlternativesTree.leaves rest)
    obtain ⟨r, hr, hcs⟩ := Fallible.map_ok_iff.mp ih
    rw [hread, hr]
    exact congrArg (fun cs => Except.ok (Conjunction.mk c.terms :: cs)) hcs

/-- The tree of a filter that starts with a comparison and an `and`. -/
def AlternativesTree.prepend (c : Comparison) (link : Spelled "and") :
    AlternativesTree → AlternativesTree
  | .one d => .one (.more c link d)
  | .more d join rest => .more (.more c link d) join rest

theorem AlternativesTree.leaves_prepend (c : Comparison) (link : Spelled "and")
    (d : AlternativesTree) :
    (d.prepend c link).leaves = c.tokens ++ .word link.text :: d.leaves := by
  cases d with
  | one d => rfl
  | more d join rest =>
    change (c.tokens ++ .word link.text :: d.leaves) ++ _ = _
    rw [List.append_assoc, List.cons_append]
    rfl

theorem AlternativesTree.conjunctions_prepend {c : Comparison} {link : Spelled "and"}
    {d : AlternativesTree} {terms : List Term} {others : List Conjunction}
    (h : d.conjunctions = ⟨terms⟩ :: others) :
    (d.prepend c link).conjunctions = ⟨c.term :: terms⟩ :: others := by
  cases d with
  | one d =>
    cases h
    rfl
  | more d join rest =>
    cases h
    rfl

theorem tree_of_readAlternatives {tokens : List Token} {terms : List Term}
    {others : List Conjunction} (h : readAlternatives tokens = .ok (terms, others)) :
    ∃ d : AlternativesTree, d.leaves = tokens ∧ d.conjunctions = ⟨terms⟩ :: others := by
  fun_induction readAlternatives tokens generalizing terms others with
  | case1 => cases h
  | case2 tokens t hterm =>
    cases h
    obtain ⟨c, rfl, hc⟩ := comparison_of_readTerm hterm
    rw [List.append_nil] at hc
    exact ⟨.one (.one c), hc.symm, rfl⟩
  | case3 => cases h
  | case4 tokens t w rest hterm _ hand ih =>
    obtain ⟨⟨moreTerms, more⟩, hmore, heq⟩ := Fallible.map_ok_iff.mp h
    cases heq
    obtain ⟨c, rfl, rfl⟩ := comparison_of_readTerm hterm
    obtain ⟨d, rfl, hd⟩ := ih hmore
    exact ⟨d.prepend c ⟨w, hand⟩, d.leaves_prepend c ⟨w, hand⟩,
      AlternativesTree.conjunctions_prepend hd⟩
  | case5 tokens t w rest hterm _ _ hor ih =>
    obtain ⟨⟨moreTerms, more⟩, hmore, heq⟩ := Fallible.map_ok_iff.mp h
    cases heq
    obtain ⟨c, rfl, rfl⟩ := comparison_of_readTerm hterm
    obtain ⟨d, rfl, hd⟩ := ih hmore
    exact ⟨.more (.one c) ⟨w, hor⟩ d, rfl, congrArg (Conjunction.mk [c.term] :: ·) hd⟩
  | case6 => cases h

theorem AlternativesTree.leaves_ne_nil (d : AlternativesTree) : d.leaves ≠ [] := by
  intro h
  have hread := readAlternatives_leaves d
  rw [h, readAlternatives] at hread
  cases hread

/-- Tokens are read as a filter exactly if they are the leaves of a derivation. -/
theorem ofTokens_ok_iff {tokens : List Token} {cs : List Conjunction} :
    ofTokens tokens = .ok cs ↔ ∃ d : Derivation, d.leaves = tokens ∧ d.conjunctions = cs := by
  constructor
  · intro h
    cases tokens with
    | nil =>
      cases h
      exact ⟨.blank, rfl, rfl⟩
    | cons token tokens =>
      obtain ⟨⟨terms, others⟩, hread, rfl⟩ := Fallible.map_ok_iff.mp h
      obtain ⟨tree, hleaves, hcs⟩ := tree_of_readAlternatives hread
      exact ⟨.alternatives tree, hleaves, hcs⟩
  · rintro ⟨d, rfl, rfl⟩
    cases d with
    | blank => rfl
    | alternatives tree =>
      have hread := readAlternatives_leaves tree
      rw [Derivation.leaves]
      cases hleaves : AlternativesTree.leaves tree with
      | nil => exact absurd hleaves (AlternativesTree.leaves_ne_nil tree)
      | cons token tokens =>
        rw [hleaves] at hread
        exact hread

/-! ## One derivation only -/

theorem Spelled.eq_of_text {word : String} {a b : Spelled word} (h : a.text = b.text) : a = b := by
  cases a
  cases b
  cases h
  rfl

theorem Path.eq_of_text {a b : Path} (h : a.text = b.text) : a = b := by
  cases a
  cases b
  cases h
  rfl

/-- A word names one operator. -/
theorem Operator.eq_of_spelled {op other : Operator} (a : Spelled op.word) (b : Spelled other.word)
    (h : a.text = b.text) : op = other := by
  have ha := Operator.ofWord?_eq_some_iff.mpr a.same
  have hb := Operator.ofWord?_eq_some_iff.mpr b.same
  rw [h, hb] at ha
  exact (Option.some.inj ha).symm

/-- Where a comparison ends can be told from its tokens alone. -/
theorem Comparison.eq_of_tokens {c d : Comparison} {rest following : List Token}
    (h : c.tokens ++ rest = d.tokens ++ following) : c = d ∧ rest = following := by
  cases c with
  | compared path op valued name value =>
    cases d with
    | compared path' op' valued' name' value' =>
      simp only [tokens, List.cons_append, List.nil_append, List.cons.injEq,
        Token.word.injEq] at h
      obtain ⟨hpath, hname, hvalue, hrest⟩ := h
      cases Operator.eq_of_spelled name name' hname
      rw [Path.eq_of_text hpath, Spelled.eq_of_text hname, hvalue]
      exact ⟨rfl, hrest⟩
    | present path' name' =>
      simp only [tokens, List.cons_append, List.nil_append, List.cons.injEq,
        Token.word.injEq] at h
      exact absurd (Operator.eq_of_spelled name name' h.2.1) valued
  | present path name =>
    cases d with
    | compared path' op' valued' name' value' =>
      simp only [tokens, List.cons_append, List.nil_append, List.cons.injEq,
        Token.word.injEq] at h
      exact absurd (Operator.eq_of_spelled name name' h.2.1).symm valued'
    | present path' name' =>
      simp only [tokens, List.cons_append, List.nil_append, List.cons.injEq,
        Token.word.injEq] at h
      rw [Path.eq_of_text h.1, Spelled.eq_of_text h.2.1]
      exact ⟨rfl, h.2.2⟩

/-- The tokens go on with a keyword. -/
def GoesOn (keyword : String) (ts : List Token) : Prop :=
  ∃ link : Spelled keyword, ∃ rest, ts = .word link.text :: rest

/-- Where joined parts end can be told from their tokens and from what follows, if that holds of each
part: the keyword does not follow the last one. -/
theorem Joined.eq_of_tokens {keyword : String} {α : Type} {partTokens : α → List Token}
    (ends : List Token → Prop)
    (hpart : ∀ {a b : α} {r s : List Token}, ends r → ends s →
      partTokens a ++ r = partTokens b ++ s → a = b ∧ r = s)
    (hlink : ∀ (link : Spelled keyword) (ts : List Token), ends (.word link.text :: ts))
    {d e : Joined keyword α} {r s : List Token} (hr : ends r ∧ ¬ GoesOn keyword r)
    (hs : ends s ∧ ¬ GoesOn keyword s)
    (h : d.tokens partTokens ++ r = e.tokens partTokens ++ s) : d = e ∧ r = s := by
  induction d generalizing e with
  | one a =>
    cases e with
    | one b =>
      obtain ⟨rfl, rfl⟩ := hpart hr.1 hs.1 h
      exact ⟨rfl, rfl⟩
    | more b link rest =>
      rw [tokens, tokens, List.append_assoc] at h
      obtain ⟨-, heq⟩ := hpart hr.1 (hlink link _) h
      exact absurd ⟨link, _, heq⟩ hr.2
  | more a link rest ih =>
    cases e with
    | one b =>
      rw [tokens, tokens, List.append_assoc] at h
      obtain ⟨-, heq⟩ := hpart (hlink link _) hs.1 h
      exact absurd ⟨link, _, heq.symm⟩ hs.2
    | more b link' rest' =>
      rw [tokens, tokens, List.append_assoc, List.append_assoc] at h
      obtain ⟨rfl, heq⟩ := hpart (hlink link _) (hlink link' _) h
      rw [List.cons.injEq, Token.word.injEq] at heq
      obtain ⟨rfl, rfl⟩ := ih heq.2
      rw [Spelled.eq_of_text heq.1]
      exact ⟨rfl, rfl⟩

theorem not_goesOn_nil (keyword : String) : ¬ GoesOn keyword [] := by
  rintro ⟨link, rest, h⟩
  cases h

/-- An `or` is no `and`. -/
theorem not_goesOn_and_of_or (link : Spelled "or") (ts : List Token) :
    ¬ GoesOn "and" (.word link.text :: ts) := by
  rintro ⟨other, rest, h⟩
  rw [List.cons.injEq, Token.word.injEq] at h
  have hdiffers : Text.sameLetters link.text "and" = false :=
    Text.sameLetters_of_ne link.same (by decide)
  rw [h.1, other.same] at hdiffers
  cases hdiffers

theorem ConjunctionTree.eq_of_leaves {d e : ConjunctionTree} {r s : List Token}
    (hr : ¬ GoesOn "and" r) (hs : ¬ GoesOn "and" s) (h : d.leaves ++ r = e.leaves ++ s) :
    d = e ∧ r = s :=
  Joined.eq_of_tokens (fun _ => True) (fun _ _ => Comparison.eq_of_tokens)
    (fun _ _ => trivial) ⟨trivial, hr⟩ ⟨trivial, hs⟩ h

theorem AlternativesTree.eq_of_leaves {d e : AlternativesTree} (h : d.leaves = e.leaves) :
    d = e := by
  have hnil : ¬ GoesOn "and" [] ∧ ¬ GoesOn "or" [] := ⟨not_goesOn_nil "and", not_goesOn_nil "or"⟩
  refine (Joined.eq_of_tokens (fun ts => ¬ GoesOn "and" ts)
    ConjunctionTree.eq_of_leaves not_goesOn_and_of_or hnil hnil ?_).1
  exact congrArg (· ++ []) h

theorem Derivation.eq_of_leaves {d e : Derivation} (h : d.leaves = e.leaves) : d = e := by
  cases d with
  | blank =>
    cases e with
    | blank => rfl
    | alternatives tree => exact absurd h.symm (AlternativesTree.leaves_ne_nil tree)
  | alternatives tree =>
    cases e with
    | blank => exact absurd h (AlternativesTree.leaves_ne_nil tree)
    | alternatives other => rw [AlternativesTree.eq_of_leaves h]

/-! ## Whole texts -/

/-- The text is made of the tokens of the derivation. -/
def Derives (s : String) (d : Derivation) : Prop :=
  Lexes s.toList d.leaves

theorem parse_ok_iff {s : String} {cs : List Conjunction} :
    parse s = .ok cs ↔ ∃ d, Derives s d ∧ d.conjunctions = cs := by
  rw [parse]
  constructor
  · intro h
    split at h
    · cases h
    · next ts hscan =>
      obtain ⟨d, rfl, hcs⟩ := ofTokens_ok_iff.mp h
      exact ⟨d, Token.scan_ok_iff.mp hscan, hcs⟩
  · rintro ⟨d, hd, hcs⟩
    rw [Token.scan_ok_iff.mpr hd]
    exact ofTokens_ok_iff.mpr ⟨d, rfl, hcs⟩

theorem Derives.unique {s : String} {d e : Derivation} (hd : Derives s d) (he : Derives s e) :
    d = e := by
  have hd' := Token.scan_ok_iff.mpr hd
  rw [Token.scan_ok_iff.mpr he] at hd'
  exact Derivation.eq_of_leaves (Except.ok.inj hd').symm

theorem Derivation.terms_ne_nil {d : Derivation} {c : Conjunction} (h : c ∈ d.conjunctions) :
    c.terms ≠ [] := by
  cases d with
  | blank => cases h
  | alternatives tree =>
    obtain ⟨part, -, rfl⟩ := List.mem_map.mp h
    intro hnil
    exact Joined.parts_ne_nil part (List.map_eq_nil_iff.mp hnil)

theorem derives_blank_iff {s : String} : Derives s .blank ↔ Text.isBlank s = true :=
  lexes_nil_iff

theorem Derivation.conjunctions_eq_nil_iff {d : Derivation} :
    d.conjunctions = [] ↔ d = .blank := by
  cases d with
  | blank => exact iff_of_true rfl rfl
  | alternatives tree =>
    refine iff_of_false (fun h => ?_) (fun h => (by cases h))
    exact Joined.parts_ne_nil tree (List.map_eq_nil_iff.mp h)

/-- The texts that are read as filters are those that have a derivation, which is the only one. What
is read are its conjunctions, none of them without terms; there are none exactly for a blank text.
Every other text is refused as an invalid filter. -/
theorem parse_iff_derives (s : String) :
    (∀ cs, Fault.ofFiltered (parse s) = .ok cs ↔ ∃ d, Derives s d ∧ d.conjunctions = cs) ∧
    (∀ d e, Derives s d → Derives s e → d = e) ∧
    (∀ d, Derives s d → ∀ c ∈ d.conjunctions, c.terms ≠ []) ∧
    (Fault.ofFiltered (parse s) = .ok [] ↔ Text.isBlank s = true) ∧
    ((¬ ∃ d, Derives s d) → ∃ flaw, Fault.ofFiltered (parse s) = .error (.invalidFilter flaw)) := by
  have hread (cs : List Conjunction) :
      Fault.ofFiltered (parse s) = .ok cs ↔ ∃ d, Derives s d ∧ d.conjunctions = cs := by
    rw [Fallible.ofFiltered_ok_iff, parse_ok_iff]
  refine ⟨hread, fun d e => Derives.unique, fun d _ c => Derivation.terms_ne_nil, ?_, ?_⟩
  · rw [hread, ← derives_blank_iff]
    constructor
    · rintro ⟨d, hd, hnil⟩
      rw [Derivation.conjunctions_eq_nil_iff.mp hnil] at hd
      exact hd
    · intro h
      exact ⟨.blank, h, rfl⟩
  · intro hnone
    cases hparse : parse s with
    | error flaw => exact ⟨flaw, rfl⟩
    | ok cs =>
      obtain ⟨d, hd, -⟩ := parse_ok_iff.mp hparse
      exact absurd ⟨d, hd⟩ hnone

end Filter

end Scim
