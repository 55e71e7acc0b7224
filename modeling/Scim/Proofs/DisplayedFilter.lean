import Mathlib.Algebra.Ring.Int.Defs
import Scim.Proofs.WrittenFilter

/-!
# Displayed filters

A query reports the alternatives of its filter as one text. A value stands there between double
quotes as it is, and after `pr` as after any other operator, so that the text does not always mean
the alternatives that it shows. It is read back as these exactly if no value holds a double quote or
a backslash and no term uses `pr`.

That nothing else is read back by accident is a matter of counting. The excess of a text is the count
of its double quotes less that of its backslashes. A term is shown with the two quotes around its
value and with what its value holds. The tokens that it can be read from make up for that only with a
literal, since a word has no quotes, and only with a literal without escapes: each costs a backslash.
-/

namespace Scim.Filter

/-- The value can stand between quotes as it is, and belongs there. -/
structure Term.IsPlain (t : Term) : Prop where
  valued : t.operator ≠ .present
  quote : '"' ∉ t.value.toList
  backslash : '\\' ∉ t.value.toList

theorem Term.toList_display (t : Term) : t.display.toList = t.path.toList ++
    ' ' :: (t.operator.word.toList ++ ' ' :: ('"' :: t.value.toList ++ ['"'])) := by
  simp [display, toString]

/-! ## Plain values are read back -/

/-- The text adds these tokens to those of whatever follows it. -/
def Leads (text : List Char) (ts : List Token) : Prop :=
  ∀ cs us, Lexes cs us → Lexes (text ++ cs) (ts ++ us)

theorem literalBody_plain {value : List Char} (quote : '"' ∉ value) (backslash : '\\' ∉ value) :
    LiteralBody value value := by
  induction value with
  | nil => exact .nil
  | cons c rest ih =>
    rw [List.mem_cons, not_or] at quote backslash
    exact .plain (Ne.symm quote.1) (Ne.symm backslash.1) (ih quote.2 backslash.2)

/-- A word with a blank after it. -/
theorem leads_word {s : String} (word : IsWord s) {text : List Char} {ts : List Token}
    (rest : Leads text ts) : Leads (s.toList ++ ' ' :: text) (.word s :: ts) := by
  intro cs us hlexes
  rw [List.append_assoc]
  refine lexes_chars (t := .word s) word (fun c hc => ?_) (.space (by decide) (rest cs us hlexes))
  cases hc
  decide

theorem leads_literal {value : String} (quote : '"' ∉ value.toList)
    (backslash : '\\' ∉ value.toList) :
    Leads ('"' :: value.toList ++ ['"']) [.quoted value] := by
  intro cs us hlexes
  have hliteral := Lexes.literal (literalBody_plain quote backslash) hlexes
  rw [String.ofList_toList] at hliteral
  rw [List.append_assoc]
  exact hliteral

namespace Term

variable {t : Term}

def shownTokens (t : Term) : List Token :=
  [.word t.path, .word t.operator.word, .quoted t.value]

theorem IsPlain.writes (plain : t.IsPlain) : WritesTerm t t.shownTokens :=
  .quoted plain.valued (Text.sameLetters_refl _)

theorem IsPlain.leads (plain : t.IsPlain) (word : IsWord t.path) :
    Leads t.display.toList t.shownTokens := by
  have hname : IsWord t.operator.word := Operator.isWord_of_sameLetters (Text.sameLetters_refl _)
  have hleads := leads_word word (leads_word hname (leads_literal plain.quote plain.backslash))
  rw [toList_display]
  exact hleads

end Term

/-- Parts that are written one by one are written together, with a keyword between each two. -/
theorem leads_joined (keyword separator : String) (word : IsWord keyword)
    (spaced : separator.toList = ' ' :: (keyword.toList ++ [' '])) {α : Type}
    {Writes : α → List Token → Prop} {shown : α → String} {parts : List α} (nonempty : parts ≠ [])
    (hpart : ∀ a ∈ parts, ∃ ts, Writes a ts ∧ Leads (shown a).toList ts) :
    ∃ ts, WritesJoined keyword Writes parts ts ∧
      Leads (separator.intercalate (parts.map shown)).toList ts := by
  induction parts with
  | nil => exact absurd rfl nonempty
  | cons a others ih =>
    obtain ⟨ts, hwrites, hleads⟩ := hpart a List.mem_cons_self
    cases others with
    | nil => exact ⟨ts, .one hwrites, by simpa using hleads⟩
    | cons b others =>
      obtain ⟨us, hothers, hrest⟩ := ih (List.cons_ne_nil b others)
        fun c hc => hpart c (List.mem_cons_of_mem a hc)
      refine ⟨_, .more hwrites (Text.sameLetters_refl keyword) hothers, fun cs vs hlexes => ?_⟩
      have hlink := leads_word word hrest cs vs hlexes
      have hall := hleads _ _ (Lexes.space (c := ' ') (by decide) hlink)
      simpa [String.toList_intercalate, List.intercalate_cons_cons, spaced] using hall

theorem Conjunction.leads_display {c : Conjunction} (filled : c.terms ≠ [])
    (words : ∀ t ∈ c.terms, IsWord t.path) (plain : ∀ t ∈ c.terms, t.IsPlain) :
    ∃ ts, WritesConjunction c ts ∧ Leads c.display.toList ts :=
  leads_joined "and" " and " (by decide) rfl filled fun t ht =>
    ⟨t.shownTokens, (plain t ht).writes, (plain t ht).leads (words t ht)⟩

theorem leads_display {cs : List Conjunction} (nonempty : cs ≠ [])
    (filled : ∀ c ∈ cs, c.terms ≠ []) (words : ∀ c ∈ cs, ∀ t ∈ c.terms, IsWord t.path)
    (plain : ∀ c ∈ cs, ∀ t ∈ c.terms, t.IsPlain) :
    ∃ ts, WritesFilter cs ts ∧ Leads (display cs).toList ts := by
  obtain ⟨ts, hjoined, hleads⟩ := leads_joined "or" " or " (by decide) rfl nonempty fun c hc =>
    Conjunction.leads_display (filled c hc) (words c hc) (plain c hc)
  exact ⟨ts, .alternatives hjoined, hleads⟩

/-! ## The excess of double quotes -/

/-- The double quotes of a text less its backslashes. -/
def excess (cs : List Char) : Int :=
  (cs.count '"' : Int) - cs.count '\\'

theorem excess_append (cs ds : List Char) : excess (cs ++ ds) = excess cs + excess ds := by
  simp only [excess, List.count_append]
  omega

/-- Of a word only backslashes count, and of a literal two quotes and the backslashes it needs. -/
def Token.excess : Token → Int
  | .word s => -(s.toList.count '\\' : Int)
  | .quoted s => 2 - 2 * (s.toList.count '\\' : Int)

def tokensExcess (ts : List Token) : Int :=
  (ts.map Token.excess).sum

@[simp] theorem tokensExcess_nil : tokensExcess [] = 0 :=
  rfl

@[simp] theorem tokensExcess_cons (t : Token) (ts : List Token) :
    tokensExcess (t :: ts) = t.excess + tokensExcess ts := by
  simp [tokensExcess]

@[simp] theorem tokensExcess_append (ts us : List Token) :
    tokensExcess (ts ++ us) = tokensExcess ts + tokensExcess us := by
  simp [tokensExcess]

/-- A literal spells a double quote with a backslash before it, and a backslash with another. -/
theorem LiteralBody.counts {body value : List Char} (h : LiteralBody body value) :
    body.count '"' = value.count '"' ∧
      2 * value.count '\\' + value.count '"' ≤ body.count '\\' := by
  induction h with
  | nil => exact ⟨rfl, Nat.le_refl _⟩
  | plain quote backslash _ ih =>
    simp only [List.count_cons_of_ne quote, List.count_cons_of_ne backslash]
    exact ih
  | @escaped c body value _ ih =>
    by_cases hquote : c = '"'
    · subst hquote
      simp
      omega
    · by_cases hbackslash : c = '\\'
      · subst hbackslash
        simp
        omega
      · simp [List.count_cons_of_ne hquote, List.count_cons_of_ne hbackslash]
        omega

theorem excess_word {w : List Char} (inside : ∀ c ∈ w, isWordChar c = true) :
    excess w = -(w.count '\\' : Int) := by
  have hquote : w.count '"' = 0 := by
    rw [List.count_eq_zero]
    intro hmem
    exact absurd (inside '"' hmem) (by decide)
  simp [excess, hquote]

theorem excess_space_cons {c : Char} (blank : Text.isSpace c = true) (cs : List Char) :
    excess (c :: cs) = excess cs := by
  have hquote : c ≠ '"' := by
    rintro rfl
    exact absurd blank (by decide)
  have hbackslash : c ≠ '\\' := by
    rintro rfl
    exact absurd blank (by decide)
  rw [excess, excess, List.count_cons_of_ne hquote, List.count_cons_of_ne hbackslash]

theorem excess_quote_cons (cs : List Char) : excess ('"' :: cs) = 1 + excess cs :=
  excess_append ['"'] cs

theorem LiteralBody.excess_le {body value : List Char} (h : LiteralBody body value) :
    excess ('"' :: body ++ ['"']) ≤ 2 - 2 * (value.count '\\' : Int) := by
  obtain ⟨hquotes, hbackslashes⟩ := h.counts
  rw [List.cons_append, excess_quote_cons, excess_append, excess_quote_cons, excess, hquotes]
  have hnil : excess [] = 0 := rfl
  omega

/-- No text exceeds its tokens. -/
theorem Lexes.excess_le {cs : List Char} {ts : List Token} (h : Lexes cs ts) :
    excess cs ≤ tokensExcess ts := by
  induction h with
  | nil => exact Int.le_refl 0
  | @space c cs ts blank _ ih =>
    rw [excess_space_cons blank]
    exact ih
  | @literal body value cs ts spelled _ ih =>
    have hliteral := spelled.excess_le
    rw [List.append_cons, excess_append, tokensExcess_cons, Token.excess, String.toList_ofList]
    exact Int.add_le_add hliteral ih
  | @word w cs ts _ inside _ _ ih =>
    rw [excess_append, excess_word inside, tokensExcess_cons, Token.excess, String.toList_ofList]
    exact Int.add_le_add_left ih _

/-! ## What is shown against what is read -/

/-- The excess of the text that shows a term. -/
def Term.excess (t : Term) : Int :=
  2 + Filter.excess t.value.toList - (t.path.toList.count '\\' : Int)

theorem Operator.excess_word (o : Operator) : Filter.excess o.word.toList = 0 := by
  cases o <;> decide

theorem Term.excess_display {t : Term} (word : IsWord t.path) :
    Filter.excess t.display.toList = t.excess := by
  have hblank : Text.isSpace ' ' = true := by decide
  have hnil : Filter.excess [] = 0 := rfl
  simp only [toList_display, excess_append, excess_space_cons hblank, List.cons_append,
    excess_quote_cons, excess_word word.2, t.operator.excess_word, Term.excess]
  omega

/-- Nothing but the parts counts towards the excess of a list with such separators. -/
theorem excess_joined {separator : String} (neutral : excess separator.toList = 0) {α : Type}
    {shown : α → String} {weight : α → Int} {parts : List α}
    (hpart : ∀ a ∈ parts, excess (shown a).toList = weight a) :
    excess (separator.intercalate (parts.map shown)).toList = (parts.map weight).sum := by
  induction parts with
  | nil => rfl
  | cons a others ih =>
    have hothers := ih fun b hb => hpart b (List.mem_cons_of_mem a hb)
    have ha := hpart a List.mem_cons_self
    cases others with
    | nil => simpa using ha
    | cons b others =>
      rw [List.map_cons, List.map_cons, String.intercalate_cons_cons, ← List.map_cons,
        String.toList_append, String.toList_append, excess_append, excess_append, ha, neutral,
        hothers]
      simp

def Conjunction.excess (c : Conjunction) : Int :=
  (c.terms.map Term.excess).sum

theorem excess_display {cs : List Conjunction} (words : ∀ c ∈ cs, ∀ t ∈ c.terms, IsWord t.path) :
    excess (display cs).toList = (cs.map Conjunction.excess).sum :=
  excess_joined (by decide) fun c hc =>
    excess_joined (by decide) fun t ht => Term.excess_display (words c hc t ht)

/-- The first number is at most the second, and less unless `P` holds. -/
def AtMostIf (P : Prop) (x y : Int) : Prop :=
  x ≤ y ∧ (y ≤ x → P)

theorem AtMostIf.of_lt {P : Prop} {x y : Int} (h : x < y) : AtMostIf P x y :=
  ⟨Int.le_of_lt h, fun hle => absurd hle (Int.not_le.mpr h)⟩

theorem AtMostIf.add {P Q : Prop} {x y z w : Int} (h : AtMostIf P x y) (h' : AtMostIf Q z w) :
    AtMostIf (P ∧ Q) (x + z) (y + w) := by
  obtain ⟨hxy, hP⟩ := h
  obtain ⟨hzw, hQ⟩ := h'
  exact ⟨by omega, fun hle => ⟨hP (by omega), hQ (by omega)⟩⟩

/-- The tokens of a comparison make up for the text that shows its term only if the value is a
literal that needs no backslash. -/
theorem Comparison.atMost (c : Comparison) :
    AtMostIf c.term.IsPlain (tokensExcess c.tokens) c.term.excess := by
  cases c with
  | present path name =>
    have hvalue : Filter.excess "".toList = 0 := rfl
    refine .of_lt ?_
    simp only [tokens, term, tokensExcess_cons, tokensExcess_nil, Token.excess, Term.excess, hvalue]
    omega
  | compared path op valued name value =>
    cases value with
    | word v =>
      refine .of_lt ?_
      simp only [tokens, term, tokensExcess_cons, tokensExcess_nil, Token.excess, Token.text,
        Term.excess, Filter.excess]
      omega
    | quoted v =>
      simp only [tokens, term, tokensExcess_cons, tokensExcess_nil, Token.excess, Token.text,
        Term.excess, Filter.excess]
      refine ⟨by omega, fun hle => ?_⟩
      have hquote : v.toList.count '"' = 0 := by omega
      have hbackslash : v.toList.count '\\' = 0 := by omega
      exact ⟨valued, List.count_eq_zero.mp hquote, List.count_eq_zero.mp hbackslash⟩

/-- Keywords count for nothing, so that parts bound what is joined of them. -/
theorem Joined.atMost {keyword : String} {α β : Type} (partTokens : β → List Token) (value : β → α)
    {weight : α → Int} {P : α → Prop}
    (hpart : ∀ b, AtMostIf (P (value b)) (tokensExcess (partTokens b)) (weight (value b)))
    (d : Joined keyword β) :
    AtMostIf (∀ a ∈ d.parts.map value, P a) (tokensExcess (d.tokens partTokens))
      ((d.parts.map value).map weight).sum := by
  induction d with
  | one b => simpa [tokens, parts] using hpart b
  | more b link rest ih =>
    obtain ⟨hle, hholds⟩ := (hpart b).add ih
    simp only [tokens, parts, tokensExcess_append, tokensExcess_cons, Token.excess, List.map_cons,
      List.sum_cons, List.forall_mem_cons]
    exact ⟨by omega, fun h => hholds (by omega)⟩

theorem ConjunctionTree.atMost (d : ConjunctionTree) :
    AtMostIf (∀ t ∈ d.terms, t.IsPlain) (tokensExcess d.leaves) (Conjunction.excess ⟨d.terms⟩) :=
  Joined.atMost Comparison.tokens Comparison.term Comparison.atMost d

theorem AlternativesTree.atMost (d : AlternativesTree) :
    AtMostIf (∀ c ∈ d.conjunctions, ∀ t ∈ c.terms, t.IsPlain) (tokensExcess d.leaves)
      (d.conjunctions.map Conjunction.excess).sum :=
  Joined.atMost ConjunctionTree.leaves (fun c => Conjunction.mk c.terms) ConjunctionTree.atMost d

/-! ## Reading back -/

/-- Alternatives that are read back from the text that shows them have plain values only. -/
theorem plain_of_parse_display {cs : List Conjunction}
    (words : ∀ c ∈ cs, ∀ t ∈ c.terms, IsWord t.path) (h : parse (display cs) = .ok cs) :
    ∀ c ∈ cs, ∀ t ∈ c.terms, t.IsPlain := by
  obtain ⟨d, hd, rfl⟩ := parse_ok_iff.mp h
  cases d with
  | blank => exact nofun
  | alternatives tree =>
    -- The terms exceed their tokens unless all are plain, and the text that shows them does not.
    have hexcess := Lexes.excess_le hd
    rw [excess_display words] at hexcess
    exact (AlternativesTree.atMost tree).2 hexcess

theorem parse_display_of_plain {cs : List Conjunction} (nonempty : cs ≠ [])
    (filled : ∀ c ∈ cs, c.terms ≠ []) (words : ∀ c ∈ cs, ∀ t ∈ c.terms, IsWord t.path)
    (paths : ∀ c ∈ cs, ∀ t ∈ c.terms, Text.sameLetters t.path "not" = false)
    (plain : ∀ c ∈ cs, ∀ t ∈ c.terms, t.IsPlain) : parse (display cs) = .ok cs := by
  have hwritable : Writable cs := fun c hc => ⟨filled c hc, fun t ht =>
    ⟨words c hc t ht, paths c hc t ht, fun hop => absurd hop (plain c hc t ht).valued⟩⟩
  obtain ⟨ts, hwrites, hleads⟩ := leads_display nonempty filled words plain
  obtain ⟨d, rfl, hcs⟩ := hwrites.exists_derivation hwritable
  have hlexes := hleads [] [] .nil
  rw [List.append_nil, List.append_nil] at hlexes
  exact parse_ok_iff.mpr ⟨d, hlexes, hcs⟩

/-- Alternatives with words for paths are read back from the text that shows them exactly if no
value holds a double quote or a backslash and no term uses `pr`. -/
theorem display_reads_back_iff {cs : List Conjunction} (nonempty : cs ≠ [])
    (filled : ∀ c ∈ cs, c.terms ≠ [])
    (paths : ∀ c ∈ cs, ∀ t ∈ c.terms, IsWord t.path ∧ Text.sameLetters t.path "not" = false) :
    Fault.ofFiltered (parse (display cs)) = .ok cs ↔ ∀ c ∈ cs, ∀ t ∈ c.terms, t.IsPlain := by
  have words : ∀ c ∈ cs, ∀ t ∈ c.terms, IsWord t.path := fun c hc t ht => (paths c hc t ht).1
  rw [Fallible.ofFiltered_ok_iff]
  constructor
  · exact plain_of_parse_display words
  · exact parse_display_of_plain nonempty filled words fun c hc t ht => (paths c hc t ht).2

/-- Keywords in values and for a path, a path with a backslash, and an empty value. -/
def keywordFilter : List Conjunction :=
  [⟨[⟨"userName", .contains, "a or b"⟩, ⟨"and", .equals, ""⟩]⟩, ⟨[⟨"n\\t", .atLeast, "not pr"⟩]⟩]

theorem keywordFilter_reads_back :
    display keywordFilter = "userName co \"a or b\" and and eq \"\" or n\\t ge \"not pr\"" ∧
      Fault.ofFiltered (parse (display keywordFilter)) = .ok keywordFilter := by
  have hfilled : ∀ c ∈ keywordFilter, c.terms ≠ [] := by
    simp [keywordFilter]
  have hpaths : ∀ c ∈ keywordFilter, ∀ t ∈ c.terms,
      IsWord t.path ∧ Text.sameLetters t.path "not" = false := by
    simp only [keywordFilter, List.forall_mem_cons]
    decide
  have hplain : ∀ c ∈ keywordFilter, ∀ t ∈ c.terms, t.IsPlain := by
    simp only [keywordFilter, List.forall_mem_cons]
    exact ⟨⟨⟨by decide, by decide, by decide⟩, ⟨by decide, by decide, by decide⟩, nofun⟩,
      ⟨⟨by decide, by decide, by decide⟩, nofun⟩, nofun⟩
  exact ⟨by decide +kernel,
    (display_reads_back_iff (List.cons_ne_nil _ _) hfilled hpaths).mpr hplain⟩

end Scim.Filter
