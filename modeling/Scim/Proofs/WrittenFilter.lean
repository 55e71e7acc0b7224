import Scim.Proofs.Derivation

/-!
# Written filters

How alternatives are written as a text: the tokens of each term, keywords between them, and white
space around each token, every choice of case, of spacing and of quotes left to the writer. Reading
undoes all of it. A path that is no word, or is `not`, cannot be written, and neither can a value
beside the operator `pr`.
-/

namespace Scim.Filter

/-- One word character or more. -/
def IsWord (s : String) : Prop :=
  s.toList ≠ [] ∧ ∀ c ∈ s.toList, isWordChar c = true

/-- What a term has to be like to be written. -/
structure Term.Writable (t : Term) : Prop where
  path_word : IsWord t.path
  path_plain : Text.sameLetters t.path "not" = false
  bare_present : t.operator = .present → t.value = ""

/-! ## Tokens of alternatives -/

/-- The tokens of one term. A value that is a word needs no quotes. -/
inductive WritesTerm : Term → List Token → Prop
  | present {path name : String}
      (named : Text.sameLetters name Operator.present.word = true) :
      WritesTerm ⟨path, .present, ""⟩ [.word path, .word name]
  | quoted {path name value : String} {op : Operator} (valued : op ≠ .present)
      (named : Text.sameLetters name op.word = true) :
      WritesTerm ⟨path, op, value⟩ [.word path, .word name, .quoted value]
  | unquoted {path name value : String} {op : Operator} (valued : op ≠ .present)
      (named : Text.sameLetters name op.word = true) (word : IsWord value) :
      WritesTerm ⟨path, op, value⟩ [.word path, .word name, .word value]

/-- The tokens of one part or more, with a keyword between each two. -/
inductive WritesJoined (keyword : String) {α : Type} (Writes : α → List Token → Prop) :
    List α → List Token → Prop
  | one {a : α} {ts : List Token} (first : Writes a ts) : WritesJoined keyword Writes [a] ts
  | more {a : α} {others : List α} {ts us : List Token} {link : String} (first : Writes a ts)
      (linked : Text.sameLetters link keyword = true)
      (rest : WritesJoined keyword Writes others us) :
      WritesJoined keyword Writes (a :: others) (ts ++ .word link :: us)

def WritesConjunction (c : Conjunction) : List Token → Prop :=
  WritesJoined "and" WritesTerm c.terms

inductive WritesFilter : List Conjunction → List Token → Prop
  | blank : WritesFilter [] []
  | alternatives {cs : List Conjunction} {ts : List Token}
      (joined : WritesJoined "or" WritesConjunction cs ts) : WritesFilter cs ts

/-! ## Texts of tokens -/

/-- A double quote and a backslash are written after a backslash. -/
def escaped (c : Char) : List Char :=
  if c = '"' ∨ c = '\\' then ['\\', c] else [c]

def Token.chars : Token → List Char
  | .word s => s.toList
  | .quoted s => '"' :: s.toList.flatMap escaped ++ ['"']

def AllSpace (gap : List Char) : Prop :=
  ∀ c ∈ gap, Text.isSpace c = true

/-- The tokens one after the other, with white space between each two. -/
inductive Separated : List Token → List Char → Prop
  | none : Separated [] []
  | one (t : Token) : Separated [t] t.chars
  | more (t : Token) {next : Token} {others : List Token} (gap : List Char) {text : List Char}
      (nonempty : gap ≠ []) (blank : AllSpace gap) (rest : Separated (next :: others) text) :
      Separated (t :: next :: others) (t.chars ++ gap ++ text)

/-- The text spells the alternatives. White space at either end means nothing. -/
def Spells (cs : List Conjunction) (text : String) : Prop :=
  ∃ tokens before body after, WritesFilter cs tokens ∧ Separated tokens body ∧
    AllSpace before ∧ AllSpace after ∧ text.toList = before ++ body ++ after

/-! ## Words -/

instance (s : String) : Decidable (IsWord s) :=
  decidable_of_iff ((!s.toList.isEmpty && s.toList.all isWordChar) = true) (by simp [IsWord])

/-- White space, the double quote and the brackets are no letters. -/
theorem isWordChar_of_isUpper {c : Char} (h : c.isUpper = true) : isWordChar c = true := by
  have hletter : 65 ≤ c.toNat ∧ c.toNat ≤ 90 := by
    have hbetween : 65 ≤ c.val ∧ c.val ≤ 90 := of_decide_eq_true h
    simpa [UInt32.le_iff_toNat_le, ← Char.toNat_val] using hbetween
  have hne (d : Char) (hd : d.toNat < 65 ∨ 90 < d.toNat) : c ≠ d := by
    rintro rfl
    omega
  refine Token.isWordChar_iff.mpr ⟨?_, hne '"' (by decide), ?_⟩
  · have hspace : ¬ Text.isSpace c = true := by
      simp only [Text.isSpace, Bool.or_eq_true, Bool.and_eq_true, decide_eq_true_eq, beq_iff_eq]
      omega
    exact Bool.eq_false_iff.mpr hspace
  · simp only [isBracket, Bool.or_eq_false_iff, beq_eq_false_iff_ne]
    exact ⟨⟨⟨hne '(' (by decide), hne ')' (by decide)⟩, hne '[' (by decide)⟩, hne ']' (by decide)⟩

theorem isWordChar_of_toLower {c : Char} (h : isWordChar c.toLower = true) :
    isWordChar c = true := by
  by_cases hupper : c.isUpper = true
  · exact isWordChar_of_isUpper hupper
  · have hnot : ¬ (65 ≤ c.val ∧ c.val ≤ 90) := fun h => hupper (decide_eq_true h)
    have hsame : c.toLower = c := dif_neg hnot
    rw [← hsame]
    exact h

/-- Writing a keyword in another case leaves it a word. -/
theorem isWord_of_sameLetters {s keyword : String} (h : Text.sameLetters s keyword = true)
    (hword : IsWord (Text.smallAscii keyword)) : IsWord s := by
  rw [Text.sameLetters, beq_iff_eq] at h
  obtain ⟨hne, hchars⟩ := h ▸ hword
  simp only [Text.smallAscii, String.toList_ofList] at hne hchars
  refine ⟨fun hnil => hne (by rw [hnil]; rfl), fun c hc => isWordChar_of_toLower ?_⟩
  exact hchars c.toLower (List.mem_map_of_mem hc)

theorem Operator.isWord_of_sameLetters {name : String} {op : Operator}
    (h : Text.sameLetters name op.word = true) : IsWord name := by
  refine Filter.isWord_of_sameLetters h ?_
  cases op <;> decide

/-! ## From the text to its tokens -/

/-- A literal may hold anything. -/
def Token.Sound : Token → Prop
  | .word s => IsWord s
  | .quoted _ => True

theorem literalBody_escaped (value : List Char) : LiteralBody (value.flatMap escaped) value := by
  induction value with
  | nil => exact .nil
  | cons c rest ih =>
    rw [List.flatMap_cons, escaped]
    split
    · exact .escaped ih
    · next hplain =>
      rw [not_or] at hplain
      exact .plain hplain.1 hplain.2 ih

theorem lexes_chars {t : Token} {cs : List Char} {ts : List Token} (sound : t.Sound)
    (ends : ∀ c, cs.head? = some c → isWordChar c = false) (rest : Lexes cs ts) :
    Lexes (t.chars ++ cs) (t :: ts) := by
  cases t with
  | word s =>
    have hlexes := Lexes.word sound.1 sound.2 ends rest
    rwa [String.ofList_toList] at hlexes
  | quoted s =>
    have hlexes := Lexes.literal (literalBody_escaped s.toList) rest
    rw [String.ofList_toList] at hlexes
    rw [Token.chars, List.append_assoc]
    exact hlexes

theorem lexes_space_append {gap cs : List Char} {ts : List Token} (blank : AllSpace gap)
    (rest : Lexes cs ts) : Lexes (gap ++ cs) ts := by
  induction gap with
  | nil => exact rest
  | cons c gap ih =>
    exact .space (blank c List.mem_cons_self) (ih fun d hd => blank d (List.mem_cons_of_mem c hd))

theorem not_isWordChar_of_isSpace {c : Char} (h : Text.isSpace c = true) :
    isWordChar c = false := by
  rw [isWordChar, h]
  rfl

theorem lexes_of_separated {tokens : List Token} {body after : List Char}
    (sound : ∀ t ∈ tokens, t.Sound) (spaced : Separated tokens body) (blank : AllSpace after) :
    Lexes (body ++ after) tokens := by
  have hafter : Lexes after [] := by
    have hlexes := lexes_space_append blank Lexes.nil
    rwa [List.append_nil] at hlexes
  induction spaced with
  | none => exact hafter
  | one t =>
    refine lexes_chars (sound t List.mem_cons_self) (fun c hc => ?_) hafter
    exact not_isWordChar_of_isSpace (blank c (List.mem_of_mem_head? hc))
  | @more t next others gap text nonempty gapBlank _ ih =>
    obtain ⟨d, gap, rfl⟩ := List.exists_cons_of_ne_nil nonempty
    have hrest := ih fun u hu => sound u (List.mem_cons_of_mem t hu)
    rw [List.append_assoc, List.append_assoc]
    refine lexes_chars (sound t List.mem_cons_self) (fun c hc => ?_)
      (lexes_space_append gapBlank hrest)
    cases hc
    exact not_isWordChar_of_isSpace (gapBlank d List.mem_cons_self)

/-! ## From the tokens to a derivation -/

theorem WritesTerm.exists_comparison {t : Term} {ts : List Token} (h : WritesTerm t ts)
    (writable : t.Writable) : ∃ c : Comparison, c.tokens = ts ∧ c.term = t := by
  cases h with
  | @present path name named =>
    exact ⟨.present ⟨path, writable.path_plain⟩ ⟨name, named⟩, rfl, rfl⟩
  | @quoted path name value op valued named =>
    exact ⟨.compared ⟨path, writable.path_plain⟩ op valued ⟨name, named⟩ (.quoted value), rfl, rfl⟩
  | @unquoted path name value op valued named _ =>
    exact ⟨.compared ⟨path, writable.path_plain⟩ op valued ⟨name, named⟩ (.word value), rfl, rfl⟩

theorem WritesTerm.sound {t : Term} {ts : List Token} (h : WritesTerm t ts)
    (writable : t.Writable) : ∀ u ∈ ts, u.Sound := by
  cases h with
  | present named =>
    simp only [List.forall_mem_cons, Token.Sound]
    exact ⟨writable.path_word, Operator.isWord_of_sameLetters named, nofun⟩
  | quoted _ named =>
    simp only [List.forall_mem_cons, Token.Sound]
    exact ⟨writable.path_word, Operator.isWord_of_sameLetters named, trivial, nofun⟩
  | unquoted _ named word =>
    simp only [List.forall_mem_cons, Token.Sound]
    exact ⟨writable.path_word, Operator.isWord_of_sameLetters named, word, nofun⟩

section Joined

variable {keyword : String} {α β : Type} {Writes : α → List Token → Prop}

theorem WritesJoined.exists_tree (partTokens : β → List Token) (value : β → α) {parts : List α}
    {ts : List Token} (h : WritesJoined keyword Writes parts ts)
    (hpart : ∀ a ∈ parts, ∀ us, Writes a us → ∃ b, partTokens b = us ∧ value b = a) :
    ∃ d : Joined keyword β, d.tokens partTokens = ts ∧ d.parts.map value = parts := by
  induction h with
  | @one a ts first =>
    obtain ⟨b, rfl, rfl⟩ := hpart a List.mem_cons_self ts first
    exact ⟨.one b, rfl, rfl⟩
  | @more a others ts us link first linked _ ih =>
    obtain ⟨b, rfl, rfl⟩ := hpart a List.mem_cons_self ts first
    obtain ⟨d, rfl, rfl⟩ := ih fun c hc => hpart c (List.mem_cons_of_mem _ hc)
    exact ⟨.more b ⟨link, linked⟩ d, rfl, rfl⟩

theorem WritesJoined.sound {parts : List α} {ts : List Token}
    (h : WritesJoined keyword Writes parts ts) (hkeyword : IsWord (Text.smallAscii keyword))
    (hpart : ∀ a ∈ parts, ∀ us, Writes a us → ∀ u ∈ us, u.Sound) : ∀ u ∈ ts, u.Sound := by
  induction h with
  | @one a ts first => exact hpart a List.mem_cons_self ts first
  | @more a others ts us link first linked _ ih =>
    intro u hu
    rcases List.mem_append.mp hu with hu | hu
    · exact hpart a List.mem_cons_self ts first u hu
    · rcases List.mem_cons.mp hu with rfl | hu
      · exact isWord_of_sameLetters linked hkeyword
      · exact ih (fun c hc => hpart c (List.mem_cons_of_mem _ hc)) u hu

theorem WritesJoined.exists_tokens {parts : List α} (nonempty : parts ≠ [])
    (hpart : ∀ a ∈ parts, ∃ ts, Writes a ts) : ∃ ts, WritesJoined keyword Writes parts ts := by
  induction parts with
  | nil => exact absurd rfl nonempty
  | cons a others ih =>
    obtain ⟨ts, hts⟩ := hpart a List.mem_cons_self
    cases others with
    | nil => exact ⟨ts, .one hts⟩
    | cons b others =>
      obtain ⟨us, hus⟩ := ih (List.cons_ne_nil b others)
        fun c hc => hpart c (List.mem_cons_of_mem a hc)
      exact ⟨ts ++ .word keyword :: us, .more hts (Text.sameLetters_refl keyword) hus⟩

end Joined

/-- What alternatives have to be like to be written. -/
def Writable (cs : List Conjunction) : Prop :=
  ∀ c ∈ cs, c.terms ≠ [] ∧ ∀ t ∈ c.terms, t.Writable

theorem WritesConjunction.exists_tree {c : Conjunction} {ts : List Token}
    (h : WritesConjunction c ts) (writable : ∀ t ∈ c.terms, t.Writable) :
    ∃ d : ConjunctionTree, d.leaves = ts ∧ Conjunction.mk d.terms = c := by
  obtain ⟨d, hleaves, hterms⟩ := WritesJoined.exists_tree Comparison.tokens Comparison.term h
    fun t ht _ hw => hw.exists_comparison (writable t ht)
  exact ⟨d, hleaves, congrArg Conjunction.mk hterms⟩

theorem WritesConjunction.sound {c : Conjunction} {ts : List Token}
    (h : WritesConjunction c ts) (writable : ∀ t ∈ c.terms, t.Writable) : ∀ u ∈ ts, u.Sound :=
  WritesJoined.sound h (by decide) fun t ht _ hw => hw.sound (writable t ht)

theorem WritesFilter.exists_derivation {cs : List Conjunction} {ts : List Token}
    (h : WritesFilter cs ts) (writable : Writable cs) :
    ∃ d : Derivation, d.leaves = ts ∧ d.conjunctions = cs := by
  cases h with
  | blank => exact ⟨.blank, rfl, rfl⟩
  | alternatives joined =>
    obtain ⟨d, hleaves, hcs⟩ := joined.exists_tree ConjunctionTree.leaves
      (fun d => Conjunction.mk d.terms)
      fun c hc _ hw => WritesConjunction.exists_tree hw (writable c hc).2
    exact ⟨.alternatives d, hleaves, hcs⟩

theorem WritesFilter.sound {cs : List Conjunction} {ts : List Token}
    (h : WritesFilter cs ts) (writable : Writable cs) : ∀ u ∈ ts, u.Sound := by
  cases h with
  | blank => exact nofun
  | alternatives joined =>
    exact joined.sound (by decide) fun c hc _ hw =>
      WritesConjunction.sound hw (writable c hc).2

/-! ## Every filter can be written -/

theorem Term.Writable.exists_tokens {t : Term} (h : t.Writable) : ∃ ts, WritesTerm t ts := by
  obtain ⟨path, op, value⟩ := t
  by_cases hop : op = .present
  · have hvalue : value = "" := h.bare_present hop
    subst hop hvalue
    exact ⟨_, .present (Text.sameLetters_refl _)⟩
  · exact ⟨_, .quoted hop (Text.sameLetters_refl _)⟩

theorem Writable.exists_tokens {cs : List Conjunction} (h : Writable cs) :
    ∃ ts, WritesFilter cs ts := by
  by_cases hnil : cs = []
  · subst hnil
    exact ⟨[], .blank⟩
  · have hjoined : ∃ ts, WritesJoined "or" WritesConjunction cs ts :=
      WritesJoined.exists_tokens hnil fun c hc => WritesJoined.exists_tokens (h c hc).1
        fun t ht => Term.Writable.exists_tokens ((h c hc).2 t ht)
    obtain ⟨ts, hts⟩ := hjoined
    exact ⟨ts, .alternatives hts⟩

theorem Separated.exists_text (ts : List Token) : ∃ text, Separated ts text := by
  induction ts with
  | nil => exact ⟨[], .none⟩
  | cons t others ih =>
    cases others with
    | nil => exact ⟨t.chars, .one t⟩
    | cons next others =>
      obtain ⟨text, htext⟩ := ih
      have hblank : AllSpace [' '] := by
        intro c hc
        rw [List.mem_singleton.mp hc]
        decide
      exact ⟨_, .more t [' '] (List.cons_ne_nil ' ' []) hblank htext⟩

/-- Every text that spells alternatives is read back as just these, and there is such a text for all
alternatives with terms whose paths are words. -/
theorem parse_of_spells {cs : List Conjunction} (writable : Writable cs) :
    (∃ text, Spells cs text) ∧
    ∀ text, Spells cs text → Fault.ofFiltered (parse text) = .ok cs := by
  constructor
  · obtain ⟨tokens, htokens⟩ := writable.exists_tokens
    obtain ⟨body, hbody⟩ := Separated.exists_text tokens
    exact ⟨String.ofList body, tokens, [], body, [], htokens, hbody, nofun, nofun,
      by rw [String.toList_ofList, List.nil_append, List.append_nil]⟩
  · rintro text ⟨tokens, before, body, after, htokens, hbody, hbefore, hafter, htext⟩
    obtain ⟨d, rfl, hcs⟩ := htokens.exists_derivation writable
    have hlexes := lexes_space_append hbefore
      (lexes_of_separated (htokens.sound writable) hbody hafter)
    rw [← List.append_assoc, ← htext] at hlexes
    exact Fallible.ofFiltered_ok_iff.mpr (parse_ok_iff.mpr ⟨d, hlexes, hcs⟩)

/-- Letters of either case, a value with a double quote and a backslash, and white space of three
kinds. -/
theorem parse_of_spells_mixed :
    Writable [⟨[⟨"userName", .equals, "a\"b\\"⟩]⟩, ⟨[⟨"active", .present, ""⟩]⟩] ∧
    Fault.ofFiltered (parse "\tuserName EQ \"a\\\"b\\\\\"\n Or active pr") =
      .ok [⟨[⟨"userName", .equals, "a\"b\\"⟩]⟩, ⟨[⟨"active", .present, ""⟩]⟩] := by
  have hwritable :
      Writable [⟨[⟨"userName", .equals, "a\"b\\"⟩]⟩, ⟨[⟨"active", .present, ""⟩]⟩] := by
    simp only [Writable, List.forall_mem_cons]
    exact ⟨⟨List.cons_ne_nil _ _, ⟨by decide, by decide, by decide⟩, nofun⟩,
      ⟨List.cons_ne_nil _ _, ⟨by decide, by decide, by decide⟩, nofun⟩, nofun⟩
  have hspace (gap : List Char) (h : gap.all Text.isSpace = true) : AllSpace gap :=
    List.all_eq_true.mp h
  have hname : WritesConjunction ⟨[⟨"userName", .equals, "a\"b\\"⟩]⟩
      [.word "userName", .word "EQ", .quoted "a\"b\\"] :=
    .one (.quoted (by decide) (by decide))
  have hactive : WritesConjunction ⟨[⟨"active", .present, ""⟩]⟩ [.word "active", .word "pr"] :=
    .one (.present (by decide))
  have hlink : Text.sameLetters "Or" "or" = true := by decide
  have hbody : Separated [.word "userName", .word "EQ", .quoted "a\"b\\", .word "Or",
      .word "active", .word "pr"] "userName EQ \"a\\\"b\\\\\"\n Or active pr".toList :=
    .more _ [' '] (by decide) (hspace _ (by decide)) <|
      .more _ [' '] (by decide) (hspace _ (by decide)) <|
      .more _ ['\n', ' '] (by decide) (hspace _ (by decide)) <|
      .more _ [' '] (by decide) (hspace _ (by decide)) <|
      .more _ [' '] (by decide) (hspace _ (by decide)) <| .one _
  exact ⟨hwritable, (parse_of_spells hwritable).2 _
    ⟨_, ['\t'], _, [], .alternatives (.more hname hlink (.one hactive)), hbody,
      hspace ['\t'] (by decide), nofun, by decide⟩⟩

end Scim.Filter
