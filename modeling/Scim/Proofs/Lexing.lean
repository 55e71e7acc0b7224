import Scim.Filter.Token
import Scim.Proofs.CharRun
import Scim.Proofs.Fallible

/-!
# Texts of tokens

Which texts are made of which tokens, said without the scanner: a word is a longest run of word
characters, a literal stands between two double quotes, and everything else is white space. A text
with an open literal, or with a bracket outside a literal, is made of no tokens at all. The scanner
answers the tokens of a text exactly if there are some.
-/

namespace Scim.Filter

/-- What stands between the quotes of a literal, and the value that it spells: a backslash takes the
next character as it is. -/
inductive LiteralBody : List Char → List Char → Prop
  | nil : LiteralBody [] []
  | plain {c : Char} {body value : List Char} (quote : c ≠ '"') (backslash : c ≠ '\\')
      (rest : LiteralBody body value) : LiteralBody (c :: body) (c :: value)
  | escaped {c : Char} {body value : List Char} (rest : LiteralBody body value) :
      LiteralBody ('\\' :: c :: body) (c :: value)

/-- The text is made of these tokens. -/
inductive Lexes : List Char → List Token → Prop
  | nil : Lexes [] []
  | space {c : Char} {cs : List Char} {ts : List Token} (blank : Text.isSpace c = true)
      (rest : Lexes cs ts) : Lexes (c :: cs) ts
  | literal {body value cs : List Char} {ts : List Token} (spelled : LiteralBody body value)
      (rest : Lexes cs ts) :
      Lexes ('"' :: body ++ '"' :: cs) (.quoted (String.ofList value) :: ts)
  | word {w cs : List Char} {ts : List Token} (nonempty : w ≠ [])
      (inside : ∀ c ∈ w, isWordChar c = true)
      (ends : ∀ c, cs.head? = some c → isWordChar c = false) (rest : Lexes cs ts) :
      Lexes (w ++ cs) (.word (String.ofList w) :: ts)

/-! ## Literals -/

namespace Token

theorem literalTail_of_body {body value : List Char} (h : LiteralBody body value)
    (cs : List Char) : literalTail (body ++ '"' :: cs) = some (value, cs) := by
  induction h with
  | nil => rfl
  | @plain c body value quote backslash _ ih =>
    rw [List.cons_append, literalTail.eq_5 c _ quote (fun h _ => backslash h)
      (fun _ _ h _ => backslash h), ih]
    rfl
  | @escaped c body value _ ih =>
    rw [List.cons_append, List.cons_append, literalTail, ih]
    rfl

theorem body_of_literalTail {cs value rest : List Char} (h : literalTail cs = some (value, rest)) :
    ∃ body, LiteralBody body value ∧ cs = body ++ '"' :: rest := by
  fun_induction literalTail cs generalizing value rest with
  | case1 => cases h
  | case2 rest =>
    cases h
    exact ⟨[], .nil, rfl⟩
  | case3 => cases h
  | case4 c more ih =>
    obtain ⟨⟨v, r⟩, hmore, heq⟩ := Option.map_eq_some_iff.mp h
    cases heq
    obtain ⟨body, hbody, rfl⟩ := ih hmore
    exact ⟨'\\' :: c :: body, .escaped hbody, rfl⟩
  | case5 c more hquote hend hescape ih =>
    obtain ⟨⟨v, r⟩, hmore, heq⟩ := Option.map_eq_some_iff.mp h
    cases heq
    obtain ⟨body, hbody, rfl⟩ := ih hmore
    have hbackslash : c ≠ '\\' := by
      intro hc
      cases hmore : body ++ '"' :: rest with
      | nil => exact hend hc hmore
      | cons d tail => exact hescape d tail hc hmore
    exact ⟨c :: body, .plain hquote hbackslash hbody, rfl⟩

theorem literalTail_eq_some_iff {cs value rest : List Char} :
    literalTail cs = some (value, rest) ↔
      ∃ body, LiteralBody body value ∧ cs = body ++ '"' :: rest := by
  constructor
  · exact body_of_literalTail
  · rintro ⟨body, hbody, rfl⟩
    exact literalTail_of_body hbody rest

/-! ## Whole texts -/

theorem isWordChar_iff {c : Char} :
    isWordChar c = true ↔ Text.isSpace c = false ∧ c ≠ '"' ∧ isBracket c = false := by
  simp only [isWordChar, Bool.and_eq_true, Bool.not_eq_true', bne_iff_ne, and_assoc]

theorem isWordChar_of_head?_dropWhile {cs : List Char} {c : Char}
    (h : (cs.dropWhile isWordChar).head? = some c) : isWordChar c = false := by
  have hstop := List.head?_dropWhile_not isWordChar cs
  rw [h] at hstop
  exact hstop

theorem lexes_of_scan {cs : List Char} {ts : List Token} (h : scan cs = .ok ts) : Lexes cs ts := by
  fun_induction scan cs generalizing ts with
  | case1 =>
    cases h
    exact .nil
  | case2 c rest hspace ih => exact .space hspace (ih h)
  | case3 => cases h
  | case4 rest value after htail =>
    rename_i ih
    obtain ⟨us, hus, rfl⟩ := Fallible.map_ok_iff.mp h
    obtain ⟨body, hbody, rfl⟩ := literalTail_eq_some_iff.mp htail
    exact .literal hbody (ih hus)
  | case5 => cases h
  | case6 c rest hspace hquote hbracket =>
    rename_i ih
    obtain ⟨us, hus, rfl⟩ := Fallible.map_ok_iff.mp h
    have hc : isWordChar c = true :=
      isWordChar_iff.mpr ⟨by simpa using hspace, hquote, by simpa using hbracket⟩
    have hlexes := Lexes.word (w := c :: rest.takeWhile isWordChar) (List.cons_ne_nil _ _)
      (fun d hd => by
        rcases List.mem_cons.mp hd with rfl | hd
        · exact hc
        · exact List.all_eq_true.mp List.all_takeWhile d hd)
      (fun d => isWordChar_of_head?_dropWhile) (ih hus)
    rw [List.cons_append, List.takeWhile_append_dropWhile] at hlexes
    exact hlexes

theorem scan_of_lexes {cs : List Char} {ts : List Token} (h : Lexes cs ts) : scan cs = .ok ts := by
  -- the scanner is opened by its definition: to prove its equations takes long
  induction h with
  | nil => rw [scan.eq_def]
  | space blank _ ih =>
    rw [scan.eq_def]
    dsimp only
    rw [if_pos blank]
    exact ih
  | @literal body value cs ts spelled _ ih =>
    have htail := literalTail_of_body spelled cs
    rw [List.cons_append, scan.eq_def]
    dsimp only
    rw [if_neg (by decide), if_pos rfl]
    split
    · next hnone =>
      rw [htail] at hnone
      cases hnone
    · next v after hsome =>
      rw [htail] at hsome
      cases hsome
      rw [ih]
      rfl
  | @word w cs ts nonempty inside ends _ ih =>
    obtain ⟨c, w, rfl⟩ := List.exists_cons_of_ne_nil nonempty
    obtain ⟨hspace, hquote, hbracket⟩ := isWordChar_iff.mp (inside c List.mem_cons_self)
    have hinside : ∀ d ∈ w, isWordChar d = true := fun d hd => inside d (List.mem_cons_of_mem c hd)
    rw [List.cons_append, scan.eq_def]
    dsimp only
    rw [hspace, if_neg Bool.false_ne_true, if_neg hquote, hbracket,
      if_neg Bool.false_ne_true, Text.takeWhile_run hinside ends, Text.dropWhile_run hinside ends, ih]
    rfl

/-- A text is made of tokens exactly if the scanner answers them. -/
theorem scan_ok_iff {cs : List Char} {ts : List Token} : scan cs = .ok ts ↔ Lexes cs ts :=
  ⟨lexes_of_scan, scan_of_lexes⟩

end Token

/-- A text of no tokens is blank. -/
theorem lexes_nil_iff {cs : List Char} : Lexes cs [] ↔ cs.all Text.isSpace = true := by
  constructor
  · intro h
    generalize hts : ([] : List Token) = ts at h
    induction h with
    | nil => rfl
    | space blank _ ih => rw [List.all_cons, blank, ih hts, Bool.and_self]
    | literal _ _ _ => cases hts
    | word _ _ _ _ _ => cases hts
  · intro h
    induction cs with
    | nil => exact .nil
    | cons c rest ih =>
      rw [List.all_cons, Bool.and_eq_true] at h
      exact .space h.1 (ih h.2)

end Scim.Filter
