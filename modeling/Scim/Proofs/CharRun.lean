import Scim.Text.Blank

/-!
# Runs of characters

A longest run of characters of one sort at the start of a text is taken whole, and no more than that.
-/

namespace Scim.Text

/-- What comes next is no character of the sort. -/
def NoneFollows (p : Char → Bool) (rest : List Char) : Prop :=
  ∀ c, rest.head? = some c → p c = false

variable {p : Char → Bool} {run rest : List Char}

theorem takeWhile_run (inside : ∀ c ∈ run, p c = true) (ends : NoneFollows p rest) :
    (run ++ rest).takeWhile p = run := by
  rw [List.takeWhile_append_of_pos inside]
  cases rest with
  | nil => exact List.append_nil run
  | cons c rest =>
    have hc : ¬ p c = true := Bool.not_eq_true _ ▸ ends c rfl
    rw [List.takeWhile_cons_of_neg hc, List.append_nil]

theorem dropWhile_run (inside : ∀ c ∈ run, p c = true) (ends : NoneFollows p rest) :
    (run ++ rest).dropWhile p = rest := by
  rw [List.dropWhile_append_of_pos inside]
  cases rest with
  | nil => rfl
  | cons c rest =>
    have hc : ¬ p c = true := Bool.not_eq_true _ ▸ ends c rfl
    exact List.dropWhile_cons_of_neg hc

theorem skipSpace_of_noneFollows (h : NoneFollows isSpace rest) : skipSpace rest = rest := by
  have hdrop : ([] ++ rest).dropWhile isSpace = rest := dropWhile_run nofun h
  exact hdrop

theorem noneFollows_cons {c : Char} (h : p c = false) : NoneFollows p (c :: rest) := by
  intro d hd
  cases hd
  exact h

theorem isSpace_of_isDigit {c : Char} (h : c.isDigit = true) : isSpace c = false := by
  have hdigit : 48 ≤ c.toNat ∧ c.toNat ≤ 57 := by
    simpa [Char.isDigit, UInt32.le_iff_toNat_le, ← Char.toNat_val] using h
  have hspace : ¬ isSpace c = true := by
    simp only [isSpace, Bool.or_eq_true, Bool.and_eq_true, decide_eq_true_eq, beq_iff_eq]
    omega
  exact Bool.eq_false_iff.mpr hspace

/-! ## Trimming -/

theorem noneFollows_skipSpace (cs : List Char) : NoneFollows isSpace (skipSpace cs) := by
  intro c hc
  have hne : skipSpace cs ≠ [] := by
    intro hnil
    rw [hnil] at hc
    cases hc
  have hhead : isSpace ((skipSpace cs).head hne) = false := List.head_dropWhile_not isSpace hne
  rw [List.head?_eq_some_head hne] at hc
  rw [← Option.some.inj hc]
  exact hhead

theorem skipSpace_skipSpace (cs : List Char) : skipSpace (skipSpace cs) = skipSpace cs :=
  skipSpace_of_noneFollows (noneFollows_skipSpace cs)

/-- A trimmed text starts as the text does that is only trimmed at its front. -/
theorem skipSpace_trimChars (cs : List Char) : skipSpace (trimChars cs) = trimChars cs := by
  refine skipSpace_of_noneFollows fun c hc => noneFollows_skipSpace cs c ?_
  have hprefix : trimChars cs <+: skipSpace cs := by
    rw [trimChars, ← List.reverse_suffix, List.reverse_reverse]
    exact List.dropWhile_suffix isSpace
  obtain ⟨rest, hrest⟩ := hprefix
  rw [← hrest, List.head?_append, hc]
  rfl

theorem trimChars_trimChars (cs : List Char) : trimChars (trimChars cs) = trimChars cs := by
  rw [trimChars, skipSpace_trimChars, trimChars, List.reverse_reverse, skipSpace_skipSpace]

theorem trimChars_eq_nil_iff (cs : List Char) : trimChars cs = [] ↔ cs.all isSpace = true := by
  rw [trimChars, List.reverse_eq_nil_iff, skipSpace_eq_nil_iff, List.all_reverse,
    ← skipSpace_eq_nil_iff, skipSpace_skipSpace, skipSpace_eq_nil_iff]

/-- White space around a text that has none at its ends is all that trimming takes away. -/
theorem trimChars_between {front cs back : List Char} (before : ∀ c ∈ front, isSpace c = true)
    (after : ∀ c ∈ back, isSpace c = true) (starts : NoneFollows isSpace cs)
    (ends : NoneFollows isSpace cs.reverse) : trimChars (front ++ cs ++ back) = cs := by
  cases cs with
  | nil =>
    rw [trimChars_eq_nil_iff, List.append_nil, List.all_append, Bool.and_eq_true, List.all_eq_true,
      List.all_eq_true]
    exact ⟨before, after⟩
  | cons c cs =>
    have hfront : skipSpace (front ++ (c :: cs ++ back)) = c :: cs ++ back :=
      dropWhile_run before (noneFollows_cons (starts c rfl))
    have hback : skipSpace (back.reverse ++ (c :: cs).reverse) = (c :: cs).reverse :=
      dropWhile_run (fun d hd => after d (List.mem_reverse.mp hd)) ends
    rw [trimChars, List.append_assoc, hfront, List.reverse_append, hback, List.reverse_reverse]

/-- The last run of a text decides how it ends. -/
theorem noneFollows_reverse_append (xs : List Char) {run : List Char} (some_char : run ≠ [])
    (outside : ∀ c ∈ run, p c = false) : NoneFollows p (xs ++ run).reverse := by
  intro c hc
  obtain ⟨front, last, rfl⟩ := List.eq_nil_or_concat run |>.resolve_left some_char
  rw [List.concat_eq_append, ← List.append_assoc, List.reverse_append] at hc
  cases hc
  exact outside c (by simp)

theorem trim_trim (s : String) : trim (trim s) = trim s := by
  rw [trim, trim, String.toList_ofList, trimChars_trimChars]

theorem isBlank_trim (s : String) : isBlank (trim s) = isBlank s := by
  rw [Bool.eq_iff_iff, isBlank, isBlank, trim, String.toList_ofList, ← trimChars_eq_nil_iff,
    trimChars_trimChars, trimChars_eq_nil_iff]

end Scim.Text
