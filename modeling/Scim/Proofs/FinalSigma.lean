import Scim.Proofs.Casing
import Scim.Text.Blank

/-!
# Where the two readings of lower case agree

To map every character on its own and to map a text as a whole differ in one place: a capital sigma
at the end of a word. Two texts are therefore equal in one reading when they are in the other, as
long as one of them has no sigma of any form at the end of a word. A text that has one can be told
apart from some other text by one of the readings alone.
-/

namespace Scim.Text

/-- Whether a sigma of any form ends a word in the text that follows `before`, which is given in
reverse. -/
def sigmaEndsWord (before : List Char) : List Char → Bool
  | [] => false
  | c :: after => (isSigma c && endsWord before after) || sigmaEndsWord (c :: before) after

def hasFinalSigma (s : String) : Bool :=
  sigmaEndsWord [] s.toList

/-- A text in small forms, character by character. -/
inductive Lowered : List Char → List Char → Prop
  | nil : Lowered [] []
  | cons {c : Char} {ds cs es : List Char} (head : SmallForm c ds) (tail : Lowered cs es) :
      Lowered (c :: cs) (ds ++ es)

/-- What a character becomes where this stands before and after it. -/
def lowerAt (before after : List Char) (c : Char) : List Char :=
  if c = 'Σ' then [if endsWord before after then 'ς' else 'σ'] else lowerChar c

theorem lowerFrom_cons (before after : List Char) (c : Char) :
    lowerFrom before (c :: after) = lowerAt before after c ++ lowerFrom (c :: before) after :=
  rfl

theorem lowerAt_of_ne {c : Char} (h : c ≠ 'Σ') (before after : List Char) :
    lowerAt before after c = lowerChar c :=
  if_neg h

theorem lowerAt_final {before after : List Char} (h : endsWord before after = true) :
    lowerAt before after 'Σ' = ['ς'] := by
  rw [lowerAt, if_pos rfl, if_pos h]

theorem lowerAt_inner {before after : List Char} (h : endsWord before after = false) :
    lowerAt before after 'Σ' = lowerChar 'Σ' := by
  rw [lowerAt, if_pos rfl, h, if_neg Bool.false_ne_true, lowerChar_capitalSigma]

theorem smallForm_finalSigma : SmallForm 'Σ' ['ς'] :=
  .same (.inr ⟨isLetter_of_isSigma rfl, isLetter_of_isSigma rfl⟩) rfl

theorem lowered_each (cs : List Char) : Lowered cs (cs.flatMap lowerChar) := by
  induction cs with
  | nil => exact .nil
  | cons c rest ih => exact .cons (smallForm_lowerChar c) ih

theorem lowered_from (before cs : List Char) : Lowered cs (lowerFrom before cs) := by
  induction cs generalizing before with
  | nil => exact .nil
  | cons c rest ih =>
    rw [lowerFrom_cons]
    refine .cons ?_ (ih (c :: before))
    by_cases hc : c = 'Σ'
    · subst hc
      cases hend : endsWord before rest with
      | true =>
        rw [lowerAt_final hend]
        exact smallForm_finalSigma
      | false =>
        rw [lowerAt_inner hend]
        exact smallForm_lowerChar 'Σ'
    · rw [lowerAt_of_ne hc]
      exact smallForm_lowerChar c

/-! ## Words keep their ends -/

theorem opensCased_cons (c : Char) (cs : List Char) :
    opensCased (c :: cs) = if isCaseIgnorable c then opensCased cs else isCased c := by
  rw [opensCased, List.dropWhile_cons]
  by_cases hc : isCaseIgnorable c = true
  · rw [if_pos hc, if_pos hc]
    rfl
  · rw [if_neg hc, if_neg hc]

theorem opensCased_of_isLetter {c : Char} (h : IsLetter c) (cs : List Char) :
    opensCased (c :: cs) = true := by
  rw [opensCased_cons, h.kept, if_neg Bool.false_ne_true]
  exact h.cased

theorem opensCased_cons_congr (c : Char) {cs ds : List Char} (h : opensCased cs = opensCased ds) :
    opensCased (c :: cs) = opensCased (c :: ds) := by
  rw [opensCased_cons, opensCased_cons, h]

theorem isLetter_dotted : IsLetter '\u0130' :=
  ⟨by decide +kernel, by decide +kernel⟩

theorem isLetter_i : IsLetter 'i' :=
  ⟨by decide +kernel, by decide +kernel⟩

theorem isCaseIgnorable_dot : isCaseIgnorable '\u0307' = true := by
  decide +kernel

namespace SmallForm

variable {c : Char} {ds cs es : List Char}

theorem opensCased_append (h : SmallForm c ds) (hrest : opensCased es = opensCased cs) :
    opensCased (ds ++ es) = opensCased (c :: cs) := by
  cases h with
  | same letters _ =>
    rcases letters with rfl | ⟨hc, hd⟩
    · exact opensCased_cons_congr c hrest
    · rw [opensCased_of_isLetter hc]
      exact opensCased_of_isLetter hd es
  | dotted =>
    rw [opensCased_of_isLetter isLetter_dotted]
    exact opensCased_of_isLetter isLetter_i _

theorem opensCased_reverse (h : SmallForm c ds) (hrest : opensCased es = opensCased cs) :
    opensCased (ds.reverse ++ es) = opensCased (c :: cs) := by
  cases h with
  | same letters hsigma => exact (SmallForm.same letters hsigma).opensCased_append hrest
  | dotted =>
    rw [opensCased_of_isLetter isLetter_dotted]
    change opensCased ('\u0307' :: 'i' :: es) = true
    rw [opensCased_cons, if_pos isCaseIgnorable_dot]
    exact opensCased_of_isLetter isLetter_i es

end SmallForm

theorem Lowered.opensCased_eq {cs ds : List Char} (h : Lowered cs ds) :
    opensCased ds = opensCased cs := by
  induction h with
  | nil => rfl
  | cons head _ ih => exact head.opensCased_append ih

/-- Sigmas end words after the mapping where they did before. -/
theorem Lowered.sigmaEndsWord_eq {cs ds : List Char} (h : Lowered cs ds) {before before' : List Char}
    (hbefore : opensCased before' = opensCased before) :
    sigmaEndsWord before' ds = sigmaEndsWord before cs := by
  induction h generalizing before before' with
  | nil => rfl
  | @cons c ds cs es head tail ih =>
    have hrest := ih (head.opensCased_reverse hbefore)
    have hends : endsWord before' es = endsWord before cs := by
      rw [endsWord, endsWord, hbefore, tail.opensCased_eq]
    cases head with
    | same _ hsigma =>
      simp only [List.cons_append, List.nil_append, sigmaEndsWord, hsigma, hends]
      exact congrArg _ hrest
    | dotted => exact hrest

/-! ## Agreement -/

theorem lowerFrom_of_not_sigmaEndsWord {before cs : List Char}
    (h : sigmaEndsWord before cs = false) : lowerFrom before cs = cs.flatMap lowerChar := by
  induction cs generalizing before with
  | nil => rfl
  | cons c rest ih =>
    simp only [sigmaEndsWord, Bool.or_eq_false_iff] at h
    rw [lowerFrom_cons, ih h.2, List.flatMap_cons]
    by_cases hc : c = 'Σ'
    · subst hc
      have hinner : endsWord before rest = false := h.1
      rw [lowerAt_inner hinner]
    · rw [lowerAt_of_ne hc]

theorem lowerWhole_of_not_hasFinalSigma {s : String} (h : hasFinalSigma s = false) :
    lowerWhole s = lowerEach s := by
  rw [lowerWhole, lowerEach, lowerFrom_of_not_sigmaEndsWord h]

theorem hasFinalSigma_lowerEach (s : String) : hasFinalSigma (lowerEach s) = hasFinalSigma s := by
  rw [hasFinalSigma, lowerEach, String.toList_ofList]
  exact (lowered_each s.toList).sigmaEndsWord_eq rfl

theorem hasFinalSigma_lowerWhole (s : String) :
    hasFinalSigma (lowerWhole s) = hasFinalSigma s := by
  rw [hasFinalSigma, lowerWhole, String.toList_ofList]
  exact (lowered_from [] s.toList).sigmaEndsWord_eq rfl

/-- A text without a final sigma is equal to the same texts in both readings. -/
theorem lowerEach_eq_iff {k : String} (hk : hasFinalSigma k = false) (x : String) :
    lowerEach x = lowerEach k ↔ lowerWhole x = lowerWhole k := by
  rw [lowerWhole_of_not_hasFinalSigma hk]
  constructor
  · intro h
    have hx : hasFinalSigma x = false := by
      rw [← hasFinalSigma_lowerEach, h, hasFinalSigma_lowerEach, hk]
    rw [lowerWhole_of_not_hasFinalSigma hx, h]
  · intro h
    have hx : hasFinalSigma x = false := by
      rw [← hasFinalSigma_lowerWhole, h, hasFinalSigma_lowerEach, hk]
    rw [← lowerWhole_of_not_hasFinalSigma hx, h]

/-! ## Telling apart -/

theorem lowerFrom_congr {before before' : List Char} (h : opensCased before = opensCased before')
    (cs : List Char) : lowerFrom before cs = lowerFrom before' cs := by
  induction cs generalizing before before' with
  | nil => rfl
  | cons c rest ih =>
    rw [lowerFrom_cons, lowerFrom_cons, ih (opensCased_cons_congr c h), lowerAt, lowerAt, endsWord,
      endsWord, h]

/-- The capital sigma for a small or final one, and the final one for the capital. -/
def otherSigma (c : Char) : Char :=
  if c = 'Σ' then 'ς' else 'Σ'

theorem isSigma_otherSigma (c : Char) : isSigma (otherSigma c) = true := by
  rw [otherSigma]
  split
  · rfl
  · rfl

/-- At the end of a word, another sigma is the same in exactly one of the readings. -/
theorem otherSigma_told_apart {before after : List Char} {c : Char} (hc : isSigma c = true)
    (hend : endsWord before after = true) :
    ¬ (lowerChar (otherSigma c) = lowerChar c ↔
      lowerAt before after (otherSigma c) = lowerAt before after c) := by
  rcases isSigma_iff.mp hc with rfl | rfl | rfl
  · change ¬ (lowerChar 'ς' = lowerChar 'Σ' ↔ lowerAt before after 'ς' = lowerAt before after 'Σ')
    rw [lowerAt_final hend, lowerAt_of_ne (by decide), lowerChar_finalSigma, lowerChar_capitalSigma]
    decide
  · change ¬ (lowerChar 'Σ' = lowerChar 'σ' ↔ lowerAt before after 'Σ' = lowerAt before after 'σ')
    rw [lowerAt_final hend, lowerAt_of_ne (by decide), lowerChar_smallSigma, lowerChar_capitalSigma]
    decide
  · change ¬ (lowerChar 'Σ' = lowerChar 'ς' ↔ lowerAt before after 'Σ' = lowerAt before after 'ς')
    rw [lowerAt_final hend, lowerAt_of_ne (by decide), lowerChar_finalSigma, lowerChar_capitalSigma]
    decide

/-- With another sigma at the end of one word, a text is the same in exactly one of the readings. By
induction on the text up to that word. -/
theorem exists_other_sigma {before cs : List Char} (h : sigmaEndsWord before cs = true) :
    ∃ xs, opensCased xs = opensCased cs ∧ (∃ c ∈ xs, isSigma c = true) ∧
      ¬ (xs.flatMap lowerChar = cs.flatMap lowerChar ↔ lowerFrom before xs = lowerFrom before cs) := by
  induction cs generalizing before with
  | nil => cases h
  | cons c rest ih =>
    simp only [sigmaEndsWord, Bool.or_eq_true, Bool.and_eq_true] at h
    rcases h with ⟨hc, hend⟩ | hrest
    · have hletter := isLetter_of_isSigma hc
      have hother := isLetter_of_isSigma (isSigma_otherSigma c)
      refine ⟨otherSigma c :: rest, ?_, ⟨_, List.mem_cons_self, isSigma_otherSigma c⟩, ?_⟩
      · rw [opensCased_of_isLetter hletter, opensCased_of_isLetter hother]
      · have htail : lowerFrom (otherSigma c :: before) rest = lowerFrom (c :: before) rest := by
          apply lowerFrom_congr
          rw [opensCased_of_isLetter hletter, opensCased_of_isLetter hother]
        rw [List.flatMap_cons, List.flatMap_cons, lowerFrom_cons, lowerFrom_cons, htail,
          List.append_cancel_right_eq, List.append_cancel_right_eq]
        exact otherSigma_told_apart hc hend
    · obtain ⟨ys, hopens, ⟨d, hd, hsigma⟩, happart⟩ := ih hrest
      refine ⟨c :: ys, opensCased_cons_congr c hopens, ⟨d, List.mem_cons_of_mem c hd, hsigma⟩, ?_⟩
      have hhead : lowerAt before ys c = lowerAt before rest c := by
        rw [lowerAt, lowerAt, endsWord, endsWord, hopens]
      rw [List.flatMap_cons, List.flatMap_cons, lowerFrom_cons, lowerFrom_cons, hhead,
        List.append_cancel_left_eq, List.append_cancel_left_eq]
      exact happart

/-- A text with a final sigma is equal to some other text in exactly one of the readings. -/
theorem exists_told_apart {k : String} (hk : hasFinalSigma k = true) :
    ∃ x, isBlank x = false ∧ ¬ (lowerEach x = lowerEach k ↔ lowerWhole x = lowerWhole k) := by
  obtain ⟨xs, -, ⟨c, hc, hsigma⟩, happart⟩ := exists_other_sigma hk
  refine ⟨String.ofList xs, ?_, ?_⟩
  · have hspace : isSpace c = false := by
      rcases isSigma_iff.mp hsigma with rfl | rfl | rfl
      · rfl
      · rfl
      · rfl
    rw [isBlank, String.toList_ofList, List.all_eq_false]
    exact ⟨c, hc, by rw [hspace]; exact Bool.false_ne_true⟩
  · rw [← String.toList_inj, ← String.toList_inj]
    simp only [lowerEach, lowerWhole, String.toList_ofList]
    exact happart

end Scim.Text
