import Scim.Text.Lowercase

/-!
# What lower case keeps

A letter and its small form are both cased letters, and neither is case-ignorable. The tables say so
run by run: the letters of all runs lie in a few blocks that no case-ignorable character falls into.
Of the sigmas, the small one comes from the capital alone, and the final one from no other letter.
-/

namespace Scim.Text

/-! ## The tables -/

/-- Blocks of code points that hold every letter with a small form, and every small form. -/
def letterBlocks : List (Nat × Nat) := [
  (0x41, 0x5A), (0x61, 0x7A), (0xC0, 0x29E), (0x370, 0x373), (0x376, 0x377), (0x37B, 0x37F),
  (0x386, 0x386), (0x388, 0x481), (0x48A, 0x556), (0x561, 0x586), (0x10A0, 0x10FA),
  (0x10FD, 0x10FF), (0x13A0, 0x13FD), (0x1C89, 0x1CBF), (0x1D79, 0x1D8E), (0x1E00, 0x1FBC),
  (0x1FC3, 0x1FCC), (0x1FD0, 0x1FDB), (0x1FE0, 0x1FEC), (0x1FF3, 0x1FFC), (0x2126, 0x2C76),
  (0x2C7E, 0x2CEE), (0x2CF2, 0x2D2D), (0xA640, 0xA66D), (0xA680, 0xA69B), (0xA722, 0xA76F),
  (0xA779, 0xA787), (0xA78B, 0xA7DC), (0xA7F5, 0xA7F6), (0xAB53, 0xAB53), (0xAB70, 0xABBF),
  (0xFF21, 0xFF3A), (0xFF41, 0xFF5A), (0x10400, 0x105BC), (0x10C80, 0x10CF2), (0x10D50, 0x10D65),
  (0x10D70, 0x10D85), (0x118A0, 0x118DF), (0x16E40, 0x16E7F), (0x1E900, 0x1E943)]

/-- Whether one of the ranges holds everything from `low` to `high`. -/
def spanInRanges (ranges : List (Nat × Nat)) (low high : Nat) : Bool :=
  ranges.any fun r => Nat.ble r.1 low && Nat.ble high r.2

/-- Whether no range meets any block. -/
def clearOf (ranges blocks : List (Nat × Nat)) : Bool :=
  blocks.all fun b => ranges.all fun r => Nat.blt r.2 b.1 || Nat.blt b.2 r.1

namespace CaseRun

/-- The last small form of a run. -/
def targetLast (r : CaseRun) : Nat :=
  r.target + (r.last - r.first)

/-- The code points of a run, counted out. -/
def sources (r : CaseRun) : List Nat :=
  (List.range (r.last - r.first + 1)).map (r.first + ·) |>.filter r.covers

def staysCased (r : CaseRun) : Bool :=
  (spanInRanges casedRanges r.first r.last || r.sources.all (inRanges casedRanges)) &&
    spanInRanges casedRanges r.target r.targetLast

def staysInBlocks (r : CaseRun) : Bool :=
  spanInRanges letterBlocks r.first r.last && spanInRanges letterBlocks r.target r.targetLast

/-- The small forms are characters. -/
def isValid (r : CaseRun) : Bool :=
  Nat.blt r.targetLast 0xD800 || (Nat.blt 0xDFFF r.target && Nat.blt r.targetLast 0x110000)

/-- The small forms lie clear of the three sigmas, or start with the one of the capital. -/
def sparesSigma (r : CaseRun) : Bool :=
  (Nat.blt r.targetLast 0x3A3 || Nat.blt 0x3A3 r.target) &&
    (Nat.blt r.targetLast 0x3C2 || Nat.blt 0x3C3 r.target ||
      (Nat.beq r.first 0x3A3 && Nat.beq r.target 0x3C3))

def isSound (r : CaseRun) : Bool :=
  r.staysCased && r.staysInBlocks && r.isValid && r.sparesSigma

end CaseRun

theorem lowerRuns_sound : lowerRuns.all CaseRun.isSound = true := by
  decide +kernel

theorem ignorable_clear : clearOf caseIgnorableRanges letterBlocks = true := by
  decide +kernel

theorem inRanges_of_span {ranges : List (Nat × Nat)} {low high n : Nat}
    (h : spanInRanges ranges low high = true) (hlow : low ≤ n) (hhigh : n ≤ high) :
    inRanges ranges n = true := by
  obtain ⟨r, hr, hspan⟩ := List.any_eq_true.mp h
  simp only [Bool.and_eq_true, Nat.ble_eq] at hspan
  refine List.any_eq_true.mpr ⟨r, hr, ?_⟩
  simp only [Bool.and_eq_true, decide_eq_true_eq]
  omega

theorem not_inRanges_of_clear {ranges blocks : List (Nat × Nat)} {n : Nat}
    (h : clearOf ranges blocks = true) (hn : inRanges blocks n = true) :
    inRanges ranges n = false := by
  obtain ⟨b, hb, hin⟩ := List.any_eq_true.mp hn
  simp only [Bool.and_eq_true, decide_eq_true_eq] at hin
  rw [inRanges, List.any_eq_false]
  intro r hr
  have hclear := List.all_eq_true.mp (List.all_eq_true.mp h b hb) r hr
  simp only [Bool.or_eq_true, Nat.blt_eq] at hclear
  simp only [Bool.and_eq_true, decide_eq_true_eq]
  omega

/-! ## One letter -/

/-- A cased character that is not case-ignorable. -/
structure IsLetter (c : Char) : Prop where
  cased : isCased c = true
  kept : isCaseIgnorable c = false

namespace CaseRun

variable {r : CaseRun} {n : Nat}

theorem covers_iff :
    r.covers n = true ↔ (r.first ≤ n ∧ n ≤ r.last) ∧ (n - r.first) % r.step = 0 := by
  simp only [covers, Bool.and_eq_true, decide_eq_true_eq, beq_iff_eq]

theorem map_bounds (h : r.covers n = true) : r.target ≤ r.map n ∧ r.map n ≤ r.targetLast := by
  have hbounds := (covers_iff.mp h).1
  simp only [map, targetLast]
  omega

theorem mem_sources (h : r.covers n = true) : n ∈ r.sources := by
  have hbounds := (covers_iff.mp h).1
  refine List.mem_filter.mpr ⟨List.mem_map.mpr ⟨n - r.first, List.mem_range.mpr ?_, ?_⟩, h⟩
  · omega
  · omega

theorem cased_of_covers (hr : r.staysCased = true) (h : r.covers n = true) :
    inRanges casedRanges n = true ∧ inRanges casedRanges (r.map n) = true := by
  have hbounds := (covers_iff.mp h).1
  have htarget := map_bounds h
  simp only [staysCased, Bool.and_eq_true, Bool.or_eq_true] at hr
  refine ⟨?_, inRanges_of_span hr.2 htarget.1 htarget.2⟩
  rcases hr.1 with hspan | hall
  · exact inRanges_of_span hspan hbounds.1 hbounds.2
  · exact List.all_eq_true.mp hall n (mem_sources h)

theorem kept_of_covers (hr : r.staysInBlocks = true) (h : r.covers n = true) :
    inRanges caseIgnorableRanges n = false ∧ inRanges caseIgnorableRanges (r.map n) = false := by
  have hbounds := (covers_iff.mp h).1
  have htarget := map_bounds h
  simp only [staysInBlocks, Bool.and_eq_true] at hr
  exact ⟨not_inRanges_of_clear ignorable_clear (inRanges_of_span hr.1 hbounds.1 hbounds.2),
    not_inRanges_of_clear ignorable_clear (inRanges_of_span hr.2 htarget.1 htarget.2)⟩

theorem isValidChar_of_covers (hr : r.isValid = true) (h : r.covers n = true) :
    (r.map n).isValidChar := by
  have htarget := map_bounds h
  simp only [isValid, Bool.or_eq_true, Bool.and_eq_true, Nat.blt_eq] at hr
  rw [Nat.isValidChar]
  omega

theorem map_ne_sigma (hr : r.sparesSigma = true) (h : r.covers n = true) (hn : n ≠ 0x3A3) :
    r.map n ≠ 0x3A3 ∧ r.map n ≠ 0x3C2 ∧ r.map n ≠ 0x3C3 := by
  have hbounds := (covers_iff.mp h).1
  have htarget := map_bounds h
  simp only [sparesSigma, Bool.and_eq_true, Bool.or_eq_true, Nat.blt_eq, Nat.beq_eq] at hr
  have hmap : r.map n = r.target + (n - r.first) := rfl
  omega

end CaseRun

/-- A capital, small or final sigma. -/
def isSigma (c : Char) : Bool :=
  c == 'Σ' || c == 'σ' || c == 'ς'

theorem isSigma_iff {c : Char} : isSigma c = true ↔ c = 'Σ' ∨ c = 'σ' ∨ c = 'ς' := by
  simp only [isSigma, Bool.or_eq_true, beq_iff_eq, or_assoc]

/-- The three sigmas are letters. -/
theorem isLetter_of_isSigma {c : Char} (h : isSigma c = true) : IsLetter c := by
  rcases isSigma_iff.mp h with rfl | rfl | rfl
  · exact ⟨by decide +kernel, by decide +kernel⟩
  · exact ⟨by decide +kernel, by decide +kernel⟩
  · exact ⟨by decide +kernel, by decide +kernel⟩

theorem lowerChar_capitalSigma : lowerChar 'Σ' = ['σ'] := by
  decide +kernel

theorem lowerChar_smallSigma : lowerChar 'σ' = ['σ'] := by
  decide +kernel

theorem lowerChar_finalSigma : lowerChar 'ς' = ['ς'] := by
  decide +kernel

theorem toNat_ofNat {m : Nat} (h : m.isValidChar) : (Char.ofNat m).toNat = m := by
  rw [Char.ofNat, dif_pos h]
  rfl

/-- The small form of a letter by a run is a letter, and no sigma unless the letter is one. -/
theorem isLetter_of_covers {r : CaseRun} (hr : r ∈ lowerRuns) {c : Char}
    (h : r.covers c.toNat = true) (hc : c ≠ 'Σ') :
    IsLetter c ∧ IsLetter (Char.ofNat (r.map c.toNat)) ∧
      isSigma (Char.ofNat (r.map c.toNat)) = false := by
  have hsound := List.all_eq_true.mp lowerRuns_sound r hr
  simp only [CaseRun.isSound, Bool.and_eq_true] at hsound
  obtain ⟨⟨⟨hcased, hblocks⟩, hvalid⟩, hspares⟩ := hsound
  have hnat := toNat_ofNat (CaseRun.isValidChar_of_covers hvalid h)
  obtain ⟨hc₁, hd₁⟩ := CaseRun.cased_of_covers hcased h
  obtain ⟨hc₂, hd₂⟩ := CaseRun.kept_of_covers hblocks h
  have hcapital : c.toNat ≠ 0x3A3 := fun heq => hc (Char.toNat_inj.mp heq)
  obtain ⟨h₁, h₂, h₃⟩ := CaseRun.map_ne_sigma hspares h hcapital
  refine ⟨⟨hc₁, hc₂⟩, ⟨?_, ?_⟩, ?_⟩
  · rw [isCased, hnat]
    exact hd₁
  · rw [isCaseIgnorable, hnat]
    exact hd₂
  · rw [← Bool.not_eq_true, isSigma_iff]
    rintro (heq | heq | heq)
    · exact h₁ (hnat.symm.trans (congrArg Char.toNat heq))
    · exact h₃ (hnat.symm.trans (congrArg Char.toNat heq))
    · exact h₂ (hnat.symm.trans (congrArg Char.toNat heq))

/-- A character and its small form are the same, or both letters, and both sigmas or both none. The
capital I with a dot above becomes two characters. -/
inductive SmallForm : Char → List Char → Prop
  | same {c d : Char} (letters : c = d ∨ (IsLetter c ∧ IsLetter d)) (hsigma : isSigma d = isSigma c) :
      SmallForm c [d]
  | dotted : SmallForm '\u0130' ['i', '\u0307']

theorem smallForm_lowerChar (c : Char) : SmallForm c (lowerChar c) := by
  by_cases hdotted : c = '\u0130'
  · subst hdotted
    exact .dotted
  by_cases hsigma : isSigma c = true
  · rcases isSigma_iff.mp hsigma with rfl | rfl | rfl
    · rw [lowerChar_capitalSigma]
      exact .same (.inr ⟨isLetter_of_isSigma rfl, isLetter_of_isSigma rfl⟩) rfl
    · rw [lowerChar_smallSigma]
      exact .same (.inl rfl) rfl
    · rw [lowerChar_finalSigma]
      exact .same (.inl rfl) rfl
  rw [lowerChar, if_neg hdotted]
  cases hfind : lowerRuns.find? fun r => r.covers c.toNat with
  | none => exact .same (.inl rfl) rfl
  | some r =>
    have hcovers : r.covers c.toNat = true := by simpa using List.find?_some hfind
    have hcapital : c ≠ 'Σ' := fun heq => hsigma (isSigma_iff.mpr (.inl heq))
    obtain ⟨hc, hd, hnone⟩ := isLetter_of_covers (List.mem_of_find?_eq_some hfind) hcovers hcapital
    rw [Bool.not_eq_true] at hsigma
    exact .same (.inr ⟨hc, hd⟩) (hnone.trans hsigma.symm)

end Scim.Text
