import Mathlib.Data.List.Nodup
import Scim.EntityTag

/-!
# What an entity tag tells

A tag tells the first eight octets of the hash of the content and no more: the digits between its
quotes stand for these octets one to one.
-/

namespace Scim

namespace Digest

theorem length_sha256 (message : List UInt8) : (sha256 message).length = 32 := by
  simp [sha256, HashState.words, octets]

theorem nodup_base64Alphabet : base64Alphabet.Nodup := by
  decide +kernel

theorem length_base64Alphabet : base64Alphabet.length = 64 := by
  decide +kernel

/-- A digit tells its value up to sixty-four. -/
theorem mod_eq_of_base64Digit_eq {m n : Nat} (h : base64Digit m = base64Digit n) :
    m % 64 = n % 64 := by
  have hm : m % 64 < base64Alphabet.length := by
    rw [length_base64Alphabet]
    omega
  have hn : n % 64 < base64Alphabet.length := by
    rw [length_base64Alphabet]
    omega
  rw [base64Digit, base64Digit, ← List.getElem_eq_getD (h := hm),
    ← List.getElem_eq_getD (h := hn)] at h
  exact (List.Nodup.getElem_inj_iff nodup_base64Alphabet).mp h

/-- Octets of one number are told by their digits. By induction on the octets in groups of three, as
they are written. -/
theorem base64Chars_injective {xs ys : List UInt8} (length : xs.length = ys.length)
    (h : base64Chars xs = base64Chars ys) : xs = ys := by
  induction xs using base64Chars.induct generalizing ys with
  | case1 a b c rest ih =>
    obtain ⟨a', b', c', rest', rfl⟩ : ∃ a' b' c' rest', ys = a' :: b' :: c' :: rest' := by
      match ys, length with
      | a' :: b' :: c' :: rest', _ => exact ⟨a', b', c', rest', rfl⟩
    simp only [base64Chars, List.cons.injEq] at h
    obtain ⟨h1, h2, h3, h4, hrest⟩ := h
    have d1 := mod_eq_of_base64Digit_eq h1
    have d2 := mod_eq_of_base64Digit_eq h2
    have d3 := mod_eq_of_base64Digit_eq h3
    have d4 := mod_eq_of_base64Digit_eq h4
    have ha := a.toNat_lt
    have hb := b.toNat_lt
    have hc := c.toNat_lt
    have ha' := a'.toNat_lt
    have hb' := b'.toNat_lt
    have hc' := c'.toNat_lt
    have hlength : rest.length = rest'.length := by
      simp only [List.length_cons] at length
      omega
    rw [ih hlength hrest, UInt8.toNat_inj.mp (show a.toNat = a'.toNat by omega),
      UInt8.toNat_inj.mp (show b.toNat = b'.toNat by omega),
      UInt8.toNat_inj.mp (show c.toNat = c'.toNat by omega)]
  | case2 a b =>
    obtain ⟨a', b', rfl⟩ := List.length_eq_two.mp length.symm
    simp only [base64Chars, List.cons.injEq] at h
    obtain ⟨h1, h2, h3, -, -⟩ := h
    have d1 := mod_eq_of_base64Digit_eq h1
    have d2 := mod_eq_of_base64Digit_eq h2
    have d3 := mod_eq_of_base64Digit_eq h3
    have ha := a.toNat_lt
    have hb := b.toNat_lt
    have ha' := a'.toNat_lt
    have hb' := b'.toNat_lt
    rw [UInt8.toNat_inj.mp (show a.toNat = a'.toNat by omega),
      UInt8.toNat_inj.mp (show b.toNat = b'.toNat by omega)]
  | case3 a =>
    obtain ⟨a', rfl⟩ := List.length_eq_one_iff.mp length.symm
    simp only [base64Chars, List.cons.injEq] at h
    obtain ⟨h1, h2, -, -, -⟩ := h
    have d1 := mod_eq_of_base64Digit_eq h1
    have d2 := mod_eq_of_base64Digit_eq h2
    have ha := a.toNat_lt
    have ha' := a'.toNat_lt
    rw [UInt8.toNat_inj.mp (show a.toNat = a'.toNat by omega)]
  | case4 => exact (List.length_eq_zero_iff.mp length.symm).symm

end Digest

namespace EntityTag

/-- The first eight octets of the hash of a content. -/
def digest (content : String) : List UInt8 :=
  (Digest.sha256 content.toUTF8.toList).take 8

/-- The contents differ, and their hashes start with the same eight octets. -/
def Collide (c c' : String) : Prop :=
  c.toUTF8 ≠ c'.toUTF8 ∧ digest c = digest c'

theorem ofContent_eq_iff {c c' : String} : ofContent c = ofContent c' ↔ digest c = digest c' := by
  constructor
  · intro h
    have hlength : (digest c).length = (digest c').length := by
      rw [digest, digest, List.length_take, List.length_take, Digest.length_sha256,
        Digest.length_sha256]
    have hquoted := (String.append_left_inj "\"").mp h
    have hbase : Digest.base64 (digest c) = Digest.base64 (digest c') :=
      (String.append_right_inj "W/\"").mp hquoted
    exact Digest.base64Chars_injective hlength (String.ofList_injective hbase)
  · intro h
    exact congrArg (fun ds => "W/\"" ++ Digest.base64 ds ++ "\"") h

/-- Contents that share a tag are the same or collide. -/
theorem eq_or_collide {c c' : String} (h : ofContent c = ofContent c') : c = c' ∨ Collide c c' := by
  by_cases heq : c = c'
  · exact .inl heq
  · refine .inr ⟨fun hbytes => heq (String.toByteArray_inj.mp hbytes), ?_⟩
    exact ofContent_eq_iff.mp h

end EntityTag

end Scim
