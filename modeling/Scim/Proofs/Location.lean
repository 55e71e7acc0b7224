import Mathlib.Data.List.DropRight
import Scim.Schema
import Scim.Service.Config

/-!
# Where resources are located

A location is the base address, the version, the segment of the kind and the id, with one slash
between each two. Trailing slashes are trimmed off twice: from the base address before the version
is put behind it, and from both before the rest is. Whatever that leaves, the location ends with its
kind and its id, and these can be read back from it. It is an absolute address if the base address is
one. A base address that ends with its scheme is accepted as well, but there the slashes of the scheme
are trimmed off too: only a version that gives one of them back makes up for it.
-/

namespace Scim

namespace Text

/-! ## Trailing slashes -/

/-- The characters without the slashes at the end. -/
def trimSlashes (cs : List Char) : List Char :=
  cs.rdropWhile (· == '/')

theorem toList_trimEndOf_slash (s : String) : (trimEndOf '/' s).toList = trimSlashes s.toList := by
  rw [trimEndOf, String.toList_ofList]
  rfl

theorem trimSlashes_eq_nil_iff {cs : List Char} : trimSlashes cs = [] ↔ ∀ c ∈ cs, c = '/' := by
  rw [trimSlashes, List.rdropWhile_eq_nil_iff]
  simp only [beq_iff_eq]

/-- What is left ends with something other than a slash. -/
theorem getLast_trimSlashes_ne {cs : List Char} (h : trimSlashes cs ≠ []) :
    (trimSlashes cs).getLast h ≠ '/' := fun heq =>
  List.rdropWhile_last_not (· == '/') cs h (beq_iff_eq.mpr heq)

/-- Trimming stops before a character other than a slash. -/
theorem trimSlashes_append {front : List Char} (h : trimSlashes front = front) (cs : List Char) :
    trimSlashes (front ++ cs) = front ++ trimSlashes cs := by
  simp only [trimSlashes, List.rdropWhile] at h ⊢
  rw [List.reverse_append, List.dropWhile_append]
  split
  · rename_i hempty
    rw [List.isEmpty_iff.mp hempty, h, List.reverse_nil, List.append_nil]
  · rw [List.reverse_append, List.reverse_reverse]

end Text

open Text (trimSlashes trimSlashes_eq_nil_iff)

/-! ## Absolute addresses -/

/-- The schemes of the addresses that a service can have. -/
def schemes : List String :=
  ["http://", "https://"]

/-- A scheme, and right behind it something other than a slash. -/
def IsAbsolute (url : String) : Prop :=
  ∃ scheme ∈ schemes, ∃ c rest, url.toList = scheme.toList ++ c :: rest ∧ c ≠ '/'

/-- A scheme, and nothing behind it but more slashes. -/
def IsBareScheme (url : String) : Prop :=
  ∃ scheme ∈ schemes, ∃ slashes, url.toList = scheme.toList ++ slashes ∧ ∀ c ∈ slashes, c = '/'

/-- One slash, and behind it something other than a slash. -/
def OpensSegment (cs : List Char) : Prop :=
  ∃ c rest, cs = '/' :: c :: rest ∧ c ≠ '/'

/-- Two slashes, and behind them something other than a slash. -/
def OpensAuthority (cs : List Char) : Prop :=
  ∃ c rest, cs = '/' :: '/' :: c :: rest ∧ c ≠ '/'

theorem opensAuthority_cons_iff {cs : List Char} : OpensAuthority ('/' :: cs) ↔ OpensSegment cs := by
  simp only [OpensAuthority, OpensSegment, List.cons.injEq, true_and]

theorem not_opensAuthority_of_slashes {cs : List Char} (slashes : ∀ c ∈ cs, c = '/') :
    ¬ OpensAuthority cs := by
  rintro ⟨c, rest, rfl, hc⟩
  exact hc (slashes c (by simp))

/-- An authority opens within three characters, the last of which is no slash: what stands behind a
text that ends otherwise than with a slash does not matter. -/
theorem OpensAuthority.of_append {front : List Char} (ne : front ≠ []) (last : front.getLast ne ≠ '/')
    {rest : List Char} (h : OpensAuthority (front ++ rest)) (other : List Char) :
    OpensAuthority (front ++ other) := by
  obtain ⟨c, tail, heq, hc⟩ := h
  match front, ne, last, heq with
  | [a], _, last, heq =>
    cases heq
    exact absurd rfl last
  | [a, b], _, last, heq =>
    cases heq
    exact absurd rfl last
  | a :: b :: d :: front, _, _, heq =>
    cases heq
    exact ⟨c, front ++ other, rfl, hc⟩

/-- Trailing slashes do not matter either, unless there is nothing else. -/
theorem opensAuthority_trimSlashes_iff {cs : List Char} (some_other : trimSlashes cs ≠ [])
    (rest : List Char) : OpensAuthority (trimSlashes cs ++ rest) ↔ OpensAuthority cs := by
  have last := Text.getLast_trimSlashes_ne some_other
  obtain ⟨slashes, hcs⟩ : trimSlashes cs <+: cs := List.rdropWhile_prefix _ _
  constructor
  · intro h
    rw [← hcs]
    exact h.of_append some_other last slashes
  · intro h
    rw [← hcs] at h
    exact h.of_append some_other last rest

/-- Behind one slash and something other than a slash nothing changes at all. -/
theorem opensAuthority_segment_iff {tail : List Char} (plain : ∀ rest, tail ≠ '/' :: rest)
    (cs : List Char) : OpensAuthority (trimSlashes cs ++ '/' :: tail) ↔ OpensAuthority cs := by
  by_cases some_other : trimSlashes cs = []
  · rw [some_other, List.nil_append, opensAuthority_cons_iff]
    refine iff_of_false ?_ (not_opensAuthority_of_slashes (trimSlashes_eq_nil_iff.mp some_other))
    rintro ⟨c, rest, rfl, -⟩
    exact plain _ rfl
  · exact opensAuthority_trimSlashes_iff some_other _

/-! ## Schemes -/

/-- A scheme without its two slashes. -/
def IsProtocol (cs : List Char) : Prop :=
  cs = "http:".toList ∨ cs = "https:".toList

variable {protocol : List Char}

theorem exists_protocol {scheme : String} (h : scheme ∈ schemes) :
    ∃ protocol, IsProtocol protocol ∧ scheme.toList = protocol ++ ['/', '/'] := by
  simp only [schemes, List.mem_cons, List.not_mem_nil, or_false] at h
  rcases h with rfl | rfl
  · exact ⟨_, .inl rfl, rfl⟩
  · exact ⟨_, .inr rfl, rfl⟩

theorem IsProtocol.exists_scheme (h : IsProtocol protocol) :
    ∃ scheme ∈ schemes, scheme.toList = protocol ++ ['/', '/'] := by
  rcases h with rfl | rfl
  · exact ⟨"http://", by decide, rfl⟩
  · exact ⟨"https://", by decide, rfl⟩

/-- No protocol is the start of another one. -/
theorem IsProtocol.append_inj {other : List Char} (h : IsProtocol protocol) (h' : IsProtocol other)
    {xs ys : List Char} (heq : protocol ++ xs = other ++ ys) : protocol = other ∧ xs = ys := by
  rcases h with rfl | rfl <;> rcases h' with rfl | rfl
  · exact ⟨rfl, List.append_cancel_left heq⟩
  · cases heq
  · cases heq
  · exact ⟨rfl, List.append_cancel_left heq⟩

/-- Trimming stops at the colon. -/
theorem IsProtocol.trimSlashes_append (h : IsProtocol protocol) (cs : List Char) :
    trimSlashes (protocol ++ cs) = protocol ++ trimSlashes cs := by
  refine Text.trimSlashes_append ?_ cs
  rcases h with rfl | rfl
  · rfl
  · rfl

theorem IsProtocol.isAbsolute_iff (h : IsProtocol protocol) {url : String} {cs : List Char}
    (hurl : url.toList = protocol ++ cs) : IsAbsolute url ↔ OpensAuthority cs := by
  constructor
  · rintro ⟨scheme, hscheme, c, rest, heq, hc⟩
    obtain ⟨other, hother, hslashes⟩ := exists_protocol hscheme
    rw [hurl, hslashes, List.append_assoc] at heq
    exact ⟨c, rest, (h.append_inj hother heq).2, hc⟩
  · rintro ⟨c, rest, rfl, hc⟩
    obtain ⟨scheme, hscheme, hslashes⟩ := h.exists_scheme
    refine ⟨scheme, hscheme, c, rest, ?_, hc⟩
    rw [hurl, hslashes, List.append_assoc]
    rfl

theorem IsProtocol.isBareScheme_iff (h : IsProtocol protocol) {url : String} {cs : List Char}
    (hurl : url.toList = protocol ++ '/' :: '/' :: cs) :
    IsBareScheme url ↔ ∀ c ∈ cs, c = '/' := by
  constructor
  · rintro ⟨scheme, hscheme, slashes, heq, hall⟩
    obtain ⟨other, hother, hslashes⟩ := exists_protocol hscheme
    rw [hurl, hslashes, List.append_assoc] at heq
    cases (h.append_inj hother heq).2
    exact hall
  · intro hall
    obtain ⟨scheme, hscheme, hslashes⟩ := h.exists_scheme
    refine ⟨scheme, hscheme, cs, ?_, hall⟩
    rw [hurl, hslashes, List.append_assoc]
    rfl

/-! ## Locations -/

namespace Config

/-- How the resources of a service are located. -/
structure Locates (c : Config) : Prop where
  absolute_iff (kind : Kind) (id : String) : IsAbsolute (c.resourceLocation kind.endpoint id) ↔
    IsAbsolute c.baseUrl ∨ IsBareScheme c.baseUrl ∧ OpensSegment c.version.toList
  ends (kind : Kind) (id : String) :
    ("/" ++ kind.endpoint ++ "/" ++ id).toList <:+ (c.resourceLocation kind.endpoint id).toList
  /-- No two resources are located at the same place. -/
  apart {kind kind' : Kind} {id id' : String}
    (same : c.resourceLocation kind.endpoint id = c.resourceLocation kind'.endpoint id') :
    kind = kind' ∧ id = id'

/-- What stands before the kind. -/
def root (c : Config) : List Char :=
  trimSlashes (trimSlashes c.baseUrl.toList ++ '/' :: c.version.toList)

theorem toList_resourceLocation (c : Config) (endpoint id : String) :
    (c.resourceLocation endpoint id).toList = c.root ++ '/' :: (endpoint.toList ++ '/' :: id.toList) := by
  simp only [resourceLocation, locationOf, root, String.toList_append, Text.toList_trimEndOf_slash,
    List.append_assoc]
  rfl

theorem ends_resourceLocation (c : Config) (kind : Kind) (id : String) :
    ("/" ++ kind.endpoint ++ "/" ++ id).toList <:+ (c.resourceLocation kind.endpoint id).toList := by
  refine ⟨c.root, ?_⟩
  rw [toList_resourceLocation]
  simp only [String.toList_append, List.append_assoc]
  rfl

/-- The segments of the kinds differ in their first letters. -/
theorem eq_of_resourceLocation_eq {c : Config} {kind kind' : Kind} {id id' : String}
    (same : c.resourceLocation kind.endpoint id = c.resourceLocation kind'.endpoint id') :
    kind = kind' ∧ id = id' := by
  have heq := congrArg String.toList same
  rw [toList_resourceLocation, toList_resourceLocation] at heq
  have hkind : kind = kind' := by
    have hrest := List.append_cancel_left heq
    cases kind with
    | user =>
      cases kind' with
      | user => rfl
      | group => cases hrest
    | group =>
      cases kind' with
      | user => cases hrest
      | group => rfl
  cases hkind
  simp only [List.append_cancel_left_eq, List.cons.injEq, true_and, String.toList_inj] at heq
  exact ⟨rfl, heq⟩

theorem exists_protocol_of_valid {c : Config} (valid : c.validate = .ok ()) :
    ∃ protocol rest, IsProtocol protocol ∧ c.baseUrl.toList = protocol ++ '/' :: '/' :: rest := by
  have hscheme : hasScheme c.baseUrl = true := by
    cases hnone : hasScheme c.baseUrl with
    | true => rfl
    | false =>
      simp only [validate, hnone, Bool.not_false, if_true] at valid
      split at valid
      · cases valid
      · cases valid
  rw [hasScheme, Bool.or_eq_true, List.isPrefixOf_iff_prefix, List.isPrefixOf_iff_prefix] at hscheme
  rcases hscheme with ⟨rest, hbase⟩ | ⟨rest, hbase⟩
  · exact ⟨_, rest, .inl rfl, hbase.symm⟩
  · exact ⟨_, rest, .inr rfl, hbase.symm⟩

/-- The base address and the version, put together, open an authority where the base address does.
The version can only do so where the base address has nothing but slashes to trim. -/
theorem opensAuthority_joined_iff (rest version : List Char) :
    OpensAuthority (trimSlashes ('/' :: '/' :: rest) ++ '/' :: version) ↔
      OpensAuthority ('/' :: '/' :: rest) ∨ (∀ c ∈ rest, c = '/') ∧ OpensSegment version := by
  have hslashes : trimSlashes ('/' :: '/' :: rest) = [] ↔ ∀ c ∈ rest, c = '/' := by
    rw [trimSlashes_eq_nil_iff]
    simp only [List.forall_mem_cons, true_and]
  by_cases bare : trimSlashes ('/' :: '/' :: rest) = []
  · have closed := not_opensAuthority_of_slashes (trimSlashes_eq_nil_iff.mp bare)
    rw [bare, List.nil_append, opensAuthority_cons_iff, or_iff_right closed,
      and_iff_right (hslashes.mp bare)]
  · rw [opensAuthority_trimSlashes_iff bare]
    exact (or_iff_left fun h => bare (hslashes.mpr h.1)).symm

theorem isAbsolute_resourceLocation_iff {c : Config} (valid : c.validate = .ok ()) (kind : Kind)
    (id : String) : IsAbsolute (c.resourceLocation kind.endpoint id) ↔
      IsAbsolute c.baseUrl ∨ IsBareScheme c.baseUrl ∧ OpensSegment c.version.toList := by
  obtain ⟨protocol, rest, hprotocol, hbase⟩ := exists_protocol_of_valid valid
  have hlocation : (c.resourceLocation kind.endpoint id).toList = protocol ++
      (trimSlashes (trimSlashes ('/' :: '/' :: rest) ++ '/' :: c.version.toList) ++
        '/' :: (kind.endpoint.toList ++ '/' :: id.toList)) := by
    rw [toList_resourceLocation, root, hbase, hprotocol.trimSlashes_append, List.append_assoc,
      hprotocol.trimSlashes_append, List.append_assoc]
  have plain (tail : List Char) : ∀ xs, kind.endpoint.toList ++ tail ≠ '/' :: xs := by
    cases kind with
    | user => exact nofun
    | group => exact nofun
  rw [hprotocol.isAbsolute_iff hlocation, opensAuthority_segment_iff (plain _),
    opensAuthority_joined_iff, hprotocol.isAbsolute_iff hbase, hprotocol.isBareScheme_iff hbase]

/-- Under every configuration that is accepted, resources are located in this way. -/
theorem locates_of_valid (c : Config) (valid : c.validate = .ok ()) : c.Locates where
  absolute_iff := isAbsolute_resourceLocation_iff valid
  ends := c.ends_resourceLocation
  apart := eq_of_resourceLocation_eq

/-- With slashes at the end of the address and a version made of slashes alone. -/
theorem locates_below_host :
    (⟨"https://example.com//", "//", none⟩ : Config).validate = .ok () ∧
      IsAbsolute (resourceLocation ⟨"https://example.com//", "//", none⟩ "Groups" "g1") := by
  have valid : (⟨"https://example.com//", "//", none⟩ : Config).validate = .ok () := by decide
  refine ⟨valid, ((locates_of_valid _ valid).absolute_iff .group "g1").mpr (.inl ?_)⟩
  exact ⟨"https://", by decide, 'e', "xample.com//".toList, rfl, by decide⟩

/-- A scheme alone is accepted as a base address, and the locations below it are not absolute. -/
theorem bare_scheme_is_accepted :
    (⟨"http://", "v2", none⟩ : Config).validate = .ok () ∧
      resourceLocation ⟨"http://", "v2", none⟩ "Users" "42" = "http:/v2/Users/42" ∧
      ¬ IsAbsolute "http:/v2/Users/42" := by
  refine ⟨by decide, by decide, ?_⟩
  rintro ⟨scheme, hscheme, c, rest, heq, -⟩
  simp only [schemes, List.mem_cons, List.not_mem_nil, or_false] at hscheme
  rcases hscheme with rfl | rfl
  · cases heq
  · cases heq

end Config

end Scim
