import Scim.Proofs.ListPatch
import Scim.Proofs.PatchVerdict
import Scim.Proofs.WrittenFilter

/-!
# Selected members

A path can select the members of one value by a filter between brackets. However the filter is
written, exactly these members are removed, whatever characters the value has: what ends the path is
its last bracket, so that a value may have brackets as well. The same members can be removed by
listing them, except that a blank value cannot be listed. Filters that ask for anything else select
nothing, and nothing but a removal can be made on what is selected.
-/

namespace Scim.Patch

open Fallible Scim.Filter

/-- The filter is one term, which compares `value` for equality with this. -/
def AsksFor (selector : List Char) (v : String) : Prop :=
  ∃ t : Term, Filter.parse (String.ofList selector) = .ok [⟨[t]⟩] ∧
    Text.sameLetters t.path "value" = true ∧ t.operator = .equals ∧ t.value = v

/-! ## How selections are written -/

/-- White space, or nothing at all. -/
structure Gap where
  chars : List Char
  blank : AllSpace chars

/-- A word ends where white space or a quote comes. -/
theorem Gap.noneFollows_append {gap : Gap} {rest : List Char}
    (h : gap.chars ≠ [] ∨ Text.NoneFollows isWordChar rest) :
    Text.NoneFollows isWordChar (gap.chars ++ rest) := by
  obtain ⟨chars, blank⟩ := gap
  cases chars with
  | nil => exact h.resolve_left (absurd rfl)
  | cons c chars =>
    exact Text.noneFollows_cons (not_isWordChar_of_isSpace (blank c List.mem_cons_self))

/-- All that is left to the writer of a path which selects the members of a value. There is no gap
before the bracket, and there has to be one after `value`, which would go on otherwise. -/
structure Selection where
  before : Gap
  members : Spelled "members"
  opening : Gap
  subject : Spelled "value"
  between : Gap
  separated : between.chars ≠ []
  operator : Spelled Operator.equals.word
  ahead : Gap
  closing : Gap
  after : Gap

namespace Selection

/-- The text between the brackets. -/
def selector (s : Selection) (v : String) : List Char :=
  s.opening.chars ++ ((Token.word s.subject.text).chars ++
    (s.between.chars ++ ((Token.word s.operator.text).chars ++
      (s.ahead.chars ++ ((Token.quoted v).chars ++ s.closing.chars)))))

/-- The path without the white space around it. -/
def core (s : Selection) (v : String) : List Char :=
  s.members.text.toList ++ ['['] ++ s.selector v ++ [']']

def path (s : Selection) (v : String) : String :=
  String.ofList (s.before.chars ++ s.core v ++ s.after.chars)

theorem selects_core (s : Selection) (v : String) :
    (GroupTarget.selected (s.selector v)).IsSpelled (String.ofList (s.core v)) := by
  refine ⟨s.members.text.toList ++ ['['], String.toList_ofList, ?_⟩
  have same := s.members.same
  rw [Text.sameLetters, beq_iff_eq] at same
  have small : s.members.text.toList.map Char.toLower = "members".toList := by
    rw [← String.toList_ofList (l := List.map _ _)]
    exact congrArg String.toList same
  rw [List.map_append, small]
  rfl

/-- A path starts with a letter and ends with a bracket, so only the white space is trimmed off. -/
theorem trim_path (s : Selection) (v : String) :
    Text.trim (s.path v) = String.ofList (s.core v) := by
  have word : IsWord s.members.text := isWord_of_sameLetters s.members.same (by decide)
  have starts : Text.NoneFollows Text.isSpace (s.core v) := by
    obtain ⟨c, rest, hchars⟩ := List.exists_cons_of_ne_nil word.1
    have inside : isWordChar c = true := word.2 c (by rw [hchars]; exact List.mem_cons_self)
    rw [core, hchars]
    exact Text.noneFollows_cons (Token.isWordChar_iff.mp inside).1
  have ends : Text.NoneFollows Text.isSpace (s.core v).reverse := by
    rw [core, List.reverse_append]
    exact Text.noneFollows_cons (by decide)
  rw [Text.trim, path, String.toList_ofList,
    Text.trimChars_between s.before.blank s.after.blank starts ends]

theorem selects_path (s : Selection) (v : String) :
    (GroupTarget.selected (s.selector v)).IsSpelled (Text.trim (s.path v)) := by
  rw [trim_path]
  exact s.selects_core v

/-! ## How selections are read -/

/-- The filter as a tree: one comparison. -/
def derivation (s : Selection) (v : String) : Derivation :=
  .alternatives <| .one <| .one <| .compared
    ⟨s.subject.text, Text.sameLetters_of_ne s.subject.same (by decide)⟩ .equals (by decide)
    s.operator (.quoted v)

theorem derives_selector (s : Selection) (v : String) :
    Derives (String.ofList (s.selector v)) (s.derivation v) := by
  rw [Derives, String.toList_ofList]
  have closing : Lexes s.closing.chars [] :=
    lexes_nil_iff.mpr (List.all_eq_true.mpr s.closing.blank)
  have closed : Text.NoneFollows isWordChar s.closing.chars := fun c hc =>
    not_isWordChar_of_isSpace (s.closing.blank c (List.mem_of_mem_head? hc))
  have literal : Lexes ((Token.quoted v).chars ++ s.closing.chars) [.quoted v] :=
    lexes_chars trivial closed closing
  have quote : Text.NoneFollows isWordChar ((Token.quoted v).chars ++ s.closing.chars) :=
    Text.noneFollows_cons (by decide)
  have operator := lexes_chars (t := .word s.operator.text)
    (Operator.isWord_of_sameLetters s.operator.same) (Gap.noneFollows_append (.inr quote))
    (lexes_space_append s.ahead.blank literal)
  have subject := lexes_chars (t := .word s.subject.text)
    (isWord_of_sameLetters s.subject.same (by decide)) (Gap.noneFollows_append (.inl s.separated))
    (lexes_space_append s.between.blank operator)
  exact lexes_space_append s.opening.blank subject

theorem asksFor (s : Selection) (v : String) : AsksFor (s.selector v) v :=
  ⟨⟨s.subject.text, .equals, v⟩, parse_ok_iff.mpr ⟨_, s.derives_selector v, rfl⟩,
    s.subject.same, rfl, rfl⟩

end Selection

/-! ## Operations on selected members -/

theorem GroupEdit.selectedValue?_eq_some_iff {selector : List Char} {v : String} :
    selectedValue? selector = some v ↔ AsksFor selector v := by
  rw [selectedValue?]
  constructor
  · intro h
    split at h
    · next t read =>
      split at h
      · next asks =>
        cases h
        exact ⟨t, read, asks.1, asks.2, rfl⟩
      · cases h
    · cases h
  · rintro ⟨t, read, hpath, hoperator, rfl⟩
    rw [read]
    exact if_pos ⟨hpath, hoperator⟩

variable {o : Operation} {selector : List Char} {v : String}

theorem apply_selected (selects : (GroupTarget.selected selector).IsSpelled (Text.trim o.path))
    (g : Group) :
    apply g (.ofOperations [o]) = (GroupEdit.selectedEdit o selector).map fun e => e.apply g := by
  have target : GroupTarget.ofPath? o.path = some (.selected selector) :=
    GroupTarget.ofPath?_eq_some_iff.mpr selects
  have read : GroupEdit.ofOperation o = GroupEdit.selectedEdit o selector := by
    rw [GroupEdit.ofOperation, target]
  rw [apply_alone]
  exact (map_map _ _ _).trans (congrArg _ read)

theorem removed_of_asksFor
    (selects : (GroupTarget.selected selector).IsSpelled (Text.trim o.path))
    (removes : o.op = .remove) (asks : AsksFor selector v) (g : Group) :
    apply g (.ofOperations [o]) = .ok { g with members := g.members.filter (·.value != v) } := by
  rw [apply_selected selects, GroupEdit.selectedEdit, removes,
    GroupEdit.selectedValue?_eq_some_iff.mpr asks]
  rfl

theorem refused_of_not_asksFor
    (selects : (GroupTarget.selected selector).IsSpelled (Text.trim o.path))
    (other : o.op = .remove → ∀ v, ¬ AsksFor selector v) (g : Group) :
    apply g (.ofOperations [o]) = .error (.unsupportedPatchPath o.path) := by
  rw [apply_selected selects, GroupEdit.selectedEdit]
  split
  · next value removes hvalue =>
    exact absurd (GroupEdit.selectedValue?_eq_some_iff.mp hvalue) (other removes value)
  · rfl

/-! ## Members that are listed -/

/-- The value of an operation that lists the member of this value. -/
def listing (v : String) : Json :=
  .arr [.obj [("value", .str v)]]

theorem lists_listing_iff {es : List Member} :
    Lists (Listed.ReadAs (α := Group)) (listing v) es ↔
      es = [⟨v, none, none⟩] ∧ Text.isBlank v = false := by
  have read : Member.decode (.obj [("value", .str v)]) = .ok ⟨v, none, none⟩ := rfl
  constructor
  · rintro (h | _)
    obtain ⟨m, rest, ⟨hread, formed⟩, hrest, rfl⟩ := List.forall₂_cons_left_iff.mp h
    cases List.forall₂_nil_left_iff.mp hrest
    cases read.symm.trans hread
    exact ⟨rfl, formed.value⟩
  · rintro ⟨rfl, filled⟩
    exact .array (.cons ⟨read, filled, nofun⟩ .nil)

theorem listed_removed_iff {path : String} (named : Listed.Named Group path) {g p : Group} :
    apply g (.ofOperations [⟨.remove, path, some (listing v)⟩]) = .ok p ↔
      Text.isBlank v = false ∧ p = { g with members := g.members.filter (·.value != v) } := by
  have dropped : Keyed.without Member.value g.members [⟨v, none, none⟩] =
      g.members.filter (·.value != v) := Keyed.without_singleton g.members _
  have applied_iff : apply g (.ofOperations [⟨.remove, path, some (listing v)⟩]) = .ok p ↔
      Listed.Outcome g ⟨.remove, path, some (listing v)⟩ p := by
    rw [apply_alone]
    exact ⟨outcome_of_applied (o := ⟨.remove, path, some (listing v)⟩) named,
      applied_of_outcome (o := ⟨.remove, path, some (listing v)⟩) named⟩
  rw [applied_iff, ← dropped]
  constructor
  · intro h
    cases h with
    | remove given =>
      obtain ⟨rfl, filled⟩ := lists_listing_iff.mp given
      exact ⟨filled, rfl⟩
    | clear absent => rcases absent with absent | absent <;> cases absent
  · rintro ⟨filled, rfl⟩
    exact .remove (lists_listing_iff.mpr ⟨rfl, filled⟩)

/-- What operations on selected members do. -/
structure SelectedMembers : Prop where
  /-- The members of the value are removed, however the path is written. -/
  removed (s : Selection) (v : String) (value : Option Json) (g : Group) :
    apply g (.ofOperations [⟨.remove, s.path v, value⟩]) =
      .ok { g with members := g.members.filter (·.value != v) }
  /-- It is the same to list them, as long as that is possible. -/
  listed_iff (s : Selection) (v : String) {path : String} (named : Listed.Named Group path)
    (g : Group) :
    apply g (.ofOperations [⟨.remove, path, some (listing v)⟩]) =
      apply g (.ofOperations [.remove (s.path v)]) ↔ Text.isBlank v = false
  /-- Nothing but a removal can be made, and only if the filter asks for a value. -/
  refused_iff {o : Operation} {selector : List Char}
    (selects : (GroupTarget.selected selector).IsSpelled (Text.trim o.path)) (g : Group) :
    apply g (.ofOperations [o]) = .error (.unsupportedPatchPath o.path) ↔
      ¬ (o.op = .remove ∧ ∃ v, AsksFor selector v)

/-- Members are selected by their value exactly, and by nothing else. -/
theorem members_selected : SelectedMembers where
  removed s v _ := removed_of_asksFor (s.selects_path v) rfl (s.asksFor v)
  listed_iff s v _ named g := by
    rw [removed_of_asksFor (o := .remove (s.path v)) (s.selects_path v) rfl (s.asksFor v),
      listed_removed_iff named]
    exact and_iff_left rfl
  refused_iff selects g := by
    constructor
    · rintro h ⟨removes, v, asks⟩
      rw [removed_of_asksFor selects removes asks] at h
      cases h
    · intro other
      exact refused_of_not_asksFor selects (fun removes v asks => other ⟨removes, v, asks⟩) g

/-- A selection in letters of either case with white space of several kinds, and none before the
literal. -/
def spaced : Selection where
  before := ⟨['\t'], List.all_eq_true.mp rfl⟩
  members := ⟨"MEMBERS", by decide⟩
  opening := ⟨[' '], List.all_eq_true.mp rfl⟩
  subject := ⟨"Value", by decide⟩
  between := ⟨['\n', ' '], List.all_eq_true.mp rfl⟩
  separated := List.cons_ne_nil _ _
  operator := ⟨"eQ", by decide⟩
  ahead := ⟨[], nofun⟩
  closing := ⟨[' '], List.all_eq_true.mp rfl⟩
  after := ⟨['\u2003'], List.all_eq_true.mp rfl⟩

/-- A value with a quote, a bracket, a backslash and a letter beyond ASCII. -/
theorem members_selected_with_bracket :
    let v := "\"]\\é"
    let path := "\tMEMBERS[ Value\n eQ\"\\\"]\\\\é\" ]\u2003"
    let grouped := "members[(value eq \"u1\")]"
    let u1 : Member := ⟨"u1", none, none⟩
    let g : Group := { Group.named "Team A" with members := [⟨v, none, none⟩, u1, ⟨v, none, none⟩] }
    apply g (.ofOperations [.remove path]) = .ok { g with members := [u1] } ∧
      apply g (.ofOperations [⟨.remove, " Members", some (listing v)⟩]) =
        .ok { g with members := [u1] } ∧
      apply g (.ofOperations [.add path (listing v)]) = .error (.unsupportedPatchPath path) ∧
      apply g (.ofOperations [.remove grouped]) = .error (.unsupportedPatchPath grouped) := by
  intro v path grouped u1 g
  have written : spaced.path v = path := by decide +kernel
  have left : g.members.filter (·.value != v) = [u1] := by decide +kernel
  have removed := members_selected.removed spaced v none g
  rw [left] at removed
  have named : Listed.Named Group " Members" := by
    rw [Listed.Named]
    decide
  have listed := (members_selected.listed_iff spaced v named g).mpr (by decide)
  have selects : (GroupTarget.selected "(value eq \"u1\")".toList).IsSpelled (Text.trim grouped) :=
    ⟨"members[".toList, by decide +kernel, by decide⟩
  refine ⟨?_, ?_, ?_, ?_⟩
  · rw [← written]
    exact removed
  · exact listed.trans removed
  · rw [← written]
    refine (members_selected.refused_iff (o := .add _ _) (spaced.selects_path v) g).mpr ?_
    rintro ⟨removes, -⟩
    cases removes
  · refine (members_selected.refused_iff (o := .remove grouped) selects g).mpr ?_
    rintro ⟨-, value, t, read, -⟩
    have flawed : Filter.parse (String.ofList "(value eq \"u1\")".toList) =
        .error (.grouping '(') := by
      rw [Filter.parse, Token.scan.eq_def]
      rfl
    cases flawed.symm.trans read

end Scim.Patch
